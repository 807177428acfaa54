import BlockTree.Proofs.Workspace.Holding

/-! What is shown of a holder. Where nothing inside its lists and attributes is shared, it is
decided by what is stored for it. -/
namespace BlockTree

inductive Datum.Plain : Datum → Prop
  | value (v : Value) : Plain (.value v)
  | items {ds : List Datum} : (∀ d ∈ ds, Plain d) → Plain (.items ds)
  | fields {es : List (Value × Datum)} : (∀ e ∈ es, Plain e.2) → Plain (.fields es)

theorem Datum.Plain.resolve_eq {d : Datum} (h : d.Plain) (ls ls' : Lists) (depth : Nat)
    (above above' : List ListId) : d.resolve ls depth above = d.resolve ls' depth above' := by
  induction depth generalizing d with
  | zero => cases h <;> rfl
  | succ depth ih =>
    cases h with
    | value v => rfl
    | items hds => exact congrArg Value.list (List.map_congr_left fun d hd => ih (hds d hd))
    | fields hes =>
      exact congrArg Value.map (List.map_congr_left fun e he => congrArg (e.1, ·) (ih (hes e he)))

structure Stored.Plain (k : Stored) : Prop where
  slots : ∀ d ∈ k.slots, d.Plain
  attributes : ∀ e ∈ k.attributes, e.2.Plain

def Stored.values (depth : Nat) (k : Stored) : List Value × Value :=
  (k.slots.map fun d => d.resolve [] depth [], k.attributes.resolve [] depth)

namespace Workspace

/-- The lines, the substitutions and the attributes of a node as they are shown, and what is shown
of options besides their source. -/
def shown (w : Workspace) (x : Holder) : Option (List Value × Value) :=
  (w.holding x).map fun h => (h.slots.map w.resolve, w.attributesOf h.attributes)

variable {w : Workspace} {x : Holder}

theorem resolve_contents {d : Datum} (h : (w.store.contents d).Plain) :
    w.resolve d = (w.store.contents d).resolve [] w.depth [] := by
  cases d with
  | shared l =>
    cases h with
    | items hds =>
      exact congrArg Value.list (List.map_congr_left fun d hd => (hds d hd).resolve_eq ..)
  | _ => exact h.resolve_eq ..

/-- What is shown of a holder that shares nothing depends on what is stored alone. -/
theorem shown_eq (h : ∀ k ∈ w.store.stored x, k.Plain) :
    w.shown x = (w.store.stored x).map (Stored.values w.depth) := by
  change (w.holding x).map _ = ((w.holding x).map _).map _
  cases hx : w.holding x with
  | none => rfl
  | some k =>
    have hplain := h ⟨k.slots.map w.store.contents, w.entriesAt k.attributes⟩
      (by rw [Store.stored, show w.store.holding x = some k from hx]; rfl)
    refine congrArg some (Prod.ext ?_ ?_)
    · refine (List.map_congr_left fun d hd => ?_).trans (List.map_map ..).symm
      exact resolve_contents (hplain.slots _ (List.mem_map_of_mem hd))
    · refine congrArg Value.map (List.map_congr_left fun e he => congrArg (e.1, ·) ?_)
      exact (hplain.attributes e he).resolve_eq ..

end Workspace

end BlockTree

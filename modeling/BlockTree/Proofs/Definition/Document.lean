import BlockTree.Proofs.Definition.Attributes
import BlockTree.Proofs.Definition.Building

/-! What building a document comes to: the first of its attributes, its `blocks` and the block
definitions in order that is not as it should be decides. -/
namespace BlockTree.Definition

variable {σ : Type}

/-- All block definitions in a value that come before a place are clear. -/
def ClearBefore (i : Nat) (π : List Nat) (v : Value) : Prop :=
  ∀ j ρ u, Before (j :: ρ) (i :: π) → at? (j :: ρ) v = some u → Clear u

inductive Outcome (es : Entries) (x : Run σ Document) : Prop
  | unmappable {f : Failure} : ¬ Mappable (Entries.get es "attributes") →
      f.category ≠ .definition → x.Gives (.error f) → Outcome es x
  | broken {f : Failure} : Mappable (Entries.get es "attributes") →
      BlocksFault [] .compound (Entries.get es "blocks") f → x.Gives (.error f) → Outcome es x
  | faulty {i : Nat} {π : List Nat} {v : Value} {f : Failure} :
      Mappable (Entries.get es "attributes") → HoldsBlocks (Entries.get es "blocks") →
      at? (i :: π) (.map es) = some v → ClearBefore i π (.map es) → OwnFault (i :: π) v f →
      x.Gives (.error f) → Outcome es x
  | built {d : Document} : Mappable (Entries.get es "attributes") →
      HoldsBlocks (Entries.get es "blocks") →
      (∀ i π v, at? (i :: π) (.map es) = some v → Clear v) → x.Gives (.ok d) → Outcome es x

theorem faultIn_listed {v : Value} {i : Nat} {π : List Nat} {f : Failure} :
    FaultIn [] 0 (listed v) (i :: π) f ↔ ∃ u, at? (i :: π) v = some u ∧ OwnFault (i :: π) u f := by
  rw [← faultAt_cons, FaultAt, List.nil_append]

theorem clear_of_not_faultIn {v u : Value} {i : Nat} {π : List Nat}
    (hu : at? (i :: π) v = some u) (h : ∀ f, ¬ FaultIn [] 0 (listed v) (i :: π) f) : Clear u := by
  apply Classical.byContradiction
  intro hn
  obtain ⟨f, hf⟩ := exists_ownFault_iff.2 hn
  exact h f (faultIn_listed.2 ⟨u, hu, hf⟩)

theorem document_outcome (es : Entries) : Outcome es (document (.map es) : Run σ Document) := by
  by_cases hm : Mappable (Entries.get es "attributes")
  case neg =>
    obtain ⟨f, hf, hc⟩ := attributes_of_not_mappable hm
    exact .unmappable hm hc (Run.gives_bind_error (Run.gives_ofExcept hf))
  obtain ⟨as, has⟩ := attributes_of_mappable hm
  have hattributes : (Run.ofExcept (Value.attributes (Entries.get es "attributes")) :
      Run σ Entries).Gives (.ok as) := Run.gives_ofExcept has
  cases nestedIn_nested (σ := σ) [] es with
  | broken hf hx => exact .broken hm hf (Run.gives_bind_ok hattributes (Run.gives_bind_error hx))
  | held hb hd =>
    cases hd with
    | @built bs hnone hbs =>
      have hgives : (document (.map es) : Run σ Document).Gives (.ok ⟨as, bs⟩) :=
        Run.gives_bind_ok hattributes <| Run.gives_bind_ok hbs <|
          Run.gives_bind_ok (Run.gives_note _) (Run.gives_pure _)
      exact .built hm hb (fun i π v hv => clear_of_not_faultIn hv (hnone (i :: π))) hgives
    | @failed π f hfirst hf =>
      cases π with
      | nil => exact absurd hfirst.here id
      | cons i π =>
        obtain ⟨v, hv, hown⟩ := (faultIn_listed (v := .map es)).1 hfirst.here
        have hbefore : ClearBefore i π (.map es) := fun j ρ u hlt hu =>
          clear_of_not_faultIn hu fun g hg => hfirst.least _ g hg hlt
        exact .faulty hm hb hv hbefore hown
          (Run.gives_bind_ok hattributes (Run.gives_bind_error hf))

end BlockTree.Definition

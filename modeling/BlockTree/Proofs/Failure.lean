import BlockTree.Failure

/-! Steps that may fail, taken apart. A look-up is one: what it finds is an entry. -/
namespace BlockTree

variable {α β : Type} {x : Except Failure α}

theorem except_bind_ok {f : α → Except Failure β} {b : β} (h : x >>= f = .ok b) :
    ∃ a, x = .ok a ∧ f a = .ok b := by
  cases x with
  | error r => cases h
  | ok a => exact ⟨a, rfl, h⟩

theorem except_bind_of_ok {f : α → Except Failure β} {a : α} (h : x = .ok a) : x >>= f = f a := by
  rw [h]
  rfl

theorem except_bind_error {f : α → Except Failure β} {r : Failure} (h : x = .error r) :
    x >>= f = .error r := by
  rw [h]
  rfl

theorem except_map_bind {γ : Type} (f : α → Except Failure β) (g : β → γ) :
    (x >>= f).map g = x >>= fun a => (f a).map g := by
  cases x <;> rfl

theorem except_bind_eq_error_iff {g : α → β} {r : Failure} :
    (x >>= fun a => pure (g a)) = .error r ↔ x = .error r := by
  cases x with
  | error f => exact ⟨fun h => by cases h; rfl, fun h => by cases h; rfl⟩
  | ok a => exact ⟨nofun, nofun⟩

theorem except_foldlM_ok {P : β → Prop} {f : β → α → Except Failure β}
    (hf : ∀ b a b', P b → f b a = .ok b' → P b') {as : List α} {b b' : β} (hb : P b)
    (h : as.foldlM f b = .ok b') : P b' := by
  induction as generalizing b with
  | nil =>
    cases h
    exact hb
  | cons a as ih =>
    obtain ⟨c, hc, h⟩ := except_bind_ok h
    exact ih (hf b a c hb hc) h

theorem mem_of_lookup [BEq α] [LawfulBEq α] {es : List (α × β)} {a : α} {b : β}
    (h : es.lookup a = some b) : (a, b) ∈ es := by
  obtain ⟨before, after, rfl, -⟩ := List.lookup_eq_some_iff.1 h
  exact List.mem_append_right before List.mem_cons_self

end BlockTree

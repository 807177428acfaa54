import BlockTree.Definition
import BlockTree.Proofs.Failure

/-! Which values can be the attributes of a document. What cannot fails with an error of its kind,
which is no fault of a definition. -/
namespace BlockTree.Definition

def IsPair (w : Value) : Prop := ∃ k x, w.items = .ok [k, x] ∧ k.hashable

/-- False, a mapping, or a row of pairs. -/
def Mappable (v : Value) : Prop :=
  v.truthy = false ∨ (∃ es, v = .map es) ∨ ∃ ws, v.items = .ok ws ∧ ∀ w ∈ ws, IsPair w

theorem asPair_of_isPair {w : Value} (h : IsPair w) (index : Nat) :
    ∃ p, w.asPair index = .ok p := by
  obtain ⟨k, x, hi, hk⟩ := h
  rw [Value.hashable, Option.isNone_iff_eq_none] at hk
  exact ⟨(k, x), by simp only [Value.asPair, hi, hk]⟩

theorem asPair_error {w : Value} (h : ¬ IsPair w) (index : Nat) :
    ∃ f, w.asPair index = .error f ∧ f.category ≠ .definition := by
  unfold Value.asPair
  split
  next k x hi =>
    split
    next hk => exact absurd ⟨k, x, hi, by rw [Value.hashable, hk]; rfl⟩ h
    next kind hk => exact ⟨_, rfl, by simp [Failure.category]⟩
  next => exact ⟨_, rfl, by simp [Failure.category]⟩
  next => exact ⟨_, rfl, by simp [Failure.category]⟩
  next => exact ⟨_, rfl, by simp [Failure.category]⟩

theorem pairs_ok {ws : List Value} (h : ∀ w ∈ ws, IsPair w) (index : Nat) :
    ∃ ps, Value.pairs index ws = .ok ps := by
  induction ws generalizing index with
  | nil => exact ⟨[], rfl⟩
  | cons w ws ih =>
    rw [List.forall_mem_cons] at h
    obtain ⟨p, hp⟩ := asPair_of_isPair h.1 index
    obtain ⟨ps, hps⟩ := ih h.2 (index + 1)
    exact ⟨p :: ps, (except_bind_of_ok hp).trans ((except_bind_of_ok hps).trans rfl)⟩

theorem pairs_error {ws : List Value} (h : ¬ ∀ w ∈ ws, IsPair w) (index : Nat) :
    ∃ f, Value.pairs index ws = .error f ∧ f.category ≠ .definition := by
  induction ws generalizing index with
  | nil => exact absurd (List.forall_mem_nil _) h
  | cons w ws ih =>
    by_cases hw : IsPair w
    · obtain ⟨p, hp⟩ := asPair_of_isPair hw index
      have hws : ¬ ∀ w ∈ ws, IsPair w := fun hws => h (List.forall_mem_cons.2 ⟨hw, hws⟩)
      obtain ⟨f, hf, hc⟩ := ih hws (index + 1)
      exact ⟨f, (except_bind_of_ok hp).trans (except_bind_error hf), hc⟩
    · obtain ⟨f, hf, hc⟩ := asPair_error hw index
      exact ⟨f, except_bind_error hf, hc⟩

theorem items_category {v : Value} {f : Failure} (h : v.items = .error f) :
    f.category ≠ .definition := by
  cases v <;> cases h <;> simp [Failure.category]

theorem attributes_of_mappable {v : Value} (h : Mappable v) : ∃ es, v.attributes = .ok es := by
  unfold Value.attributes
  split
  next ht =>
    split
    next es => exact ⟨es, rfl⟩
    next hmap =>
      obtain hf | ⟨es, rfl⟩ | ⟨ws, hi, hws⟩ := h
      · exact absurd (hf.symm.trans ht) Bool.false_ne_true
      · exact absurd rfl (hmap es)
      · obtain ⟨ps, hps⟩ := pairs_ok hws 0
        rw [hi]
        exact ⟨_, (except_bind_of_ok rfl).trans ((except_bind_of_ok hps).trans rfl)⟩
  next => exact ⟨[], rfl⟩

theorem attributes_of_not_mappable {v : Value} (h : ¬ Mappable v) :
    ∃ f, v.attributes = .error f ∧ f.category ≠ .definition := by
  have ht : v.truthy = true := eq_true_of_ne_false fun hf => h (.inl hf)
  unfold Value.attributes
  rw [if_pos ht]
  split
  next es => exact absurd (.inr (.inl ⟨es, rfl⟩)) h
  next =>
    cases hi : v.items with
    | error f => exact ⟨f, rfl, items_category hi⟩
    | ok ws =>
      have hws : ¬ ∀ w ∈ ws, IsPair w := fun hws => h (.inr (.inr ⟨ws, hi, hws⟩))
      obtain ⟨f, hf, hc⟩ := pairs_error hws 0
      exact ⟨f, (except_bind_of_ok rfl).trans (except_bind_error hf), hc⟩

end BlockTree.Definition

import BlockTree.Proofs.Definition.Check

/-! What a definition fails with on its own account: a verdict against it, or something under
`blocks` that is neither false nor a list. -/
namespace BlockTree.Definition

def HoldsBlocks (v : Value) : Prop := v.truthy = false ∨ ∃ vs, v = .list vs

def Clear (v : Value) : Prop := Sound v ∧ HoldsBlocks (v.field "blocks")

/-- What a value under `blocks` fails with: its first item if it has items, otherwise that it has
none, in the words of counting or of reading. -/
inductive BlocksFault (path : List Nat) (m : ContentModel) (v : Value) : Failure → Prop
  | item {w : Value} {ws : List Value} : (∀ vs, v ≠ .list vs) → v.truthy → v.items = .ok (w :: ws) →
      BlocksFault path m v (.definition (path ++ [0]) .notMapping)
  | endless : v.truthy → v.items = .error .endless → BlocksFault path m v .endless
  | uncounted {kind : String} : v.truthy → v.items = .error (.notIterable kind) → m ≠ .compound →
      BlocksFault path m v (.noLength v.kind)
  | unread {kind : String} : v.truthy → v.items = .error (.notIterable kind) → m = .compound →
      BlocksFault path m v (.notIterable kind)

/-- What a definition fails with apart from the definitions below it. -/
inductive OwnFault (path : List Nat) (v : Value) : Failure → Prop
  | verdict {f : Failure} : Verdict path v f → OwnFault path v f
  | blocks {es : Entries} {g : Fields} {f : Failure} : v = .map es → fields path es = .ok g →
      BlocksFault path g.model (Entries.get es "blocks") f → OwnFault path v f

theorem truthy_of_items_nil {v : Value} (h : v.items = .ok []) : v.truthy = false := by
  cases v with
  | list vs | set vs =>
    cases h
    rfl
  | map es =>
    cases es with
    | nil => rfl
    | cons e es => cases h
  | str s =>
    have hs : s.toList = [] := List.map_eq_nil_iff.1 (Except.ok.inj h)
    have hs : s = "" := String.toList_inj.1 hs
    subst hs
    rfl
  | ragged t =>
    have ht : t.codes = [] := List.map_eq_nil_iff.1 (Except.ok.inj h)
    have hragged := t.ragged
    rw [ht] at hragged
    cases hragged
  | bytes bs =>
    have hbs : bs = [] := List.map_eq_nil_iff.1 (Except.ok.inj h)
    subst hbs
    rfl
  | _ => cases h

theorem items_error {v : Value} {f : Failure} (h : v.items = .error f) :
    f = .endless ∨ ∃ kind, f = .notIterable kind := by
  cases v <;> cases h <;> simp

section

variable {path : List Nat} {v : Value} {m : ContentModel}

theorem BlocksFault.truthy {f : Failure} (h : BlocksFault path m v f) : v.truthy = true := by
  cases h <;> assumption

theorem BlocksFault.not_list {f : Failure} (h : BlocksFault path m v f) (vs : List Value) :
    v ≠ .list vs := by
  intro hv
  subst hv
  cases h with
  | item hl _ _ => exact hl vs rfl
  | endless _ hi | uncounted _ hi _ | unread _ hi _ => cases hi

theorem exists_blocksFault_of_items_error {f : Failure} (ht : v.truthy = true)
    (hi : v.items = .error f) : ∃ g, BlocksFault path m v g := by
  cases items_error hi with
  | inl hf =>
    subst hf
    exact ⟨_, .endless ht hi⟩
  | inr hf =>
    obtain ⟨kind, rfl⟩ := hf
    by_cases hm : m = .compound
    · exact ⟨_, .unread ht hi hm⟩
    · exact ⟨_, .uncounted ht hi hm⟩

theorem exists_blocksFault_iff : (∃ f, BlocksFault path m v f) ↔ ¬ HoldsBlocks v := by
  constructor
  · intro h hb
    obtain ⟨f, hf⟩ := h
    cases hb with
    | inl hv => exact Bool.false_ne_true (hv.symm.trans hf.truthy)
    | inr hv =>
      obtain ⟨vs, hvs⟩ := hv
      exact hf.not_list vs hvs
  · intro h
    have ht : v.truthy = true := eq_true_of_ne_false fun hf => h (.inl hf)
    cases hi : v.items with
    | ok ws =>
      cases ws with
      | nil => exact absurd ((truthy_of_items_nil hi).symm.trans ht) Bool.false_ne_true
      | cons w ws => exact ⟨_, .item (fun vs hv => h (.inr ⟨vs, hv⟩)) ht hi⟩
    | error f => exact exists_blocksFault_of_items_error ht hi

/-- A definition has a fault of its own unless it is clear. -/
theorem exists_ownFault_iff : (∃ f, OwnFault path v f) ↔ ¬ Clear v := by
  constructor
  · intro h hclear
    obtain ⟨f, hf⟩ := h
    cases hf with
    | verdict hv => exact verdict_iff.1 ⟨f, hv⟩ hclear.1
    | blocks hv _ hf =>
      subst hv
      exact exists_blocksFault_iff.1 ⟨f, hf⟩ hclear.2
  · intro h
    by_cases hs : Sound v
    · obtain ⟨es, rfl⟩ := hs.wellFormed.mapping
      obtain ⟨g, hg⟩ := fields_ok_iff.2 hs
      obtain ⟨f, hf⟩ := exists_blocksFault_iff.2 fun hb => h ⟨hs, hb⟩
      exact ⟨f, .blocks rfl hg hf⟩
    · obtain ⟨f, hf⟩ := verdict_iff.2 hs
      exact ⟨f, .verdict hf⟩

theorem not_ownFault_of_clear (h : Clear v) (f : Failure) : ¬ OwnFault path v f :=
  fun hf => exists_ownFault_iff.1 ⟨f, hf⟩ h

theorem ownFault_notMapping (h : ∀ es, v ≠ .map es) (ha : ∀ isMap, v ≠ .again isMap) :
    OwnFault path v (.definition path .notMapping) :=
  .verdict (.refused ⟨h, fun _ _ => Nat.zero_le _⟩ trivial ha)

end

end BlockTree.Definition

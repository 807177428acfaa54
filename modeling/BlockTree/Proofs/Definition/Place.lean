import BlockTree.Proofs.Definition.Fault
import BlockTree.Proofs.Run

/-! Places of block definitions in nested values, and the first place of a fault in the order in
which definitions are read. -/
namespace BlockTree.Definition

def listItems : Value → List Value
  | .list vs => vs
  | _ => []

def listed (v : Value) : List Value := listItems (v.field "blocks")

def at? : List Nat → Value → Option Value
  | [], v => some v
  | i :: π, v => (listed v)[i]?.bind (at? π)

def Everywhere (P : Value → Prop) (v : Value) : Prop := ∀ π u, at? π v = some u → P u

/-- The order of reading: a definition comes before all below it, and those come before its later
siblings. -/
def Before : List Nat → List Nat → Prop
  | _, [] => False
  | [], _ :: _ => True
  | j :: ρ, i :: π => j < i ∨ j = i ∧ Before ρ π

/-- A fault of the definition at `π` below the one at `base`. -/
def FaultAt (base : List Nat) (v : Value) (π : List Nat) (f : Failure) : Prop :=
  ∃ u, at? π v = some u ∧ OwnFault (base ++ π) u f

/-- A fault below the definitions in a list, the first of which has the number `i`. -/
def FaultIn (base : List Nat) (i : Nat) (vs : List Value) : List Nat → Failure → Prop
  | [], _ => False
  | j :: π, f => ∃ v, vs[j]? = some v ∧ FaultAt (base ++ [i + j]) v π f

/-- A fault at a place before which there is none. -/
structure First (P : List Nat → Failure → Prop) (π : List Nat) (f : Failure) : Prop where
  here : P π f
  least : ∀ ρ g, P ρ g → ¬ Before ρ π

/-- A run that succeeds if there is no fault, and otherwise fails with a first one. -/
inductive Decided {σ α : Type} (P : List Nat → Failure → Prop) (x : Run σ α) : Prop
  | built {a : α} : (∀ π f, ¬ P π f) → x.Gives (.ok a) → Decided P x
  | failed {π : List Nat} {f : Failure} : First P π f → x.Gives (.error f) → Decided P x

theorem everywhere_listed_iff {P : Value → Prop} {v : Value} :
    (∀ u ∈ listed v, Everywhere P u) ↔ ∀ i π u, at? (i :: π) v = some u → P u := by
  constructor
  · intro h i π w hw
    obtain ⟨u, hu, hw⟩ := Option.bind_eq_some_iff.1 hw
    exact h u (List.mem_of_getElem? hu) π w hw
  · intro h u hu π w hw
    obtain ⟨i, hi⟩ := List.getElem?_of_mem hu
    exact h i π w (by rw [at?, hi]; exact hw)

theorem everywhere_iff {P : Value → Prop} {v : Value} :
    Everywhere P v ↔ P v ∧ ∀ u ∈ listed v, Everywhere P u := by
  rw [everywhere_listed_iff]
  constructor
  · intro h
    exact ⟨h [] v rfl, fun i π => h (i :: π)⟩
  · intro h π u hu
    cases π with
    | nil =>
      cases hu
      exact h.1
    | cons i π => exact h.2 i π u hu

@[simp]
theorem not_before_nil (ρ : List Nat) : ¬ Before ρ [] := by
  cases ρ <;> exact id

theorem eq_of_not_before {π ρ : List Nat} (h : ¬ Before π ρ) (h' : ¬ Before ρ π) : π = ρ := by
  induction π generalizing ρ with
  | nil =>
    cases ρ with
    | nil => rfl
    | cons j ρ => exact absurd trivial h
  | cons i π ih =>
    cases ρ with
    | nil => exact absurd trivial h'
    | cons j ρ =>
      have hij : i = j := by
        have hle : ¬ i < j := fun hlt => h (.inl hlt)
        have hge : ¬ j < i := fun hlt => h' (.inl hlt)
        omega
      subst hij
      rw [ih (fun hπ => h (.inr ⟨rfl, hπ⟩)) (fun hρ => h' (.inr ⟨rfl, hρ⟩))]

theorem listItems_of_not_list {v : Value} (h : ∀ vs, v ≠ .list vs) : listItems v = [] := by
  cases v with
  | list vs => exact absurd rfl (h vs)
  | _ => rfl

section

variable {base : List Nat} {v : Value} {vs : List Value} {i : Nat} {f : Failure} {π : List Nat}

@[simp]
theorem faultAt_nil : FaultAt base v [] f ↔ OwnFault base v f := by
  simp [FaultAt, at?]

theorem faultAt_cons : FaultAt base v (i :: π) f ↔ FaultIn base 0 (listed v) (i :: π) f := by
  simp only [FaultAt, FaultIn, at?, Option.bind_eq_some_iff, Nat.zero_add, List.append_assoc,
    List.singleton_append]
  constructor
  · intro h
    obtain ⟨u, ⟨w, hw, hu⟩, hf⟩ := h
    exact ⟨w, hw, u, hu, hf⟩
  · intro h
    obtain ⟨w, hw, u, hu, hf⟩ := h
    exact ⟨u, ⟨w, hw, hu⟩, hf⟩

@[simp]
theorem not_faultIn_nil : ¬ FaultIn base i [] π f := by
  cases π <;> simp [FaultIn]

@[simp]
theorem faultIn_cons_zero :
    FaultIn base i (v :: vs) (0 :: π) f ↔ FaultAt (base ++ [i]) v π f := by
  simp [FaultIn]

@[simp]
theorem faultIn_cons_succ {j : Nat} :
    FaultIn base i (v :: vs) ((j + 1) :: π) f ↔ FaultIn base (i + 1) vs (j :: π) f := by
  simp [FaultIn, Nat.add_comm 1 j, Nat.add_assoc]

theorem first_of_own (h : OwnFault base v f) : First (FaultAt base v) [] f where
  here := faultAt_nil.2 h
  least ρ _ _ hlt := not_before_nil ρ hlt

theorem first_of_listed (hv : Clear v) (h : First (FaultIn base 0 (listed v)) π f) :
    First (FaultAt base v) π f := by
  cases π with
  | nil => exact absurd h.here id
  | cons i π =>
    refine ⟨faultAt_cons.2 h.here, fun ρ g hρ hlt => ?_⟩
    cases ρ with
    | nil => exact not_ownFault_of_clear hv g (faultAt_nil.1 hρ)
    | cons j ρ => exact h.least _ g (faultAt_cons.1 hρ) hlt

theorem first_of_head (h : First (FaultAt (base ++ [i]) v) π f) :
    First (FaultIn base i (v :: vs)) (0 :: π) f := by
  refine ⟨faultIn_cons_zero.2 h.here, fun ρ g hρ hlt => ?_⟩
  cases ρ with
  | nil => exact hρ
  | cons j ρ =>
    cases hlt with
    | inl hj => exact Nat.not_lt_zero j hj
    | inr hj =>
      obtain ⟨rfl, htail⟩ := hj
      exact h.least ρ g (faultIn_cons_zero.1 hρ) htail

theorem first_of_tail (hv : ∀ ρ g, ¬ FaultAt (base ++ [i]) v ρ g) {j : Nat}
    (h : First (FaultIn base (i + 1) vs) (j :: π) f) :
    First (FaultIn base i (v :: vs)) ((j + 1) :: π) f := by
  refine ⟨faultIn_cons_succ.2 h.here, fun ρ g hρ hlt => ?_⟩
  match ρ, hρ, hlt with
  | [], hρ, _ => exact hρ
  | 0 :: ρ, hρ, _ => exact hv ρ g (faultIn_cons_zero.1 hρ)
  | (k + 1) :: ρ, hρ, hlt =>
    refine h.least (k :: ρ) g (faultIn_cons_succ.1 hρ) ?_
    cases hlt with
    | inl hk => exact .inl (Nat.lt_of_succ_lt_succ hk)
    | inr hk => exact .inr ⟨Nat.succ.inj hk.1, hk.2⟩

section

variable {σ α β : Type} {x : Run σ α} {y : Run σ β}

theorem Decided.above (hv : Clear v) (h : Decided (FaultIn base 0 (listed v)) x)
    (hok : ∀ a, x.Gives (.ok a) → ∃ b, y.Gives (.ok b))
    (herror : ∀ f, x.Gives (.error f) → y.Gives (.error f)) : Decided (FaultAt base v) y := by
  cases h with
  | @built a hnone hx =>
    obtain ⟨b, hy⟩ := hok a hx
    refine .built (fun π g hg => ?_) hy
    cases π with
    | nil => exact not_ownFault_of_clear hv g (faultAt_nil.1 hg)
    | cons i π => exact hnone _ g (faultAt_cons.1 hg)
  | failed hfirst hx => exact .failed (first_of_listed hv hfirst) (herror _ hx)

end

end

end BlockTree.Definition

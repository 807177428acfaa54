import BlockTree.Tree

/-! Places in a tree of blocks, as numbers of children on the way down. The blocks in pre-order,
paired with their places, are all that places lead to. -/
namespace BlockTree.Block

def at? : List Nat → Block → Option Block
  | [], b => some b
  | i :: π, .node _ bs => bs[i]?.bind (at? π)

@[simp]
theorem at?_append {π ρ : List Nat} {b : Block} :
    b.at? (π ++ ρ) = (b.at? π).bind (at? ρ) := by
  induction π generalizing b with
  | nil => rfl
  | cons i π ih =>
    obtain ⟨f, bs⟩ := b
    cases h : bs[i]? with
    | none => simp [at?, h]
    | some c => simpa [at?, h] using ih

mutual
/-- The block at the place `base` and all below it, in pre-order. -/
def placed (base : List Nat) : Block → List (List Nat × Block)
  | .node f bs => (base, .node f bs) :: placedAll base 0 bs

/-- Children of the block at `base`, from the one with the number `i` on, with all below them. -/
def placedAll (base : List Nat) (i : Nat) : List Block → List (List Nat × Block)
  | [] => []
  | b :: bs => b.placed (base ++ [i]) ++ placedAll base (i + 1) bs
end

mutual
@[simp]
theorem map_snd_placed (base : List Nat) : ∀ b : Block, (b.placed base).map (·.2) = b.preorder
  | .node f bs => by simp [placed, preorder, map_snd_placedAll base 0 bs]

@[simp]
theorem map_snd_placedAll (base : List Nat) (i : Nat) :
    ∀ bs : List Block, (placedAll base i bs).map (·.2) = preorderAll bs
  | [] => rfl
  | b :: bs => by
    simp [placedAll, preorderAll, map_snd_placed (base ++ [i]) b,
      map_snd_placedAll base (i + 1) bs]
end

variable {base π : List Nat} {c c' : Block} {i : Nat}

mutual
theorem mem_placed_iff {base π : List Nat} {c : Block} :
    ∀ b : Block, (π, c) ∈ b.placed base ↔ ∃ ρ, π = base ++ ρ ∧ b.at? ρ = some c
  | .node f bs => by
    rw [placed, List.mem_cons, mem_placedAll_iff bs]
    constructor
    · rintro (h | ⟨j, ρ, rfl, hc⟩)
      · cases h
        exact ⟨[], (List.append_nil base).symm, rfl⟩
      · exact ⟨j :: ρ, by rw [Nat.zero_add], hc⟩
    · rintro ⟨ρ, rfl, hc⟩
      cases ρ with
      | nil =>
        cases hc
        exact .inl (by rw [List.append_nil])
      | cons j ρ => exact .inr ⟨j, ρ, by rw [Nat.zero_add], hc⟩

theorem mem_placedAll_iff {base π : List Nat} {c : Block} {i : Nat} : ∀ bs : List Block,
    (π, c) ∈ placedAll base i bs ↔
      ∃ j ρ, π = base ++ (i + j) :: ρ ∧ bs[j]?.bind (at? ρ) = some c
  | [] => by simp [placedAll]
  | b :: bs => by
    rw [placedAll, List.mem_append, mem_placed_iff b, mem_placedAll_iff bs]
    constructor
    · rintro (⟨ρ, rfl, hc⟩ | ⟨j, ρ, rfl, hc⟩)
      · exact ⟨0, ρ, by simp, hc⟩
      · exact ⟨j + 1, ρ, by rw [Nat.add_right_comm, Nat.add_assoc], hc⟩
    · rintro ⟨j, ρ, rfl, hc⟩
      cases j with
      | zero => exact .inl ⟨ρ, by simp, hc⟩
      | succ j => exact .inr ⟨j, ρ, by rw [Nat.add_right_comm, Nat.add_assoc], hc⟩
end

theorem eq_of_mem_placedAll {bs : List Block} (h : (π, c) ∈ placedAll base i bs)
    (h' : (π, c') ∈ placedAll base i bs) : c = c' := by
  obtain ⟨j, ρ, hπ, hc⟩ := (mem_placedAll_iff bs).1 h
  obtain ⟨k, σ, hπ', hc'⟩ := (mem_placedAll_iff bs).1 h'
  have heq : (i + j) :: ρ = (i + k) :: σ := List.append_cancel_left (hπ.symm.trans hπ')
  have hjk : j = k := Nat.add_left_cancel (List.cons.inj heq).1
  have hρσ : ρ = σ := (List.cons.inj heq).2
  subst hjk hρσ
  exact Option.some.inj (hc.symm.trans hc')

end BlockTree.Block

namespace BlockTree.Document

def at? (d : Document) : List Nat → Option Block
  | [] => none
  | i :: π => d.blocks[i]?.bind (Block.at? π)

theorem mem_placedAll_iff {d : Document} {π : List Nat} {b : Block} :
    (π, b) ∈ Block.placedAll [] 0 d.blocks ↔ d.at? π = some b := by
  rw [Block.mem_placedAll_iff]
  constructor
  · rintro ⟨i, ρ, rfl, hb⟩
    simpa [at?] using hb
  · intro hb
    cases π with
    | nil => cases hb
    | cons i π => exact ⟨i, π, by simp, hb⟩

theorem at?_append {d : Document} {π ρ : List Nat} {b : Block} (h : d.at? π = some b) :
    d.at? (π ++ ρ) = b.at? ρ := by
  cases π with
  | nil => cases h
  | cons i π =>
    obtain ⟨c, hc, hb⟩ := Option.bind_eq_some_iff.1 h
    simp [at?, hc, hb]

end BlockTree.Document

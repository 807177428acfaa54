import BlockTree.Proofs.Rendering.Calls
import BlockTree.Proofs.Tree.Place

/-! Which blocks rendering visits, with their places. A block inside one that is not compound but
has children is never visited, and these are all that are left out. -/
namespace BlockTree.Block

mutual
/-- The block at the place `base` and all below it that only compound blocks lead to. -/
def visited (base : List Nat) : Block → List (List Nat × Block)
  | .node f bs =>
    (base, .node f bs) :: if f.model = .compound then visitedAll base 0 bs else []

def visitedAll (base : List Nat) (i : Nat) : List Block → List (List Nat × Block)
  | [] => []
  | b :: bs => b.visited (base ++ [i]) ++ visitedAll base (i + 1) bs
end

mutual
@[simp]
theorem map_snd_visited (base : List Nat) : ∀ b : Block, (b.visited base).map (·.2) = b.reached
  | .node f bs => by
    by_cases h : f.model = .compound <;> simp [visited, reached, h, map_snd_visitedAll base 0 bs]

@[simp]
theorem map_snd_visitedAll (base : List Nat) (i : Nat) :
    ∀ bs : List Block, (visitedAll base i bs).map (·.2) = reachedAll bs
  | [] => rfl
  | b :: bs => by
    simp [visitedAll, reachedAll, map_snd_visited (base ++ [i]) b,
      map_snd_visitedAll base (i + 1) bs]
end

mutual
theorem visited_sublist (base : List Nat) : ∀ b : Block, (b.visited base).Sublist (b.placed base)
  | .node f bs => by
    rw [visited, placed]
    apply List.Sublist.cons_cons
    split
    · exact visitedAll_sublist base 0 bs
    · exact List.nil_sublist _

theorem visitedAll_sublist (base : List Nat) (i : Nat) :
    ∀ bs : List Block, (visitedAll base i bs).Sublist (placedAll base i bs)
  | [] => List.Sublist.slnil
  | b :: bs => (visited_sublist (base ++ [i]) b).append (visitedAll_sublist base (i + 1) bs)
end

/-- The block is not compound but has children. -/
def Hides (b : Block) : Prop := b.fields.model ≠ .compound ∧ b.children ≠ []

instance : DecidablePred Hides := fun b =>
  inferInstanceAs (Decidable (b.fields.model ≠ .compound ∧ b.children ≠ []))

/-- Nothing that leads to a place is among the given places, the place itself apart. -/
def Open (closed : List (List Nat)) (π : List Nat) : Prop := ∀ ρ ∈ closed, ρ <+: π → ρ = π

instance (closed : List (List Nat)) : DecidablePred (Open closed) := fun π =>
  inferInstanceAs (Decidable (∀ ρ ∈ closed, ρ <+: π → ρ = π))

variable {closed : List (List Nat)} {base : List Nat}

theorem Open.snoc (h : Open closed base) (hbase : base ∉ closed) (i : Nat) :
    Open closed (base ++ [i]) := by
  intro ρ hρ hprefix
  obtain heq | hlt := List.prefix_concat_iff.1 hprefix
  · exact heq
  · have hρbase : ρ = base := h ρ hρ hlt
    exact absurd (hρbase ▸ hρ) hbase

theorem filter_placedAll_eq_nil (hbase : base ∈ closed) (i : Nat) (bs : List Block) :
    (placedAll base i bs).filter (fun x => Open closed x.1) = [] := by
  rw [List.filter_eq_nil_iff]
  intro x hx hopen
  obtain ⟨j, ρ, hπ, -⟩ := (mem_placedAll_iff bs).1 (show (x.1, x.2) ∈ _ from hx)
  have heq : base = x.1 := of_decide_eq_true hopen base hbase ⟨_, hπ.symm⟩
  rw [hπ] at heq
  exact absurd (List.self_eq_append_right.1 heq) (List.cons_ne_nil _ _)

mutual
theorem filter_placed {base : List Nat} (h : Open closed base) : ∀ b : Block,
    (∀ x ∈ b.placed base, x.1 ∈ closed ↔ x.2.Hides) →
      (b.placed base).filter (fun x => Open closed x.1) = b.visited base
  | .node f bs, hiff => by
    rw [placed, List.forall_mem_cons] at hiff
    rw [placed, visited, List.filter_cons_of_pos (by simpa using h)]
    congr 1
    split
    next hf =>
      have hbase : base ∉ closed := fun hb => (hiff.1.1 hb).1 hf
      exact filter_placedAll (h.snoc hbase) 0 bs hiff.2
    next hf =>
      cases bs with
      | nil => rfl
      | cons b bs =>
        exact filter_placedAll_eq_nil (hiff.1.2 ⟨hf, List.cons_ne_nil b bs⟩) 0 (b :: bs)

theorem filter_placedAll {base : List Nat} (h : ∀ i, Open closed (base ++ [i])) (i : Nat) :
    ∀ bs : List Block, (∀ x ∈ placedAll base i bs, x.1 ∈ closed ↔ x.2.Hides) →
      (placedAll base i bs).filter (fun x => Open closed x.1) = visitedAll base i bs
  | [], _ => rfl
  | b :: bs, hiff => by
    rw [placedAll, List.forall_mem_append] at hiff
    rw [placedAll, List.filter_append, filter_placed (h i) b hiff.1,
      filter_placedAll h (i + 1) bs hiff.2, visitedAll]
end

end BlockTree.Block

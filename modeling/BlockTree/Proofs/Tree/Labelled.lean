import BlockTree.Proofs.Tree.Place
import BlockTree.Proofs.Tree.Rose

/-! Trees from depths. The labels of a forest in pre-order, each with its depth, tell the forest. -/
namespace BlockTree

namespace Rose

variable {α : Type} {n : Nat} {l l' : List (Nat × α)}

/-- A list that goes on above the depth `n`, if it goes on at all. -/
def Above (n : Nat) (l : List (Nat × α)) : Prop := ∀ x ∈ l.head?, x.1 < n

theorem above_nil (n : Nat) : Above n ([] : List (Nat × α)) := nofun

theorem Above.mono {m : Nat} (h : Above n l) (hm : n ≤ m) : Above m l :=
  fun x hx => Nat.lt_of_lt_of_le (h x hx) hm

theorem not_above_levels (t : Rose α) : ¬ Above n (t.levels n ++ l) := by
  obtain ⟨a, ts⟩ := t
  exact fun h => Nat.lt_irrefl n (h (n, a) rfl)

theorem above_levelsAll_append (ts : List (Rose α)) (h : Above n l) :
    Above (n + 1) (levelsAll n ts ++ l) := by
  cases ts with
  | nil => exact h.mono (Nat.le_succ n)
  | cons t ts =>
    obtain ⟨a, us⟩ := t
    rintro x hx
    cases hx
    exact Nat.lt_succ_self n

mutual
theorem levels_append_inj {n : Nat} {l l' : List (Nat × α)} (hl : Above (n + 1) l)
    (hl' : Above (n + 1) l') :
    ∀ t u : Rose α, t.levels n ++ l = u.levels n ++ l' → t = u ∧ l = l'
  | .node a ts, .node b us => by
    intro h
    obtain ⟨hhead, htail⟩ := List.cons.inj h
    obtain ⟨rfl, rfl⟩ := levelsAll_append_inj hl hl' ts us htail
    cases hhead
    exact ⟨rfl, rfl⟩

/-- A forest ends where the depth goes above it, and not before. -/
theorem levelsAll_append_inj {n : Nat} {l l' : List (Nat × α)} (hl : Above n l)
    (hl' : Above n l') :
    ∀ ts us : List (Rose α), levelsAll n ts ++ l = levelsAll n us ++ l' → ts = us ∧ l = l'
  | [], [] => fun h => ⟨rfl, h⟩
  | [], u :: us => by
    intro h
    rw [levelsAll, levelsAll, List.append_assoc, List.nil_append] at h
    exact absurd (h ▸ hl) (not_above_levels u)
  | t :: ts, [] => by
    intro h
    rw [levelsAll, levelsAll, List.append_assoc, List.nil_append] at h
    exact absurd (h ▸ hl') (not_above_levels t)
  | t :: ts, u :: us => by
    intro h
    rw [levelsAll, levelsAll, List.append_assoc, List.append_assoc] at h
    -- the first tree ends before the next one of the forest, or with the forest
    obtain ⟨rfl, hrest⟩ := levels_append_inj (above_levelsAll_append ts hl)
      (above_levelsAll_append us hl') t u h
    obtain ⟨rfl, rfl⟩ := levelsAll_append_inj hl hl' ts us hrest
    exact ⟨rfl, rfl⟩
end

theorem levelsAll_inj {ts us : List (Rose α)} (h : levelsAll n ts = levelsAll n us) : ts = us :=
  (levelsAll_append_inj (above_nil n) (above_nil n) ts us (by rw [h])).1

end Rose

namespace Block

variable {α : Type}

mutual
def labelled (f : Block → α) : Block → Rose α
  | .node g bs => .node (f (.node g bs)) (labelledAll f bs)

def labelledAll (f : Block → α) : List Block → List (Rose α)
  | [] => []
  | b :: bs => b.labelled f :: labelledAll f bs
end

/-- How many blocks are where in a forest, and nothing else about them. -/
def shapes : List Block → List (Rose Unit) := labelledAll fun _ => ()

/-- A block with its depth, which is none at top level, in place of its place. -/
def leveled (f : Block → α) (x : List Nat × Block) : Nat × α := (x.1.length - 1, f x.2)

mutual
theorem levels_labelled (f : Block → α) {n : Nat} {base : List Nat} (h : base.length = n + 1) :
    ∀ b : Block, (b.labelled f).levels n = (b.placed base).map (leveled f)
  | .node g bs => by
    have hdepth : base.length - 1 = n := by rw [h, Nat.add_sub_cancel]
    rw [labelled, Rose.levels, placed, List.map_cons, levelsAll_labelledAll f h 0 bs, leveled,
      hdepth]

theorem levelsAll_labelledAll (f : Block → α) {n : Nat} {base : List Nat} (h : base.length = n)
    (i : Nat) : ∀ bs : List Block,
      Rose.levelsAll n (labelledAll f bs) = (placedAll base i bs).map (leveled f)
  | [] => rfl
  | b :: bs => by
    have hplace : (base ++ [i]).length = n + 1 := by
      rw [List.length_append, h, List.length_singleton]
    rw [labelledAll, Rose.levelsAll, placedAll, List.map_append, levels_labelled f hplace b,
      levelsAll_labelledAll f h (i + 1) bs]
end

/-- The depths of the blocks in pre-order tell the forest, together with what is shown of each. -/
theorem labelledAll_eq_of_leveled {f : Block → α} {bs cs : List Block}
    (h : (placedAll [] 0 bs).map (leveled f) = (placedAll [] 0 cs).map (leveled f)) :
    labelledAll f bs = labelledAll f cs := by
  rw [← levelsAll_labelledAll f rfl, ← levelsAll_labelledAll f rfl] at h
  exact Rose.levelsAll_inj h

end Block

end BlockTree

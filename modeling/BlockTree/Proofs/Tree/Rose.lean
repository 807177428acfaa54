import Mathlib.Control.Basic

/-! Finite trees with a label at every node, and how they are walked in pre-order. -/
namespace BlockTree

inductive Rose (α : Type)
  | node (a : α) (children : List (Rose α))

namespace Rose

variable {α β : Type} {m : Type → Type}

def root : Rose α → α
  | .node a _ => a

mutual
def toList : Rose α → List α
  | .node a ts => a :: toLists ts

def toLists : List (Rose α) → List α
  | [] => []
  | t :: ts => t.toList ++ toLists ts
end

mutual
def levels (depth : Nat) : Rose α → List (Nat × α)
  | .node a ts => (depth, a) :: levelsAll (depth + 1) ts

def levelsAll (depth : Nat) : List (Rose α) → List (Nat × α)
  | [] => []
  | t :: ts => t.levels depth ++ levelsAll depth ts
end

mutual
/-- New labels, made one after the other in pre-order. -/
def mapM [Monad m] (f : α → m β) : Rose α → m (Rose β)
  | .node a ts => do
    let b ← f a
    let us ← mapAllM f ts
    return .node b us

def mapAllM [Monad m] (f : α → m β) : List (Rose α) → m (List (Rose β))
  | [] => pure []
  | t :: ts => do
    let u ← t.mapM f
    let us ← mapAllM f ts
    return u :: us
end

mutual
def fold : Rose (List β → β) → β
  | .node f ts => f (foldAll ts)

def foldAll : List (Rose (List β → β)) → List β
  | [] => []
  | t :: ts => t.fold :: foldAll ts
end

theorem length_toList_pos : (t : Rose α) → 0 < t.toList.length
  | .node _ _ => Nat.succ_pos _

theorem toLists_eq_flatMap (ts : List (Rose α)) : toLists ts = ts.flatMap toList := by
  induction ts with
  | nil => rfl
  | cons t ts ih => rw [toLists, List.flatMap_cons, ih]

mutual
@[simp]
theorem map_snd_levels (depth : Nat) : (t : Rose α) → (t.levels depth).map Prod.snd = t.toList
  | .node a ts => by simp [levels, toList, map_snd_levelsAll]

@[simp]
theorem map_snd_levelsAll (depth : Nat) :
    (ts : List (Rose α)) → (levelsAll depth ts).map Prod.snd = toLists ts
  | [] => rfl
  | t :: ts => by
    simp [levelsAll, toLists, map_snd_levels depth t, map_snd_levelsAll depth ts]
end

mutual
theorem toList_mapM [Monad m] [LawfulMonad m] (f : α → m β) :
    (t : Rose α) → toList <$> t.mapM f = t.toList.mapM f
  | .node a ts => by
    rw [toList, List.mapM_cons, ← toLists_mapAllM f ts, mapM]
    simp [toList]

theorem toLists_mapAllM [Monad m] [LawfulMonad m] (f : α → m β) :
    (ts : List (Rose α)) → toLists <$> mapAllM f ts = (toLists ts).mapM f
  | [] => by simp [mapAllM, toLists]
  | t :: ts => by
    rw [toLists, List.mapM_append, ← toList_mapM f t, ← toLists_mapAllM f ts, mapAllM]
    simp [toLists]
end

end Rose

end BlockTree

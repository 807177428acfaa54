import BlockTree.Tree
import BlockTree.Workspace.Growth

/-! What grows by steps, apart from any workspace: a list of branches, each with the numbers of
those on it. The branches at and below a number make a tree of blocks. -/
namespace BlockTree

/-- A block with what it is made from, and the blocks that are appended to it. -/
structure Branch where
  parent : Option Nat
  seed : Seed
  children : List Nat

namespace Growth

def seed? : Growth → Option Seed
  | .make _ s => some s
  | .append _ => none

def Known (made : Nat) : Growth → Prop
  | .make parent _ => ∀ k ∈ parent, k < made
  | .append k => k < made

def Ordered : Nat → List Growth → Prop
  | _, [] => True
  | made, g :: gs => g.Known made ∧ Ordered (made + g.seed?.toList.length) gs

def on (bs : List Branch) : Growth → List Branch
  | .make parent s => bs ++ [⟨parent, s, []⟩]
  | .append k => match bs[k]?.bind Branch.parent with
    | some p => bs.modify p fun b => { b with children := b.children ++ [k] }
    | none => bs

def branches (gs : List Growth) : List Branch := gs.foldl on []

@[simp]
theorem length_on (bs : List Branch) (g : Growth) :
    (g.on bs).length = bs.length + g.seed?.toList.length := by
  cases g with
  | make parent s => simp [on, seed?]
  | append k =>
    rw [on]
    split
    · simp [seed?]
    · rfl

/-- Where a branch comes from: it is new, or what is left of an old one has grown by one child. -/
theorem on_cases {bs : List Branch} {g : Growth} {j : Nat} {b : Branch}
    (h : (g.on bs)[j]? = some b) :
    (∃ parent s, g = .make parent s ∧ j = bs.length ∧ b = ⟨parent, s, []⟩) ∨ bs[j]? = some b ∨
      ∃ k c, g = .append k ∧ bs[k]?.bind Branch.parent = some j ∧ bs[j]? = some c ∧
        b = { c with children := c.children ++ [k] } := by
  cases g with
  | make parent s =>
    rw [on, List.getElem?_append] at h
    split at h
    · exact .inr (.inl h)
    · obtain ⟨hj, rfl⟩ := List.getElem?_eq_some_iff.1 h
      rw [List.length_singleton] at hj
      exact .inl ⟨parent, s, rfl, by omega, List.getElem_singleton _⟩
  | append k =>
    rw [on] at h
    split at h
    next p hp =>
      rw [List.getElem?_modify] at h
      obtain ⟨c, hc, rfl⟩ := Option.map_eq_some_iff.1 h
      by_cases hpj : p = j
      · subst hpj
        rw [if_pos rfl]
        exact .inr (.inr ⟨k, c, rfl, hp, hc, rfl⟩)
      · rw [if_neg hpj]
        exact .inr (.inl hc)
    · exact .inr (.inl h)

end Growth

structure Branched (bs : List Branch) : Prop where
  parent_lt : ∀ {k : Nat} {b : Branch}, bs[k]? = some b → ∀ p ∈ b.parent, p < k
  lt_child : ∀ {k : Nat} {b : Branch}, bs[k]? = some b → ∀ c ∈ b.children, k < c ∧ c < bs.length

namespace Branched

variable {bs : List Branch} {g : Growth}

theorem nil : Branched [] := ⟨nofun, nofun⟩

theorem on (h : Branched bs) (hg : g.Known bs.length) : Branched (g.on bs) := by
  have hlength : bs.length ≤ (g.on bs).length := by
    rw [g.length_on]
    exact Nat.le_add_right _ _
  constructor
  · intro j b hj p hp
    obtain ⟨parent, s, rfl, rfl, rfl⟩ | hold | ⟨k, c, -, -, hc, rfl⟩ := Growth.on_cases hj
    · exact hg p hp
    · exact h.parent_lt hold p hp
    · exact h.parent_lt hc p hp
  · intro j b hj i hi
    obtain ⟨parent, s, -, -, rfl⟩ | hold | ⟨k, c, rfl, hk, hc, rfl⟩ := Growth.on_cases hj
    · cases hi
    · have hlt := h.lt_child hold i hi
      exact ⟨hlt.1, by omega⟩
    · obtain ⟨b, hb, hparent⟩ := Option.bind_eq_some_iff.1 hk
      obtain hi | hi := List.mem_append.1 hi
      · have hlt := h.lt_child hc i hi
        exact ⟨hlt.1, by omega⟩
      · obtain rfl := List.mem_singleton.1 hi
        exact ⟨h.parent_lt hb j hparent, Nat.lt_of_lt_of_le hg hlength⟩

end Branched

theorem branched_foldl {gs : List Growth} {bs : List Branch} (h : Branched bs)
    (hgs : Growth.Ordered bs.length gs) : Branched (gs.foldl Growth.on bs) := by
  induction gs generalizing bs with
  | nil => exact h
  | cons g gs ih =>
    rw [Growth.Ordered, ← Growth.length_on] at hgs
    exact ih (h.on hgs.1) hgs.2

theorem length_foldl_on (gs : List Growth) (bs : List Branch) :
    (gs.foldl Growth.on bs).length = bs.length + (gs.filterMap Growth.seed?).length := by
  induction gs generalizing bs with
  | nil => rfl
  | cons g gs ih =>
    rw [List.foldl_cons, ih, Growth.length_on, List.filterMap_cons]
    cases g with
    | make parent s => exact Nat.add_right_comm ..
    | append k => rfl

theorem mem_foldl_on {gs : List Growth} {bs : List Branch} {b : Branch}
    (h : b ∈ gs.foldl Growth.on bs) : (∃ c ∈ bs, b.seed = c.seed) ∨ ∃ g ∈ gs, b.seed ∈ g.seed? := by
  induction gs generalizing bs with
  | nil => exact .inl ⟨b, h, rfl⟩
  | cons g gs ih =>
    obtain ⟨c, hc, hseed⟩ | ⟨g', hg', hs⟩ := ih h
    · obtain ⟨j, hj⟩ := List.mem_iff_getElem?.1 hc
      obtain ⟨parent, s, rfl, -, rfl⟩ | hold | ⟨k, d, -, -, hd, rfl⟩ := Growth.on_cases hj
      · exact .inr ⟨_, List.mem_cons_self, congrArg some hseed.symm⟩
      · exact .inl ⟨c, List.mem_of_getElem? hold, hseed⟩
      · exact .inl ⟨d, List.mem_of_getElem? hd, hseed⟩
    · exact .inr ⟨g', List.mem_cons_of_mem g hg', hs⟩

@[simp]
theorem Block.mem_preorderAll_iff {b : Block} {bs : List Block} :
    b ∈ preorderAll bs ↔ ∃ c ∈ bs, b ∈ c.preorder := by
  induction bs with
  | nil => simp [preorderAll]
  | cons c bs ih => simp [preorderAll, ih]

namespace Branch

/-- What a block holds that is made from a seed. Attributes play no part in rendering. -/
def fields (b : Branch) : Fields :=
  ⟨b.seed.context, b.seed.model, none, none, none, [], b.seed.subs, b.seed.lines⟩

/-- The block of the branch with the number `k`, with the blocks below it, whose numbers are
greater. -/
def tree (bs : List Branch) (k : Nat) : Block :=
  match _ : bs[k]? with
  | none => default
  | some b => .node b.fields ((b.children.filter (k < ·)).attach.map fun c => tree bs c.1)
termination_by bs.length - k
decreasing_by
  have hk : k < bs.length := (List.getElem?_eq_some_iff.1 ‹_›).1
  have hc : k < c.1 := of_decide_eq_true (List.mem_filter.1 c.2).2
  omega

theorem tree_eq {bs : List Branch} (h : Branched bs) {k : Nat} {b : Branch} (hb : bs[k]? = some b) :
    tree bs k = .node b.fields (b.children.map (tree bs)) := by
  have hgreater : b.children.filter (k < ·) = b.children :=
    List.filter_eq_self.2 fun c hc => decide_eq_true (h.lt_child hb c hc).1
  rw [tree]
  split
  next hnone => rw [hb] at hnone; cases hnone
  next c hc =>
    obtain rfl : b = c := Option.some.inj (hb.symm.trans hc)
    rw [List.attach_map_val, hgreater]

/-- From the greatest number down: what holds of a branch if it holds of those on it holds of all.
-/
theorem induction_down {bs : List Branch} (h : Branched bs) {P : Nat → Branch → Prop}
    (hstep : ∀ k b, bs[k]? = some b → (∀ c ∈ b.children, ∃ d, bs[c]? = some d ∧ P c d) → P k b) :
    ∀ k b, bs[k]? = some b → P k b := by
  intro k
  induction hn : bs.length - k using Nat.strongRecOn generalizing k with
  | ind n ih =>
    intro b hb
    refine hstep k b hb fun c hc => ?_
    obtain ⟨hkc, hc⟩ := h.lt_child hb c hc
    have hd := List.getElem?_eq_getElem hc
    exact ⟨bs[c], hd, ih (bs.length - c) (by omega) c rfl _ hd⟩

theorem fields_of_mem_tree {bs : List Branch} (h : Branched bs) : ∀ k b, bs[k]? = some b →
    ∀ c ∈ (tree bs k).preorder, ∃ d ∈ bs, c.fields = d.fields := by
  refine induction_down h fun k b hb ih c hc => ?_
  simp only [tree_eq h hb, Block.preorder, List.mem_cons, Block.mem_preorderAll_iff] at hc
  obtain rfl | ⟨t, ht, hc⟩ := hc
  · exact ⟨b, List.mem_of_getElem? hb, rfl⟩
  · obtain ⟨j, hj, rfl⟩ := List.mem_map.1 ht
    obtain ⟨d, -, hd⟩ := ih j hj
    exact hd c hc

end Branch

end BlockTree

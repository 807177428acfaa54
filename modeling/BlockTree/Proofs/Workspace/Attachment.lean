import BlockTree.Proofs.Workspace.Frame

/-! What the attachments of a run do to the documents of nodes. An attachment gives a document to
the child alone, so what is already below the child keeps the one it has. -/
namespace BlockTree

open Link (childrenAt documentAt rootAt Below attach)

/-- An append: the links before it, and the nodes that it links. -/
structure Attachment where
  before : List Link
  parent : NodeId
  child : NodeId

namespace Attachment

/-- The child already has children of its own, and is given another document than it had. -/
def Relinks (a : Attachment) : Prop :=
  childrenAt a.before a.child ≠ [] ∧ documentAt a.before a.parent ≠ documentAt a.before a.child

/-- Nothing is attached twice, and no document is attached. -/
structure Orderly (as : List Attachment) : Prop where
  once : (as.map (·.child)).Nodup
  rootless : ∀ a ∈ as, rootAt a.before a.child = none

theorem Orderly.unattached {as : List Attachment} {a : Attachment} (h : Orderly (as ++ [a])) :
    a.child ∉ as.map (·.child) := by
  have hnd := h.once
  rw [List.map_append, List.nodup_append] at hnd
  intro hmem
  exact hnd.2.2 a.child hmem a.child (List.mem_singleton_self _) rfl

theorem Orderly.of_append {as bs : List Attachment} (h : Orderly (as ++ bs)) : Orderly as where
  once := by
    have hnd := h.once
    rw [List.map_append] at hnd
    exact hnd.sublist (List.sublist_append_left ..)
  rootless a ha := h.rootless a (List.mem_append_left _ ha)

/-- How the links stand after attachments: what has a parent was attached, a child has the document
of its parent unless that parent was relinked, and a relinked node has a child with another
document. -/
structure Accounts (as : List Attachment) (ls : List Link) : Prop where
  known : ∀ n, ∀ c ∈ childrenAt ls n, c < ls.length
  attached : ∀ n, ∀ c ∈ childrenAt ls n, c ∈ as.map (·.child)
  edge : ∀ n, ∀ c ∈ childrenAt ls n,
    documentAt ls c = documentAt ls n ∨ ∃ a ∈ as, a.child = n ∧ a.Relinks
  stale : ∀ a ∈ as, a.Relinks →
    ∃ c ∈ childrenAt ls a.child, documentAt ls c ≠ documentAt ls a.child
  own : ∀ d, (rootAt ls d).isSome → documentAt ls d = some d

namespace Accounts

variable {as : List Attachment} {ls : List Link}

theorem start : Accounts [] [] where
  known _ _ h := absurd h List.not_mem_nil
  attached _ _ h := absurd h List.not_mem_nil
  edge _ _ h := absurd h List.not_mem_nil
  stale _ h := absurd h List.not_mem_nil
  own _ h := absurd h Bool.false_ne_true

theorem create (h : Accounts as ls) {l : Link} (hl : Link.Fresh ls l) :
    Accounts as (ls ++ [l]) := by
  have hch (n : NodeId) : childrenAt (ls ++ [l]) n = childrenAt ls n := Link.childrenAt_create hl
  have hdoc {n c : NodeId} (hc : c ∈ childrenAt ls n) :
      documentAt (ls ++ [l]) c = documentAt ls c ∧ documentAt (ls ++ [l]) n = documentAt ls n :=
    ⟨Link.documentAt_create l (h.known n c hc),
      Link.documentAt_create l (Link.lt_of_mem_childrenAt hc)⟩
  refine ⟨?known, ?attached, ?edge, ?stale, ?own⟩
  case known =>
    intro n c hc
    rw [hch] at hc
    rw [List.length_append]
    exact Nat.lt_succ_of_lt (h.known n c hc)
  case attached =>
    intro n c hc
    rw [hch] at hc
    exact h.attached n c hc
  case edge =>
    intro n c hc
    rw [hch] at hc
    rw [(hdoc hc).1, (hdoc hc).2]
    exact h.edge n c hc
  case stale =>
    intro a ha hr
    obtain ⟨c, hc, hne⟩ := h.stale a ha hr
    refine ⟨c, by rwa [hch], ?_⟩
    rwa [(hdoc hc).1, (hdoc hc).2]
  case own =>
    intro d hd
    obtain hlt | rfl | hlt := Nat.lt_trichotomy d ls.length
    · rw [Link.documentAt_create l hlt]
      apply h.own d
      rwa [rootAt, List.getElem?_append_left hlt] at hd
    · cases hl with
      | document root => simp [documentAt]
      | node parent => simp [rootAt] at hd
    · rw [rootAt, List.getElem?_eq_none (by simpa using Nat.succ_le_of_lt hlt)] at hd
      exact absurd hd Bool.false_ne_true

/-- Below a node that was never attached, everything still has the document of that node. -/
theorem document_eq_of_unattached (h : Accounts as ls) {n c : NodeId}
    (hn : n ∉ as.map (·.child)) (hc : c ∈ childrenAt ls n) :
    documentAt ls c = documentAt ls n := by
  cases h.edge n c hc with
  | inl heq => exact heq
  | inr hr =>
    obtain ⟨a, ha, han, -⟩ := hr
    exact absurd (List.mem_map.2 ⟨a, ha, han⟩) hn

theorem ne_of_unattached (h : Accounts as ls) {m n c : NodeId}
    (hn : n ∉ as.map (·.child)) (hc : c ∈ childrenAt ls m) : c ≠ n := by
  intro heq
  subst heq
  exact hn (h.attached m c hc)

theorem attach {a : Attachment} (h : Accounts as a.before) (hp : a.parent < a.before.length)
    (hc : a.child < a.before.length) (horderly : Orderly (as ++ [a])) :
    Accounts (as ++ [a]) (attach a.parent a.child a.before) := by
  obtain ⟨ls, p, c⟩ := a
  dsimp only at h hp hc ⊢
  have hnew : c ∉ as.map (·.child) := horderly.unattached
  have hmem (x : NodeId) (n : NodeId) : x ∈ childrenAt (Link.attach p c ls) n ↔
      x ∈ childrenAt ls n ∨ n = p ∧ x = c := Link.mem_childrenAt_attach hp
  have hne {n x : NodeId} (hx : x ∈ childrenAt ls n) : x ≠ c := h.ne_of_unattached hnew hx
  have hkeep {x : NodeId} (hx : x ≠ c) : documentAt (Link.attach p c ls) x = documentAt ls x :=
    Link.documentAt_attach_of_ne hx
  have hself : documentAt (Link.attach p c ls) c = documentAt ls p :=
    Link.documentAt_attach_self hc
  have hold {x : NodeId} (hx : x ∈ childrenAt ls c) : documentAt ls x = documentAt ls c :=
    h.document_eq_of_unattached hnew hx
  refine ⟨?known, ?attached, ?edge, ?stale, ?own⟩
  case known =>
    intro n x hx
    simp only [Link.length_attach]
    cases (hmem x n).1 hx with
    | inl hx => exact h.known n x hx
    | inr hnew => exact hnew.2 ▸ hc
  case attached =>
    intro n x hx
    rw [List.map_append, List.mem_append]
    cases (hmem x n).1 hx with
    | inl hx => exact .inl (h.attached n x hx)
    | inr hnew => exact .inr (List.mem_singleton.2 hnew.2)
  case edge =>
    intro n x hedge
    obtain hx | ⟨rfl, rfl⟩ := (hmem x n).1 hedge
    · rw [hkeep (hne hx)]
      -- only an edge below the child can come apart, since no other node changes its document
      by_cases hnc : n = c
      · subst hnc
        rw [hself]
        by_cases heq : documentAt ls p = documentAt ls n
        · exact .inl ((hold hx).trans heq.symm)
        · exact .inr ⟨_, List.mem_append_right as (List.mem_singleton_self _), rfl,
            List.ne_nil_of_mem hx, heq⟩
      · rw [hkeep hnc]
        cases h.edge n x hx with
        | inl heq => exact .inl heq
        | inr hr =>
          obtain ⟨b, hb, hbn, hr⟩ := hr
          exact .inr ⟨b, List.mem_append_left _ hb, hbn, hr⟩
    · left
      by_cases hnx : n = x
      · rw [hnx]
      · rw [hself, hkeep hnx]
  case stale =>
    intro b hb hr
    cases List.mem_append.1 hb with
    | inl hb =>
      obtain ⟨x, hx, hxne⟩ := h.stale b hb hr
      have hbc : b.child ≠ c := fun heq => hnew (List.mem_map.2 ⟨b, hb, heq⟩)
      refine ⟨x, (hmem x b.child).2 (.inl hx), ?_⟩
      rwa [hkeep (hne hx), hkeep hbc]
    | inr hb =>
      obtain rfl := List.mem_singleton.1 hb
      obtain ⟨hchildren, hdoc⟩ := hr
      obtain ⟨x, hx⟩ := List.exists_mem_of_ne_nil _ hchildren
      refine ⟨x, (hmem x c).2 (.inl hx), ?_⟩
      rw [hkeep (hne hx), hself, hold hx]
      exact hdoc.symm
  case own =>
    intro d hd
    rw [Link.rootAt_attach] at hd
    have hdc : d ≠ c := by
      intro hdc
      have hroot := horderly.rootless _ (List.mem_append_right as (List.mem_singleton_self _))
      rw [hdc, hroot] at hd
      exact Bool.false_ne_true hd
    rw [hkeep hdc]
    exact h.own d hd

/-- Everything below a document belongs to it unless a relinked node is below it. -/
theorem belongs_iff (h : Accounts as ls) {d : NodeId} (hd : (rootAt ls d).isSome) :
    (∀ n, Below ls d n → documentAt ls n = some d) ↔
      ∀ a ∈ as, a.Relinks → ¬ Below ls d a.child := by
  constructor
  · intro hall a ha hr hbelow
    obtain ⟨c, hc, hne⟩ := h.stale a ha hr
    apply hne
    rw [hall c (hbelow.tail hc), hall a.child hbelow]
  · intro hnone n hn
    -- on the way down the document changes only below a relinked node, and there is none
    induction hn with
    | refl => exact h.own d hd
    | @tail n c hn hc ih =>
      cases h.edge n c hc with
      | inl heq => rw [heq, ih]
      | inr hr =>
        obtain ⟨a, ha, rfl, hr⟩ := hr
        exact absurd hn (hnone a ha hr)

end Accounts

end Attachment

end BlockTree

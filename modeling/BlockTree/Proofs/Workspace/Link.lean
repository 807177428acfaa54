import Mathlib.Logic.Relation
import BlockTree.Workspace.Basic

/-! Tables of links between the nodes of a workspace: who is whose parent, which document a node
belongs to and what is below it. A table grows by new links and changes by attaching a node. -/
namespace BlockTree

/-- How a node is linked, and for a document what it renders with. -/
structure Link where
  parent : Option NodeId
  document : Option NodeId
  children : List NodeId
  root : Option (Pipe × Converter)

def Body.root : Body → Option (Pipe × Converter)
  | .document p c => some (p, c)
  | _ => none

def Node.link (b : Node) : Link := ⟨b.parent, b.document, b.children, b.body.root⟩

def Workspace.links (w : Workspace) : List Link := w.nodes.map Node.link

namespace Link

def childrenAt (ls : List Link) (n : NodeId) : List NodeId :=
  (ls[n]?.map (·.children)).getD []

def documentAt (ls : List Link) (n : NodeId) : Option NodeId := ls[n]?.bind (·.document)

def rootAt (ls : List Link) (n : NodeId) : Option (Pipe × Converter) := ls[n]?.bind (·.root)

/-- The second node is reached from the first through children. -/
def Below (ls : List Link) : NodeId → NodeId → Prop :=
  Relation.ReflTransGen fun n c => c ∈ childrenAt ls n

/-- A link as it is made: a document is its own document, any other node has that of its parent. -/
inductive Fresh (ls : List Link) : Link → Prop
  | document (root : Pipe × Converter) : Fresh ls ⟨none, some ls.length, [], some root⟩
  | node (parent : Option NodeId) : Fresh ls ⟨parent, parent.bind (documentAt ls), [], none⟩

def attach (p c : NodeId) (ls : List Link) : List Link :=
  ls.mapIdx fun i l => ⟨if i = c then some p else l.parent,
    if i = c then documentAt ls p else l.document,
    if i = p then l.children ++ [c] else l.children, l.root⟩

/-- What one step of a session does to links; the attachment that it makes is told. -/
inductive Step (ls : List Link) : Option (NodeId × NodeId) → List Link → Prop
  | keep : Step ls none ls
  | create {l : Link} : Fresh ls l → Step ls none (ls ++ [l])
  | attach {p c : NodeId} : p < ls.length → c < ls.length → Step ls (some (p, c)) (attach p c ls)

variable {ls : List Link} {l : Link} {n c p : NodeId}

theorem lt_of_mem_childrenAt (h : c ∈ childrenAt ls n) : n < ls.length := by
  cases Nat.lt_or_ge n ls.length with
  | inl hn => exact hn
  | inr hn =>
    rw [childrenAt, List.getElem?_eq_none hn] at h
    exact absurd h List.not_mem_nil

theorem Below.eq_of_childless (h : childrenAt ls n = []) (hc : Below ls n c) : c = n := by
  cases Relation.ReflTransGen.cases_head hc with
  | inl heq => exact heq.symm
  | inr hstep =>
    obtain ⟨x, hx, -⟩ := hstep
    rw [h] at hx
    exact absurd hx List.not_mem_nil

theorem childrenAt_create (h : Fresh ls l) : childrenAt (ls ++ [l]) n = childrenAt ls n := by
  have hl : l.children = [] := by cases h <;> rfl
  obtain hn | rfl | hn := Nat.lt_trichotomy n ls.length
  · rw [childrenAt, List.getElem?_append_left hn, childrenAt]
  · simp [childrenAt, hl]
  · rw [childrenAt, childrenAt, List.getElem?_eq_none (Nat.le_of_lt hn),
      List.getElem?_eq_none (by simpa using Nat.succ_le_of_lt hn)]

theorem documentAt_create (l : Link) (hn : n < ls.length) :
    documentAt (ls ++ [l]) n = documentAt ls n := by
  rw [documentAt, List.getElem?_append_left hn, documentAt]

@[simp]
theorem getElem?_attach (p c : NodeId) (ls : List Link) (n : NodeId) :
    (attach p c ls)[n]? = ls[n]?.map fun l => ⟨if n = c then some p else l.parent,
      if n = c then documentAt ls p else l.document,
      if n = p then l.children ++ [c] else l.children, l.root⟩ :=
  List.getElem?_mapIdx ..

@[simp]
theorem length_attach (p c : NodeId) (ls : List Link) : (attach p c ls).length = ls.length :=
  List.length_mapIdx ..

@[simp]
theorem documentAt_attach_self (hc : c < ls.length) :
    documentAt (attach p c ls) c = documentAt ls p := by
  rw [documentAt, getElem?_attach, List.getElem?_eq_getElem hc]
  simp

@[simp]
theorem documentAt_attach_of_ne (h : n ≠ c) :
    documentAt (attach p c ls) n = documentAt ls n := by
  cases hn : ls[n]? <;> simp [documentAt, hn, h]

@[simp]
theorem rootAt_attach (p c : NodeId) (ls : List Link) (n : NodeId) :
    rootAt (attach p c ls) n = rootAt ls n := by
  cases hn : ls[n]? <;> simp [rootAt, hn]

theorem mem_childrenAt_attach (hp : p < ls.length) {x : NodeId} :
    x ∈ childrenAt (attach p c ls) n ↔ x ∈ childrenAt ls n ∨ n = p ∧ x = c := by
  rw [childrenAt, getElem?_attach, childrenAt]
  by_cases h : n = p
  · subst h
    simp [List.getElem?_eq_getElem hp]
  · cases ls[n]? <;> simp [h]

end Link

end BlockTree

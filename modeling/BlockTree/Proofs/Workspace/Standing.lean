import BlockTree.Proofs.Workspace.Assembly

/-! A tree of blocks that stands in a workspace: every block is a node with its fields, under the
node of the block that holds it. The tree of an accepted definition is built twice, as a tree and
node by node, and the nodes are those of the tree. -/
namespace BlockTree

open Definition (AllMirror Describes GivesAttributes Mirrors listed listItems)

namespace Workspace

mutual
/-- A block is the node of that number, below its parent. Nodes have greater numbers than their
parents, so that no block is inside itself. -/
def Stands (w : Workspace) (doc parent n : NodeId) : Block → Prop
  | .node f bs => parent < n ∧ ∃ lines subs m ns,
      w.nodes[n]? = some { Node.described parent (some doc) f lines subs m with children := ns } ∧
      w.lists[lines]? = some (f.lines.map .text) ∧ w.lists[subs]? = some (f.subs.map .text) ∧
      w.maps[m]? = some f.attributes.data ∧ AllStand w doc n ns bs

def AllStand (w : Workspace) (doc parent : NodeId) : List NodeId → List Block → Prop
  | [], [] => True
  | n :: ns, b :: bs => Stands w doc parent n b ∧ AllStand w doc parent ns bs
  | _, _ => False
end

/-- Nothing that was there changes, the node `p` apart. -/
structure Keeps (p : NodeId) (w w' : Workspace) : Prop where
  nodes : ∀ n < w.nodes.length, n ≠ p → w'.nodes[n]? = w.nodes[n]?
  lists : w.lists <+: w'.lists
  maps : w.maps <+: w'.maps
  size : w.nodes.length ≤ w'.nodes.length

variable {w w' w'' : Workspace} {doc p n : NodeId}

theorem Keeps.refl (p : NodeId) (w : Workspace) : Keeps p w w where
  nodes _ _ _ := rfl
  lists := List.prefix_rfl
  maps := List.prefix_rfl
  size := Nat.le_refl _

theorem Keeps.trans (h : Keeps p w w') (h' : Keeps p w' w'') : Keeps p w w'' where
  nodes n hn hp := (h'.nodes n (Nat.lt_of_lt_of_le hn h.size) hp).trans (h.nodes n hn hp)
  lists := List.IsPrefix.trans h.lists h'.lists
  maps := List.IsPrefix.trans h.maps h'.maps
  size := Nat.le_trans h.size h'.size

theorem Keeps.beyond (h : Keeps p w w') (h' : Keeps w.nodes.length w' w'') : Keeps p w w'' where
  nodes n hn hp :=
    (h'.nodes n (Nat.lt_of_lt_of_le hn h.size) (Nat.ne_of_lt hn)).trans (h.nodes n hn hp)
  lists := List.IsPrefix.trans h.lists h'.lists
  maps := List.IsPrefix.trans h.maps h'.maps
  size := Nat.le_trans h.size h'.size

theorem getElem?_of_prefix {α : Type} {xs ys : List α} {i : Nat} {a : α} (h : xs <+: ys)
    (ha : xs[i]? = some a) : ys[i]? = some a := by
  obtain ⟨added, rfl⟩ := h
  rw [List.getElem?_append_left (List.getElem?_eq_some_iff.1 ha).1, ha]

theorem Stands.lt {b : Block} (h : Stands w doc p n b) : p < n := by
  cases b with
  | node f bs => exact h.1

mutual
theorem Stands.mono {q p n : NodeId} (h : Keeps q w w') (hn : q < n) : (b : Block) →
    Stands w doc p n b → Stands w' doc p n b
  | .node f bs, ⟨hp, lines, subs, m, ns, hnode, hlines, hsubs, hmap, hbs⟩ => by
    have hlt : n < w.nodes.length := (List.getElem?_eq_some_iff.1 hnode).1
    -- numbers grow downwards, so `q` is not below `n` either
    refine ⟨hp, lines, subs, m, ns, ?_, getElem?_of_prefix h.lists hlines,
      getElem?_of_prefix h.lists hsubs, getElem?_of_prefix h.maps hmap,
      AllStand.mono h (Nat.le_of_lt hn) ns bs hbs⟩
    rw [h.nodes n hlt (Nat.ne_of_gt hn), hnode]

theorem AllStand.mono {q p : NodeId} (h : Keeps q w w') (hp : q ≤ p) :
    (ns : List NodeId) → (bs : List Block) → AllStand w doc p ns bs → AllStand w' doc p ns bs
  | [], [], _ => trivial
  | [], _ :: _, hbs => hbs.elim
  | _ :: _, [], hbs => hbs.elim
  | _ :: ns, b :: bs, hbs =>
    ⟨Stands.mono h (Nat.lt_of_le_of_lt hp hbs.1.lt) b hbs.1, AllStand.mono h hp ns bs hbs.2⟩
end

theorem assembleNested_eq (w : Workspace) (p : NodeId) : (es : Entries) →
    w.assembleNested p es = w.assembleAll p (listItems (es.get "blocks"))
  | [] => rfl
  | (k, v) :: es => by
    rw [assembleNested, Entries.get, Entries.find?]
    split
    next hk =>
      cases v <;> rfl
    next hk => exact assembleNested_eq w p es

theorem assembleBlock_stands {es : Entries} {f : Fields} {q : Node} (h : Describes (.map es) f)
    (hq : w.nodes[p]? = some q) :
    ∃ w' lines subs m, w.assembleBlock p es = .ok w' ∧ Keeps p w w' ∧
      w'.nodes[p]? = some { q with children := q.children ++ [w.nodes.length] } ∧
      w'.nodes[w.nodes.length]? = some (.described p q.document f lines subs m) ∧
      w'.lists[lines]? = some (f.lines.map .text) ∧ w'.lists[subs]? = some (f.subs.map .text) ∧
      w'.maps[m]? = some f.attributes.data := by
  obtain ⟨w', ls, ms, hw', hlists, hmaps, hnodes⟩ := assembleBlock_eq hq h
  have hp : p < w.nodes.length := (List.getElem?_eq_some_iff.1 hq).1
  refine ⟨w', (w.lists ++ ls).length, (w.lists ++ ls).length + 1, (w.maps ++ ms).length, hw',
    ⟨fun n hn hne => ?_, ⟨_, hlists.symm⟩, ⟨_, hmaps.symm⟩, by simp [hnodes]⟩, ?_, ?_, ?_, ?_, ?_⟩
  · rw [hnodes, List.getElem?_append_left (by simpa using hn), List.getElem?_set_ne hne.symm]
  · rw [hnodes, List.getElem?_append_left (by simpa using hp), List.getElem?_set_self hp]
  · simp [hnodes]
  · rw [hlists, (getElem?_append_two ..).1]
  · rw [hlists, (getElem?_append_two ..).2]
  · rw [hmaps, ← List.append_assoc, List.getElem?_concat_length]

mutual
theorem assembleUnder_stands {w : Workspace} {p : NodeId} {q : Node} {v : Value}
    (hq : w.nodes[p]? = some q) (hdoc : q.document = some doc) : (b : Block) → Mirrors v b →
    ∃ w', w.assembleUnder p v = .ok w' ∧ Keeps p w w' ∧
      w'.nodes[p]? = some { q with children := q.children ++ [w.nodes.length] } ∧
      Stands w' doc p w.nodes.length b
  | .node f bs, ⟨hf, hbs⟩ => by
    obtain ⟨es, rfl⟩ := hf.isMap
    have hp : p < w.nodes.length := (List.getElem?_eq_some_iff.1 hq).1
    obtain ⟨w₁, lines, subs, m, hw₁, hkeeps₁, hq₁, hnode, hlines, hsubs, hmap⟩ :=
      assembleBlock_stands hf hq
    rw [hdoc] at hnode
    -- what is assembled below the new node leaves its parent alone
    obtain ⟨w₂, ns, hw₂, hkeeps₂, hnode₂, hall⟩ := assembleAll_stand hnode rfl bs hbs
    refine ⟨w₂, ?_, hkeeps₁.beyond hkeeps₂, ?_, hp, lines, subs, m, ns, ?_,
      getElem?_of_prefix hkeeps₂.lists hlines, getElem?_of_prefix hkeeps₂.lists hsubs,
      getElem?_of_prefix hkeeps₂.maps hmap, hall⟩
    · rw [assembleUnder]
      refine (except_bind_of_ok hw₁).trans ?_
      rw [assembleNested_eq]
      exact hw₂
    · have hlt : p < w₁.nodes.length := (List.getElem?_eq_some_iff.1 hq₁).1
      rw [hkeeps₂.nodes p hlt (Nat.ne_of_lt hp), hq₁]
    · exact hnode₂

theorem assembleAll_stand {w : Workspace} {p : NodeId} {q : Node} {vs : List Value}
    (hq : w.nodes[p]? = some q) (hdoc : q.document = some doc) :
    (bs : List Block) → AllMirror vs bs →
    ∃ w' ns, w.assembleAll p vs = .ok w' ∧ Keeps p w w' ∧
      w'.nodes[p]? = some { q with children := q.children ++ ns } ∧ AllStand w' doc p ns bs
  | [], h => by
    cases vs with
    | nil => exact ⟨w, [], rfl, .refl p w, by simpa using hq, trivial⟩
    | cons v vs => exact h.elim
  | b :: bs, h => by
    cases vs with
    | nil => exact h.elim
    | cons v vs =>
      obtain ⟨w₁, hw₁, hkeeps₁, hq₁, hb⟩ := assembleUnder_stands hq hdoc b h.1
      obtain ⟨w₂, ns, hw₂, hkeeps₂, hq₂, hbs⟩ := assembleAll_stand hq₁ hdoc bs h.2
      refine ⟨w₂, w.nodes.length :: ns, ?_, hkeeps₁.trans hkeeps₂, ?_, hb.mono hkeeps₂ hb.lt, hbs⟩
      · rw [assembleAll]
        exact (except_bind_of_ok hw₁).trans hw₂
      · simpa using hq₂
end

def documentNode (doc : NodeId) (m : MapId) (pipe : Pipe) (children : List NodeId) : Node where
  label := ""
  parent := none
  document := some doc
  context := .text "document"
  children := children
  attributes := m
  style := .null
  id := .null
  title := .null
  body := .document pipe .content

theorem ofDatum_of_givesAttributes {v : Value} {as : Entries} (ls : Lists)
    (h : GivesAttributes v as) : DataEntries.ofDatum ls (.value v) = .ok as.data := by
  obtain rfl | ⟨ht, rfl⟩ := h
  · exact DataEntries.ofDatum_of_gives ls (.mapping as)
  · simp [DataEntries.ofDatum, Datum.truthy, ht, Entries.data]

theorem addDocument_eq {v : Value} {as : Entries} (w : Workspace) (pipe : Pipe)
    (h : GivesAttributes v as) :
    ∃ w', w.addDocument "" (.value v) pipe .content = .ok w' ∧
      w'.nodes[w.nodes.length]? = some (documentNode w.nodes.length w.maps.length pipe []) ∧
      w'.maps[w.maps.length]? = some as.data := by
  refine ⟨_, except_bind_of_ok (ofDatum_of_givesAttributes w.lists h), ?_, ?_⟩
  · simp [Node.fresh, documentNode]
  · simp

/-- An accepted definition is mirrored twice: by the blocks of the document that is built, and by
the nodes of the document that is assembled from it. -/
theorem built_mirrors {σ : Type} {es : Entries} {d : Document} {e e' : Effects σ}
    (hattributes : (es.get "attributes").truthy = false ∨ ∃ as, es.get "attributes" = .map as)
    (h : (Definition.document (.map es)).run e = (.ok d, e')) (w : Workspace) (pipe : Pipe) :
    GivesAttributes (es.get "attributes") d.attributes ∧
      AllMirror (listed (.map es)) d.blocks ∧
      ∃ w' ns, w.assemble pipe es = .ok w' ∧
        w'.nodes[w.nodes.length]? =
          some (documentNode w.nodes.length w.maps.length pipe ns) ∧
        w'.maps[w.maps.length]? = some d.attributes.data ∧
        AllStand w' w.nodes.length w.nodes.length ns d.blocks := by
  obtain ⟨has, hbs⟩ := Definition.document_tree h
  have hgives := Definition.givesAttributes_of_ok hattributes has
  obtain ⟨w₁, hw₁, hnode, hmap⟩ := addDocument_eq w pipe hgives
  obtain ⟨w₂, ns, hw₂, hkeeps, hnode₂, hall⟩ := assembleAll_stand hnode rfl d.blocks hbs
  refine ⟨hgives, hbs, w₂, ns, (except_bind_of_ok hw₁).trans ?_, hnode₂,
    getElem?_of_prefix hkeeps.maps hmap, hall⟩
  rw [assembleNested_eq]
  exact hw₂

def titledListing : Entries := [(.str "attributes", .map [(.str "lang", .str "en")]),
  (.str "blocks", .list [.map [(.str "context", .str "listing"),
    (.str "content_model", .str "verbatim"), (.str "title", .bool true),
    (.str "subs", .str "upper"), (.str "source", .str "a\r\nb"),
    (.str "blocks", .list [.map [(.str "context", .str "p"),
      (.str "source", .list [.str "c"])]])]])]

def titledListingDocument : Document := ⟨[(.str "lang", .str "en")], [
  .node ⟨"listing", .verbatim, none, none, some "True", [], ["upper"], ["a", "b"]⟩ [
    .node ⟨"p", .simple, none, none, none, [], [], ["c"]⟩ []]]⟩

/-- The paragraph is the last node, under the listing, which is under the document. -/
theorem built_mirrors_titledListing :
    ∃ w', empty.assemble (.substitutor 0) titledListing = .ok w' ∧
      ∃ ns, w'.nodes[0]? = some (documentNode 0 0 (.substitutor 0) ns) ∧
        w'.maps[0]? = some [(.str "lang", .text "en")] ∧
        AllStand w' 0 0 ns titledListingDocument.blocks := by
  have hbuilt : (Definition.document (.map titledListing)).run (⟨(), []⟩ : Effects Unit) =
      (.ok titledListingDocument,
        ⟨(), [.unrendered [0] .verbatim (.str "listing") 1, .built 1]⟩) := by
    with_unfolding_all rfl
  obtain ⟨-, -, w', ns, hw', hnode, hmap, hall⟩ :=
    built_mirrors (.inr ⟨_, by with_unfolding_all rfl⟩) hbuilt empty (.substitutor 0)
  exact ⟨w', hw', ns, hnode, hmap, hall⟩

end Workspace

end BlockTree

import BlockTree.Proofs.Rendering.Bare
import BlockTree.Proofs.Tree.Branches
import BlockTree.Proofs.Workspace.Held
import BlockTree.Proofs.Workspace.Standing

/-! Grown trees. The nodes that grow are those of the branches, wherever they grow from, so that
they hold the same blocks in a document as without one. -/
namespace BlockTree

def Seed.node (s : Seed) (parent document : Option NodeId) (children : List NodeId)
    (lines subs : ListId) (m : MapId) : Node where
  label := ""
  parent := parent
  document := document
  context := .text s.context
  children := children
  attributes := m
  style := .null
  id := .null
  title := .null
  body := .block s.model (.shared lines) (.shared subs)

namespace Workspace

def homeOf (w : Workspace) (base : Option NodeId) : Option NodeId :=
  base.bind fun p => w.nodes[p]?.bind (·.document)

/-- The nodes of these branches have grown in the workspace `w₀`. Nothing else has changed in it but
the children of nodes. -/
structure Grown (w₀ : Workspace) (base : Option NodeId) (bs : List Branch) (w : Workspace) :
    Prop where
  length : w.nodes.length = w₀.nodes.length + bs.length
  before : ∀ n < w₀.nodes.length,
    w.nodes[n]?.map (fun b => (b.document, b.body)) = w₀.nodes[n]?.map fun b => (b.document, b.body)
  substitutors : w.substitutors = w₀.substitutors
  branch : ∀ {k : Nat} {b : Branch}, bs[k]? = some b → ∃ lines subs m,
    w.nodes[w₀.nodes.length + k]? =
      some (b.seed.node (parentNode base w₀.nodes.length b.parent) (w₀.homeOf base)
        (b.children.map (w₀.nodes.length + ·)) lines subs m) ∧
      w.lists[lines]? = some (b.seed.lines.map .text) ∧
      w.lists[subs]? = some (b.seed.subs.map .text)

theorem grown_start (w : Workspace) (base : Option NodeId) : Grown w base [] w where
  length := rfl
  before _ _ := rfl
  substitutors := rfl
  branch h := nomatch h

theorem growStep_make (w : Workspace) (base : Option NodeId) (first : NodeId) (s : Seed)
    (parent : Option Nat) :
    ∃ w' lines subs m, growStep base first w (.make parent s) = .ok w' ∧
      w'.nodes = w.nodes ++ [s.node (parentNode base first parent)
        (w.homeOf (parentNode base first parent)) [] lines subs m] ∧
      w'.substitutors = w.substitutors ∧ w.lists <+: w'.lists ∧
      w'.lists[lines]? = some (s.lines.map .text) ∧ w'.lists[subs]? = some (s.subs.map .text) := by
  have hmodel : ContentModel.ofValue (w.resolve (.value (.model s.model))) = .ok s.model := by
    rw [resolve, Datum.resolve]
    rfl
  have hattributes : DataEntries.ofDatum w.lists (.fields s.attributes) = .ok s.attributes := by
    cases h : s.attributes <;> rfl
  have hsubs : Options.convertSubs w.lists (.items (s.subs.map .text)) =
      .ok (s.subs.map .text) := by
    cases h : s.subs <;> rfl
  have hlines : Options.lines w.lists s.source.datum = .ok (s.lines.map .text) := by
    rw [Seed.lines]
    cases s.source with
    | text t => rfl
    | lines ls => cases ls <;> rfl
  have hsource (l : ListId) : s.source.datum ≠ .shared l := by
    cases s.source <;> simp [Source.datum, Datum.text]
  obtain ⟨o, ls, ms, ho, hblock⟩ := made_of_fields hmodel hattributes hsubs hsource hlines
  refine ⟨_, (w.lists ++ ls).length, (w.lists ++ ls).length + 1, (w.maps ++ ms).length,
    (except_bind_of_ok ho).trans (hblock _ _ _), ?_, rfl, ?_, ?_, ?_⟩
  · simp [Node.fresh, Seed.node, homeOf]
  · simp
  · exact (getElem?_append_two w.lists ls _ _).1
  · exact (getElem?_append_two w.lists ls _ _).2

theorem append_eq {w : Workspace} {p c : NodeId} {q m : Node} (hq : w.nodes[p]? = some q)
    (hm : w.nodes[c]? = some m) (hparent : m.parent = some p)
    (hdocument : m.document = q.document) :
    w.append p c = .ok (w.setNode p { q with children := q.children ++ [c] }) := by
  have hsame : w.setNode c { m with parent := some p, document := q.document } = w := by
    obtain ⟨hc, rfl⟩ := List.getElem?_eq_some_iff.1 hm
    rw [← hparent, ← hdocument, setNode, List.set_getElem_self]
  refine (except_bind_of_ok (node_eq_ok_iff.2 hq)).trans ?_
  refine (except_bind_of_ok (node_eq_ok_iff.2 hm)).trans ?_
  rw [hsame]
  exact except_bind_of_ok (node_eq_ok_iff.2 hq)

namespace Grown

variable {w₀ w : Workspace} {base : Option NodeId} {bs : List Branch}

theorem homeOf_eq (h : Grown w₀ base bs w) (hbase : ∀ p ∈ base, p < w₀.nodes.length)
    (parent : Option Nat) (hparent : ∀ k ∈ parent, k < bs.length) :
    w.homeOf (parentNode base w₀.nodes.length parent) = w₀.homeOf base := by
  cases parent with
  | some k =>
    obtain ⟨lines, subs, m, hnode, -⟩ := h.branch (List.getElem?_eq_getElem (hparent k rfl))
    rw [homeOf, parentNode, Option.bind_some, hnode]
    rfl
  | none =>
    cases base with
    | none => rfl
    | some p =>
      have hkept := congrArg (·.bind Prod.fst) (h.before p (hbase p rfl))
      simpa [homeOf, parentNode, Option.bind_map, Function.comp_def] using hkept

theorem make (h : Grown w₀ base bs w) (hbase : ∀ p ∈ base, p < w₀.nodes.length)
    {parent : Option Nat} (hparent : ∀ k ∈ parent, k < bs.length) (s : Seed) :
    ∃ w', growStep base w₀.nodes.length w (.make parent s) = .ok w' ∧
      Grown w₀ base (bs ++ [⟨parent, s, []⟩]) w' := by
  obtain ⟨w', lines, subs, m, hw', hnodes, hsubstitutors, hprefix, hlines, hsubs⟩ :=
    w.growStep_make base w₀.nodes.length s parent
  rw [h.homeOf_eq hbase parent hparent] at hnodes
  have hlength := h.length
  refine ⟨w', hw', ?_, ?_, hsubstitutors.trans h.substitutors, ?_⟩
  · rw [hnodes, List.length_append, List.length_append, hlength, Nat.add_assoc]
    rfl
  · intro n hn
    rw [hnodes, List.getElem?_append_left (by omega), h.before n hn]
  · intro k b hb
    rw [List.getElem?_append] at hb
    split at hb
    next hk =>
      obtain ⟨ls, ss, j, hnode, hls, hss⟩ := h.branch hb
      refine ⟨ls, ss, j, ?_, getElem?_of_prefix hprefix hls, getElem?_of_prefix hprefix hss⟩
      rw [hnodes, List.getElem?_append_left (by omega), hnode]
    next hk =>
      obtain ⟨hlast, hlastEq⟩ := List.getElem?_eq_some_iff.1 hb
      rw [List.length_singleton] at hlast
      obtain rfl : b = ⟨parent, s, []⟩ := hlastEq.symm.trans (List.getElem_singleton _)
      obtain rfl : k = bs.length := by omega
      refine ⟨lines, subs, m, ?_, hlines, hsubs⟩
      rw [hnodes, ← hlength, List.getElem?_concat_length]
      rfl

theorem adopt (h : Grown w₀ base bs w) {p : NodeId} (hp : p < w₀.nodes.length) {q : Node}
    (hq : w.nodes[p]? = some q) (children : List NodeId) :
    Grown w₀ base bs (w.setNode p { q with children := children }) := by
  have hlt : p < w.nodes.length := (List.getElem?_eq_some_iff.1 hq).1
  refine ⟨(List.length_set ..).trans h.length, fun n hn => ?_, h.substitutors, fun {k b} hb => ?_⟩
  · rw [← h.before n hn, setNode, List.getElem?_set]
    split
    next heq =>
      subst heq
      rw [hq]
      rfl
    · rfl
  · obtain ⟨lines, subs, m, hnode, hlists⟩ := h.branch hb
    refine ⟨lines, subs, m, ?_, hlists⟩
    have hne : p ≠ w₀.nodes.length + k :=
      Nat.ne_of_lt (Nat.lt_of_lt_of_le hp (Nat.le_add_right _ _))
    rw [setNode, List.getElem?_set_ne hne, hnode]

theorem branch_off (h : Grown w₀ base bs w) {p : Nat} (k : Nat) {q : Node}
    (hq : w.nodes[w₀.nodes.length + p]? = some q) :
    Grown w₀ base (bs.modify p fun b => { b with children := b.children ++ [k] })
      (w.setNode (w₀.nodes.length + p)
        { q with children := q.children ++ [w₀.nodes.length + k] }) := by
  have hlt := (List.getElem?_eq_some_iff.1 hq).1
  refine ⟨?_, fun n hn => ?_, h.substitutors, fun {j c} hc => ?_⟩
  · rw [List.length_modify]
    exact (List.length_set ..).trans h.length
  · rw [← h.before n hn, setNode, List.getElem?_set_ne (by omega)]
  · rw [List.getElem?_modify] at hc
    obtain ⟨d, hd, rfl⟩ := Option.map_eq_some_iff.1 hc
    obtain ⟨lines, subs, m, hnode, hlists⟩ := h.branch hd
    rw [setNode]
    by_cases hpj : p = j
    · subst hpj
      obtain rfl := Option.some.inj (hq.symm.trans hnode)
      rw [if_pos rfl]
      refine ⟨lines, subs, m, ?_, hlists⟩
      rw [List.getElem?_set_self hlt]
      simp [Seed.node]
    · rw [if_neg hpj]
      refine ⟨lines, subs, m, ?_, hlists⟩
      rw [List.getElem?_set_ne (by omega), hnode]

theorem append (h : Grown w₀ base bs w) (hbase : ∀ p ∈ base, p < w₀.nodes.length)
    (hbs : Branched bs) {k : Nat} (hk : k < bs.length) :
    ∃ w', growStep base w₀.nodes.length w (.append k) = .ok w' ∧
      Grown w₀ base ((Growth.append k).on bs) w' := by
  have hb : bs[k]? = some bs[k] := List.getElem?_eq_getElem hk
  obtain ⟨lines, subs, m, hnode, -⟩ := h.branch hb
  rw [growStep, Growth.on, hb, Option.bind_some]
  cases hparent : bs[k].parent with
  | some p =>
    have hp : p < bs.length := Nat.lt_trans (hbs.parent_lt hb p hparent) hk
    obtain ⟨ls, ss, j, hq, -⟩ := h.branch (List.getElem?_eq_getElem hp)
    rw [hparent] at hnode
    exact ⟨_, (except_bind_of_ok (node_eq_ok_iff.2 hnode)).trans (append_eq hq hnode rfl rfl),
      h.branch_off k hq⟩
  | none =>
    rw [hparent] at hnode
    -- a block on top is appended to what the blocks grow from, where there is something
    cases base with
    | none => exact ⟨w, (except_bind_of_ok (node_eq_ok_iff.2 hnode)).trans rfl, h⟩
    | some p =>
      have hp := hbase p rfl
      have hlt : p < w.nodes.length := by
        rw [h.length]
        exact Nat.lt_of_lt_of_le hp (Nat.le_add_right _ _)
      have hq := List.getElem?_eq_getElem hlt
      have hhome : w.homeOf (some p) = w₀.homeOf (some p) :=
        h.homeOf_eq hbase none (by simp)
      rw [homeOf, Option.bind_some, hq, Option.bind_some] at hhome
      exact ⟨_, (except_bind_of_ok (node_eq_ok_iff.2 hnode)).trans
        (append_eq hq hnode rfl hhome.symm), h.adopt hp hq _⟩

/-- What one step gives has grown by it. -/
theorem step (h : Grown w₀ base bs w) (hbase : ∀ p ∈ base, p < w₀.nodes.length) (hbs : Branched bs)
    {g : Growth} (hg : g.Known bs.length) :
    ∃ w', growStep base w₀.nodes.length w g = .ok w' ∧ Grown w₀ base (g.on bs) w' := by
  cases g with
  | make parent s => exact h.make hbase hg s
  | append k => exact h.append hbase hbs hg

theorem run (h : Grown w₀ base bs w) (hbase : ∀ p ∈ base, p < w₀.nodes.length) (hbs : Branched bs)
    {gs : List Growth} (hgs : Growth.Ordered bs.length gs) :
    ∃ w', gs.foldlM (growStep base w₀.nodes.length) w = .ok w' ∧
      Grown w₀ base (gs.foldl Growth.on bs) w' := by
  induction gs generalizing w bs with
  | nil => exact ⟨w, rfl, h⟩
  | cons g gs ih =>
    rw [Growth.Ordered, ← Growth.length_on] at hgs
    obtain ⟨w₁, hw₁, h₁⟩ := h.step hbase hbs hgs.1
    obtain ⟨w₂, hw₂, h₂⟩ := ih h₁ (hbs.on hgs.1) hgs.2
    exact ⟨w₂, (except_bind_of_ok hw₁).trans hw₂, h₂⟩

/-- The node of a branch holds the tree of the branch. -/
theorem holds {p : Pipeline (Run Tally)} (h : Grown w₀ base bs w) (hbs : Branched bs)
    (hp : ∀ b, b.document = w₀.homeOf base → w.Under b p ∧ w.Unconverted b) :
    ∀ k b, bs[k]? = some b → w.Holds p (w₀.nodes.length + k) (Branch.tree bs k) := by
  refine Branch.induction_down hbs fun k b hb hchildren => ?_
  obtain ⟨lines, subs, m, hnode, hlines, hsubs⟩ := h.branch hb
  rw [Branch.tree_eq hbs hb]
  refine ⟨⟨_, _, _, hnode, rfl, Datum.texts_shared hlines, Datum.texts_shared hsubs, (hp _ rfl).1⟩,
    _, hnode, (hp _ rfl).2, allHold_map fun c hc => ?_⟩
  obtain ⟨d, -, hd⟩ := hchildren c hc
  exact ⟨Nat.add_lt_add_left (hbs.lt_child hb c hc).1 _, hd⟩

theorem documentOf_eq {n : NodeId} {q b : Node} {x : Pipe × Converter}
    (h : Grown w₀ (some n) bs w) (hq : w₀.nodes[n]? = some q)
    (hdocument : w₀.documentOf q = .ok (some x)) (hb : b.document = w₀.homeOf (some n)) :
    w.documentOf b = .ok (some x) := by
  rw [homeOf, Option.bind_some, hq, Option.bind_some] at hb
  rw [documentOf, ← hb] at hdocument
  rw [documentOf]
  cases hd : b.document with
  | none =>
    rw [hd] at hdocument
    cases hdocument
  | some d =>
    rw [hd] at hdocument
    obtain ⟨m, hm, hbody⟩ := except_bind_ok hdocument
    have hm' := node_eq_ok_iff.1 hm
    have hkept := h.before d (List.getElem?_eq_some_iff.1 hm').1
    rw [hm'] at hkept
    obtain ⟨m', hw, hsame⟩ := Option.map_eq_some_iff.1 hkept
    refine (except_bind_of_ok (node_eq_ok_iff.2 hw)).trans ?_
    rw [(Prod.mk.inj hsame).2]
    exact hbody

end Grown

theorem grow_grown (w : Workspace) (base : Option NodeId) (hbase : ∀ p ∈ base, p < w.nodes.length)
    {gs : List Growth} (hgs : Growth.Ordered 0 gs) :
    ∃ w', w.grow base gs = .ok w' ∧ Grown w base (Growth.branches gs) w' :=
  (grown_start w base).run hbase .nil hgs

theorem under_detached {w : Workspace} {b : Node} (hb : b.document = none) :
    w.Under b .detached ∧ w.Unconverted b := by
  have hdocument : w.documentOf b = .ok none := by rw [documentOf, hb]
  exact ⟨.detached hdocument, none, hdocument, by simp⟩

theorem under_document {w : Workspace} {b : Node} {i : Nat}
    (hb : w.documentOf b = .ok (some (.substitutor i, .content))) :
    w.Under b (.ofSubstitutor (w.substitutorAt i)) ∧ w.Unconverted b :=
  ⟨.document hb, _, hb, fun x hx => by cases hx; rfl⟩

/-- Blocks whose lines hold no line feeds are grown twice in the same way: without a document in
`w₁`, and in `w₂` from a node of a document that leaves contents as they are and has nothing
registered. Then the same trees stand in both, and the block with the number `k` has the same
content, in the document with notices at most for its names. -/
theorem content_grown_agrees (w₁ w₂ : Workspace) {n : NodeId} {q : Node} {i : Nat}
    {gs : List Growth} (hq : w₂.nodes[n]? = some q)
    (hdocument : w₂.documentOf q = .ok (some (.substitutor i, .content)))
    (hempty : w₂.substitutorAt i = .empty) (hordered : Growth.Ordered 0 gs)
    (hfree : ∀ s ∈ gs.filterMap Growth.seed?, ∀ l ∈ s.lines, '\n' ∉ l.toList) :
    ∃ v₁ v₂, w₁.grow none gs = .ok v₁ ∧ w₂.grow (some n) gs = .ok v₂ ∧
      ∀ k < (gs.filterMap Growth.seed?).length, ∃ b c names,
        v₁.Holds .detached (w₁.nodes.length + k) b ∧
        v₂.Holds (.ofSubstitutor .empty) (w₂.nodes.length + k) b ∧
        v₁.content v₁.reach (w₁.nodes.length + k) = pure (.ofText? c) ∧
        (v₂.content v₂.reach (w₂.nodes.length + k)).Warns (.ofText? c) names := by
  have hn : n < w₂.nodes.length := (List.getElem?_eq_some_iff.1 hq).1
  obtain ⟨v₁, hv₁, h₁⟩ := w₁.grow_grown none (by simp) hordered
  obtain ⟨v₂, hv₂, h₂⟩ := w₂.grow_grown (some n) (by rintro _ ⟨⟩; exact hn) hordered
  have hbs : Branched (Growth.branches gs) := branched_foldl .nil hordered
  have hholds₁ := h₁.holds hbs fun b hb => under_detached hb
  have hholds₂ := h₂.holds (p := .ofSubstitutor .empty) hbs fun b hb => by
    have hunder := under_document (h₂.documentOf_eq hq hdocument hb)
    rwa [substitutorAt, h₂.substitutors, ← substitutorAt, hempty] at hunder
  refine ⟨v₁, v₂, hv₁, hv₂, fun k hk => ?_⟩
  have hk' : k < (Growth.branches gs).length := by
    rw [Growth.branches, length_foldl_on, List.length_nil, Nat.zero_add]
    exact hk
  have hb := List.getElem?_eq_getElem hk'
  have hlines : ∀ c ∈ (Branch.tree (Growth.branches gs) k).preorder, ∀ l ∈ c.fields.lines,
      '\n' ∉ l.toList := by
    intro c hc
    obtain ⟨d, hd, hfields⟩ := Branch.fields_of_mem_tree hbs k _ hb c hc
    obtain ⟨_, hmem, -⟩ | ⟨g, hg, hs⟩ := mem_foldl_on hd
    · cases hmem
    · rw [hfields]
      exact hfree d.seed (List.mem_filterMap.2 ⟨g, hg, hs⟩)
  obtain ⟨c, names, hdetached, hwarns⟩ := Block.content_bare (σ := Tally) _ hlines
  refine ⟨_, c, names, hholds₁ k _ hb, hholds₂ k _ hb, ?_, ?_⟩
  · rw [content_held _ _ _ (hholds₁ k _ hb) (ahead_le_reach _), hdetached, map_pure]
  · rw [content_held _ _ _ (hholds₂ k _ hb) (ahead_le_reach _)]
    exact hwarns.map Datum.ofText?

def sprig : List Growth := [.make none ⟨"section", .compound, [], [], .lines []⟩,
  .make (some 0) ⟨"listing", .verbatim, [], ["upper"], .text "\n a\n\n"⟩, .append 1, .append 0]

def bareDocument : Workspace where
  lists := []
  maps := [[]]
  options := []
  substitutors := [.empty]
  nodes := [documentNode 0 0 (.substitutor 0) []]
  recorders := 0
  names := [("", .node 0)]

/-- What grows without a document. Of the lists and mappings of both blocks, the last ones are their
own, and the others those of their options. -/
def sprigged : Workspace where
  lists := [[], [], [], [], [], [], [.text "upper"], [.text "", .text " a", .text ""],
    [.text "upper"]]
  maps := [[], [], [], [], [], []]
  options := []
  substitutors := []
  nodes := [Seed.node ⟨"section", .compound, [], [], .lines []⟩ none none [1] 3 4 2,
    Seed.node ⟨"listing", .verbatim, [], ["upper"], .text "\n a\n\n"⟩ (some 0) none [] 7 8 5]
  recorders := 0
  names := [("", .node 1), ("", .node 0)]

/-- Nothing is done about the name of the listing, and its blank lines are left out. -/
theorem content_grown_agrees_sprig :
    (empty.addSubstitutor .empty).2.addDocument "" .null (.substitutor 0) .content =
      .ok bareDocument ∧
    ∃ v₁ v₂ names, empty.grow none sprig = .ok v₁ ∧ bareDocument.grow (some 0) sprig = .ok v₂ ∧
      v₁.content v₁.reach 0 = pure (.text " a") ∧
      (v₂.content v₂.reach 1).Warns (.text " a") names := by
  have hordered : Growth.Ordered 0 sprig := by
    simp [sprig, Growth.Ordered, Growth.Known, Growth.seed?]
  have hfree : ∀ s ∈ sprig.filterMap Growth.seed?, ∀ l ∈ s.lines, '\n' ∉ l.toList := by
    simp only [sprig, Growth.seed?, List.filterMap_cons, List.filterMap_nil, List.forall_mem_cons]
    exact ⟨by decide, by decide, List.forall_mem_nil _⟩
  obtain ⟨v₁, v₂, hv₁, hv₂, hagree⟩ := content_grown_agrees empty bareDocument (n := 0) (i := 0)
    rfl rfl rfl hordered hfree
  obtain ⟨b, c, names, -, -, hdetached, hwarns⟩ := hagree 0 (by decide)
  have hc : c = some " a" := by
    have hgrown : empty.grow none sprig = .ok sprigged := by with_unfolding_all rfl
    obtain rfl := Except.ok.inj (hv₁.symm.trans hgrown)
    have hcontent : ((sprigged.content sprigged.reach 0).run ⟨.fresh, []⟩).1 =
        .ok (.text " a") := by with_unfolding_all rfl
    have hrun : (.ok (.text " a") : Except Failure Datum) = .ok (.ofText? c) :=
      hcontent.symm.trans (congrArg (fun x => (x.run ⟨.fresh, []⟩).1) hdetached)
    cases c with
    | none => cases hrun
    | some t => cases hrun; rfl
  subst hc
  exact ⟨rfl, v₁, v₂, names, hv₁, hv₂, hdetached, hwarns⟩

end Workspace

end BlockTree

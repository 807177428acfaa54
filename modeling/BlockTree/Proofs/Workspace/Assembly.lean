import BlockTree.Proofs.Definition.Mirror
import BlockTree.Proofs.Workspace.Making
import BlockTree.Workspace.Assembly

/-! Assembled documents. The options, the block and its names that are made one after the other come
to the fields that the definition describes, and every block is a child of the block, or of the
document, whose definition lists its own. -/
namespace BlockTree

open Definition (Describes GivesEntries GivesNames GivesLines GivesText)

def Entries.data (es : Entries) : DataEntries := es.map fun e => (e.1, .value e.2)

section

variable {v : Value} (ls : Lists)

theorem DataEntries.ofDatum_of_gives {as : Entries} (h : GivesEntries v as) :
    DataEntries.ofDatum ls (.value v) = .ok as.data := by
  cases h with
  | absent => rfl
  | mapping =>
    cases as with
    | nil => rfl
    | cons a as => rfl

namespace Datum

theorem given_of_text {s : String} (h : v.text? = some s) : given v = .text s := by
  cases v <;> cases h <;> rfl

theorem map_held {vs : List Value} {ss : List String} (h : vs.map Value.text? = ss.map some) :
    vs.map held = ss.map .text := by
  induction vs generalizing ss with
  | nil =>
    cases ss with
    | nil => rfl
    | cons s ss => cases h
  | cons v vs ih =>
    cases ss with
    | nil => cases h
    | cons s ss =>
      obtain ⟨hv, hvs⟩ := List.cons.inj h
      simp [held, hv, ih hvs]

theorem given_ne_shared (v : Value) (l : ListId) : given v ≠ .shared l := by
  cases v <;> simp [given, held, Value.text?, text]

end Datum

theorem Options.convertSubs_of_gives {ss : List String} (h : GivesNames v ss) :
    Options.convertSubs ls (.given v) = .ok (ss.map .text) := by
  cases h with
  | absent => rfl
  | unnamed hs => rw [Datum.given_of_text hs]; rfl
  | lone hs hne =>
    rw [Datum.given_of_text hs]
    exact congrArg Except.ok (if_neg hne)
  | list hs =>
    rw [Datum.given, Datum.map_held hs]
    cases ss <;> rfl

theorem Options.lines_of_gives {ks : List String} (h : GivesLines v ks) :
    Options.lines ls (.given v) = .ok (ks.map .text) := by
  cases h with
  | absent => rfl
  | text hs => rw [Datum.given_of_text hs]; rfl
  | list hs =>
    rw [Datum.given, Datum.map_held hs]
    cases ks <;> rfl

end

theorem formIfAny_of_gives {v : Value} {o : Option String} (h : GivesText v o) :
    v.formIfAny = .ok o := by
  cases h with
  | absent => rfl
  | written hv hs =>
    rw [Value.formIfAny.eq_2 v hv, hs]
    rfl

def Node.named (b : Node) (field : NodeField) : Option String → Node
  | none => b
  | some s => match field with
    | .style => { b with style := .text s }
    | .id => { b with id := .text s }
    | .title => { b with title := .text s }
    | .context | .model => b

def Node.described (parent : NodeId) (document : Option NodeId) (f : Fields)
    (lines subs : ListId) (m : MapId) : Node where
  label := ""
  parent := some parent
  document := document
  context := .text f.context
  children := []
  attributes := m
  style := .ofText? f.style
  id := .ofText? f.id
  title := .ofText? f.title
  body := .block f.model (.shared lines) (.shared subs)

theorem Node.named_eq_described (parent : NodeId) (document : Option NodeId) (f : Fields)
    (lines subs : ListId) (m : MapId) :
    ((Node.named ⟨"", some parent, document, .text f.context, [], m, .null, .null, .null,
      .block f.model (.shared lines) (.shared subs)⟩ .style f.style).named .id f.id).named
      .title f.title = .described parent document f lines subs m := by
  unfold Node.described
  cases f.style <;> cases f.id <;> cases f.title <;> rfl

namespace Workspace

variable {w w' : Workspace} {es : Entries} {f : Fields}

/-- The options of a definition are made, and the block is made from them. -/
theorem made_of_definition (h : Describes (.map es) f) :
    ∃ o ls ms, w.optionsOf es = .ok (o, w.adding ls ms) ∧
      ∀ label context parent, (w.adding ls ms).addBlock label context parent o =
        .ok ((w.adding (ls ++ [f.lines.map .text, f.subs.map .text])
          (ms ++ [f.attributes.data])).addNode (.fresh w label parent context (w.maps ++ ms).length
            (.block f.model (.shared (w.lists ++ ls).length)
              (.shared ((w.lists ++ ls).length + 1))))) := by
  have hmodel : ContentModel.ofValue (es.get "content_model") = .ok f.model := h.model
  have hattributes : DataEntries.ofDatum w.lists (.value (es.get "attributes")) =
      .ok f.attributes.data := DataEntries.ofDatum_of_gives w.lists h.attributes
  have hsubs : Options.convertSubs w.lists (.given (es.get "subs")) = .ok (f.subs.map .text) :=
    Options.convertSubs_of_gives w.lists h.subs
  have hfield : ContentModel.ofValue (w.resolve (.value (.model f.model))) = .ok f.model := by
    rw [resolve, Datum.resolve]
    rfl
  have hlines : Options.lines w.lists (.given (es.get "source")) = .ok (f.lines.map .text) :=
    Options.lines_of_gives w.lists h.lines
  obtain ⟨o, ls, ms, ho, hblock⟩ := made_of_fields hfield hattributes hsubs
    (Datum.given_ne_shared _) hlines
  exact ⟨o, ls, ms, (except_bind_of_ok hmodel).trans ho, hblock⟩

section

variable {ns : List Node} {b : Node}

theorem node_last : ({ w with nodes := ns ++ [b] } : Workspace).node ns.length = .ok b := by
  rw [node_eq_ok_iff]
  simp

theorem setNode_last (b' : Node) :
    ({ w with nodes := ns ++ [b] } : Workspace).setNode ns.length b' =
      { w with nodes := ns ++ [b'] } := by
  simp [setNode]

theorem assign_last (w : Workspace) (ns : List Node) (b : Node) {field : NodeField} {v : Value}
    {o : Option String} (hfield : field = .style ∨ field = .id ∨ field = .title)
    (hv : GivesText v o) :
    ({ w with nodes := ns ++ [b] } : Workspace).assign ns.length field v =
      .ok { w with nodes := ns ++ [b.named field o] } := by
  refine (except_bind_of_ok (formIfAny_of_gives hv)).trans ?_
  cases o with
  | none => rfl
  | some s =>
    refine (except_bind_of_ok node_last).trans ?_
    obtain rfl | rfl | rfl := hfield <;> exact congrArg Except.ok (setNode_last _)

theorem append_last {p : NodeId} {q : Node} (hp : ns[p]? = some q) (hparent : b.parent = some p)
    (hdocument : b.document = q.document) :
    ({ w with nodes := ns ++ [b] } : Workspace).append p ns.length =
      .ok { w with
        nodes := ns.set p { q with children := q.children ++ [ns.length] } ++ [b] } := by
  have hlt : p < ns.length := (List.getElem?_eq_some_iff.1 hp).1
  have hq : ({ w with nodes := ns ++ [b] } : Workspace).node p = .ok q := by
    rw [node_eq_ok_iff, List.getElem?_append_left hlt, hp]
  have hb : { b with parent := some p, document := q.document } = b := by
    rw [← hparent, ← hdocument]
  refine (except_bind_of_ok hq).trans ((except_bind_of_ok node_last).trans ?_)
  rw [hb, setNode_last]
  refine (except_bind_of_ok hq).trans (congrArg Except.ok ?_)
  rw [setNode, List.set_append_left _ _ hlt]

end

/-- A block is made as the last node, with lists and a mapping that are new, and becomes the last
child of its parent. -/
theorem assembleBlock_eq {p : NodeId} {q : Node} (hp : w.nodes[p]? = some q)
    (h : Describes (.map es) f) :
    ∃ w' ls ms, w.assembleBlock p es = .ok w' ∧
      w'.lists = w.lists ++ (ls ++ [f.lines.map .text, f.subs.map .text]) ∧
      w'.maps = w.maps ++ (ms ++ [f.attributes.data]) ∧
      w'.nodes = w.nodes.set p { q with children := q.children ++ [w.nodes.length] } ++
        [.described p q.document f (w.lists ++ ls).length ((w.lists ++ ls).length + 1)
          (w.maps ++ ms).length] := by
  obtain ⟨o, ls, ms, ho, hblock⟩ := made_of_definition (w := w) h
  let b := Node.fresh w "" (some p) (.text f.context) (w.maps ++ ms).length
    (.block f.model (.shared (w.lists ++ ls).length) (.shared ((w.lists ++ ls).length + 1)))
  let w₁ := (w.adding (ls ++ [f.lines.map .text, f.subs.map .text])
    (ms ++ [f.attributes.data])).addNode b
  have hb : b.document = q.document := by simp [b, Node.fresh, hp]
  have hnamed : ((b.named .style f.style).named .id f.id).named .title f.title =
      .described p q.document f (w.lists ++ ls).length ((w.lists ++ ls).length + 1)
        (w.maps ++ ms).length := by
    rw [← hb]
    exact Node.named_eq_described p b.document f _ _ _
  refine ⟨{ w₁ with nodes := _ }, ls, ms, ?_, rfl, rfl, rfl⟩
  refine (except_bind_of_ok ho).trans <| (except_bind_of_ok h.context).trans <|
    (except_bind_of_ok (hblock "" _ (some p))).trans ?_
  have hstyle := assign_last w₁ w.nodes b (.inl rfl) h.style
  have hid := assign_last w₁ w.nodes (b.named .style f.style) (.inr (.inl rfl)) h.id
  have htitle := assign_last w₁ w.nodes ((b.named .style f.style).named .id f.id)
    (.inr (.inr rfl)) h.title
  rw [hnamed] at htitle
  exact (except_bind_of_ok hstyle).trans <| (except_bind_of_ok hid).trans <|
    (except_bind_of_ok htitle).trans (append_last hp rfl rfl)

end Workspace

end BlockTree

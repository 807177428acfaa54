import BlockTree.Proofs.Failure
import BlockTree.Proofs.Workspace.Store

/-! What a change makes of a workspace when it does not fail. Every fact about all changes is shown
case by case from here, without a look at how a change is carried out. -/
namespace BlockTree

namespace Workspace

variable {w w' : Workspace} {l : ListId} {d : Datum}

theorem insertItem_eq_ok {i : Int} (h : w.insertItem l i d = .ok w') :
    ∃ ds, w' = w.setList l ds := by
  unfold insertItem at h
  split at h
  · cases h
    exact ⟨_, rfl⟩
  · cases h

theorem popItem_eq_ok (h : w.popItem l = .ok (d, w')) : ∃ ds, w' = w.setList l ds := by
  unfold popItem at h
  split at h
  · cases h
    exact ⟨_, rfl⟩
  · cases h

theorem listOf_eq_ok {member : String} (h : listOf member d = .ok l) : d = .shared l := by
  unfold listOf at h
  split at h
  · cases h
    rfl
  · split at h <;> cases h

theorem node_eq_ok_iff {n : NodeId} {b : Node} : w.node n = .ok b ↔ w.nodes[n]? = some b := by
  unfold node
  cases h : w.nodes[n]? <;> simp

theorem node_setNode {n m : NodeId} {b b' : Node} (hn : w.node n = .ok b)
    (hm : w.node m = .ok b') (c : Node) :
    (w.setNode n c).node m = .ok (if n = m then c else b') := by
  rw [node_eq_ok_iff] at hn hm ⊢
  have hlt : n < w.nodes.length := (List.getElem?_eq_some_iff.1 hn).1
  split
  next h => exact h ▸ List.getElem?_set_self hlt
  next h => exact (List.getElem?_set_ne h).trans hm

@[simp]
theorem setNode_setNode (n : NodeId) (b b' : Node) :
    (w.setNode n b).setNode n b' = w.setNode n b' := by
  simp [setNode]

theorem nodeId_addNode (w : Workspace) (b : Node) :
    (w.addNode b).nodeId b.label = .ok w.nodes.length := by
  simp [nodeId, named, addNode, bindName, Ref.node?]

theorem node_addNode (w : Workspace) (b : Node) : (w.addNode b).node w.nodes.length = .ok b :=
  node_eq_ok_iff.2 List.getElem?_concat_length

def adding (w : Workspace) (ls : Lists) (ms : List DataEntries) : Workspace :=
  { w with lists := w.lists ++ ls, maps := w.maps ++ ms }

variable (w) (ls ls' : Lists) (ms ms' : List DataEntries)

@[simp]
theorem lists_adding : (w.adding ls ms).lists = w.lists ++ ls := rfl

@[simp]
theorem maps_adding : (w.adding ls ms).maps = w.maps ++ ms := rfl

@[simp]
theorem nodes_adding : (w.adding ls ms).nodes = w.nodes := rfl

@[simp]
theorem options_adding : (w.adding ls ms).options = w.options := rfl

@[simp]
theorem names_adding : (w.adding ls ms).names = w.names := rfl

@[simp]
theorem adding_adding : (w.adding ls ms).adding ls' ms' = w.adding (ls ++ ls') (ms ++ ms') := by
  simp [adding]

@[simp]
theorem adding_nil : w.adding [] [] = w := by simp [adding]

@[simp]
theorem nodes_addNode (b : Node) : (w.addNode b).nodes = w.nodes ++ [b] := rfl

@[simp]
theorem lists_addNode (b : Node) : (w.addNode b).lists = w.lists := rfl

@[simp]
theorem maps_addNode (b : Node) : (w.addNode b).maps = w.maps := rfl

@[simp]
theorem options_addNode (b : Node) : (w.addNode b).options = w.options := rfl

@[simp]
theorem length_lists_setList (l : ListId) (ds : List Datum) :
    (w.setList l ds).lists.length = w.lists.length := List.length_set

@[simp]
theorem addList_eq (ds : List Datum) : w.addList ds = (w.lists.length, w.adding [ds] []) := by
  simp [addList, adding]

@[simp]
theorem addMap_eq (es : DataEntries) : w.addMap es = (w.maps.length, w.adding [] [es]) := by
  simp [addMap, adding]

/-- A list that is placed is new, and a datum that is none adds nothing. -/
theorem place_eq (d : Datum) :
    ∃ ls, (w.place d).2 = w.adding ls [] ∧
      ∀ l, (w.place d).1 = .shared l →
        d = .shared l ∨ IsNew w.lists.length (w.lists.length + ls.length) l := by
  unfold place
  split
  next vs =>
    exact ⟨[vs.map .value], by simp, fun l hl => by cases hl; simp [IsNew]⟩
  next ds =>
    exact ⟨[ds], by simp, fun l hl => by cases hl; simp [IsNew]⟩
  next => exact ⟨[], by simp, fun l hl => .inl hl⟩

variable {w}

theorem setLines_eq_ok {n : NodeId} (h : w.setLines n d = .ok w') :
    ∃ b o, w.node n = .ok b ∧ w.ownOf n "lines" = .ok o ∧
      w' = (w.place d).2.setNode n { b with body := .block o.1 (w.place d).1 o.2.2 } := by
  obtain ⟨b, hb, h⟩ := except_bind_ok h
  obtain ⟨o, ho, h⟩ := except_bind_ok h
  exact ⟨b, o, hb, ho, (Except.ok.inj h).symm⟩

theorem setSubs_eq_ok {n : NodeId} (h : w.setSubs n d = .ok w') :
    ∃ b o, w.node n = .ok b ∧ w.ownOf n "subs" = .ok o ∧
      w' = (w.place d).2.setNode n { b with body := .block o.1 o.2.1 (w.place d).1 } := by
  obtain ⟨b, hb, h⟩ := except_bind_ok h
  obtain ⟨o, ho, h⟩ := except_bind_ok h
  exact ⟨b, o, hb, ho, (Except.ok.inj h).symm⟩

/-- A new block with the model of its options. Its lines and its substitutions are two new lists,
and its attributes a new mapping. -/
def withBlock (w : Workspace) (label : String) (context : Datum) (parent : Option NodeId)
    (o : Options) (lines : List Datum) : Workspace :=
  (w.adding [lines, w.listAt o.subs] [w.entriesAt o.attributes]).addNode
    (.fresh w label parent context w.maps.length
      (.block o.model (.shared w.lists.length) (.shared (w.lists.length + 1))))

theorem addBlock_of_lines {o : Options} {lines : List Datum}
    (h : Options.lines w.lists o.source = .ok lines) (label : String) (context : Datum)
    (parent : Option NodeId) :
    w.addBlock label context parent o = .ok (w.withBlock label context parent o lines) := by
  refine (except_bind_of_ok h).trans ?_
  simp [withBlock, Node.fresh, pure, Except.pure]

theorem addBlock_eq (w : Workspace) (label : String) (context : Datum) (parent : Option NodeId)
    (o : Options) : w.addBlock label context parent o =
      (Options.lines w.lists o.source).map (w.withBlock label context parent o) := by
  cases h : Options.lines w.lists o.source with
  | error f => exact except_bind_error h
  | ok lines => exact addBlock_of_lines h label context parent

theorem addBlock_eq_ok {label : String} {context : Datum} {parent : Option NodeId} {o : Options}
    (h : w.addBlock label context parent o = .ok w') :
    ∃ lines, Options.lines w.lists o.source = .ok lines ∧
      w' = w.withBlock label context parent o lines := by
  obtain ⟨lines, hlines, -⟩ := except_bind_ok h
  rw [addBlock_of_lines hlines] at h
  exact ⟨lines, hlines, (Except.ok.inj h).symm⟩

end Workspace

namespace Options

variable {w w' : Workspace} {o o' : Options} {f : OptionField} {d : Datum}

theorem set_eq_ok (h : o.set w f d = .ok (o', w')) :
    ∃ c, convert w d f = .ok c ∧ o.assign w c = (o', w') := by
  obtain ⟨c, hc, h⟩ := except_bind_ok h
  exact ⟨c, hc, Except.ok.inj h⟩

/-- What holds of the default and is kept by the assignment of what is given holds of the options
that are made, in the workspace that they are made in. -/
theorem ofFields_induction {given : List (String × Datum)} {P : Options × Workspace → Prop}
    (hdefault : P (default w))
    (hassign : ∀ {x : Options × Workspace} {name : String} {f : OptionField} {d : Datum}
      {c : Converted}, P x → OptionField.named? name = some f → given.lookup name = some d →
      convert w d f = .ok c → P (x.1.assign x.2 c))
    {x : Options × Workspace} (h : ofFields w given = .ok x) : P x := by
  refine except_foldlM_ok (fun x name x' hx hx' => ?_) hdefault h
  split at hx'
  next f d hf hd =>
    obtain ⟨c, hc, hx'⟩ := except_bind_ok hx'
    cases hx'
    exact hassign hx hf hd hc
  next =>
    cases hx'
    exact hx

/-- What becomes of options and of the workspace when a field is assigned. New lists and mappings
are made, and the options hold such in place of others, or what they held before. -/
structure Renewed (w : Workspace) (o : Options) (w' : Workspace) (o' : Options) : Prop where
  added : ∃ ls ms, w' = w.adding ls ms
  attributes : o'.attributes = o.attributes ∨ IsNew w.maps.length w'.maps.length o'.attributes
  subs : o'.subs = o.subs ∨ IsNew w.lists.length w'.lists.length o'.subs

theorem renewed_assign (w : Workspace) (o : Options) (c : Converted) :
    Renewed w o (o.assign w c).2 (o.assign w c).1 := by
  cases c with
  | model m => exact ⟨⟨[], [], by simp [assign]⟩, .inl rfl, .inl rfl⟩
  | attributes es =>
    exact ⟨⟨[], [es], by simp [assign]⟩, .inr (by simp [assign, IsNew]), .inl rfl⟩
  | subs ds => exact ⟨⟨[ds], [], by simp [assign]⟩, .inl rfl, .inr (by simp [assign, IsNew])⟩
  | source d =>
    obtain ⟨ls, hplace, -⟩ := w.place_eq d
    exact ⟨⟨ls, [], hplace⟩, .inl rfl, .inl rfl⟩

theorem renewed_set (h : o.set w f d = .ok (o', w')) : Renewed w o w' o' := by
  obtain ⟨c, -, hassign⟩ := set_eq_ok h
  have hrenewed := renewed_assign w o c
  rwa [hassign] at hrenewed

theorem renewed_ofFields {given : List (String × Datum)} (h : ofFields w given = .ok (o, w')) :
    (∃ ls ms, w' = w.adding ls ms) ∧
      IsNew w.maps.length w'.maps.length o.attributes ∧
      IsNew w.lists.length w'.lists.length o.subs := by
  refine ofFields_induction (P := fun x => (∃ ls ms, x.2 = w.adding ls ms) ∧
    IsNew w.maps.length x.2.maps.length x.1.attributes ∧
    IsNew w.lists.length x.2.lists.length x.1.subs) ?_ ?_ h
  · exact ⟨⟨[[]], [[]], by simp [default]⟩, by simp [default, IsNew], by simp [default, IsNew]⟩
  · rintro ⟨o₁, w₁⟩ name f d c ⟨⟨ls, ms, rfl⟩, hmap, hlist⟩ - - -
    obtain ⟨⟨ls', ms', hadded⟩, hmap', hlist'⟩ := renewed_assign (w.adding ls ms) o₁ c
    refine ⟨⟨ls ++ ls', ms ++ ms', by simp [hadded]⟩, ?_, ?_⟩
    · have hle : (w.adding ls ms).maps.length ≤ (o₁.assign (w.adding ls ms) c).2.maps.length := by
        simp [hadded]
      obtain h | h := hmap'
      · exact h ▸ hmap.mono hle
      · exact h.later (by simp)
    · have hle : (w.adding ls ms).lists.length ≤ (o₁.assign (w.adding ls ms) c).2.lists.length := by
        simp [hadded]
      obtain h | h := hlist'
      · exact h ▸ hlist.mono hle
      · exact h.later (by simp)

end Options

namespace Change

variable {w w' : Workspace} {t t' : Tally} {r : Reply}

theorem done_eq_ok {e : Except Failure Workspace} (h : done t e = .ok (w', t', r)) :
    e = .ok w' := by
  obtain ⟨w₁, he, h⟩ := except_bind_ok h
  cases h
  exact he

theorem addPipe_eq_ok {s : PipeSource} {p : Pipe} (h : addPipe w t s = .ok (p, w', t')) :
    ∃ ss k, w' = { w with substitutors := ss, recorders := k } := by
  cases s with
  | named s =>
    obtain ⟨i, _, h⟩ := except_bind_ok h
    cases h
    exact ⟨_, _, rfl⟩
  | stocks entries =>
    obtain ⟨a, ha, h⟩ := except_bind_ok h
    obtain ⟨s, _, hs⟩ := except_bind_ok ha
    cases hs
    cases h
    exact ⟨_, _, rfl⟩
  | recorder rec =>
    cases h
    exact ⟨_, _, rfl⟩

theorem blockOptions_eq_ok {source : BlockSource} {o : Options}
    (h : blockOptions w source = .ok (o, w')) :
    (∃ given, source = .fields given ∧ Options.ofFields w given = .ok (o, w')) ∨
      ∃ name i, source = .options name ∧ w.optionsId name = .ok i ∧ w.optionsAt i = .ok o ∧
        w' = w := by
  cases source with
  | fields given => exact .inl ⟨given, rfl, h⟩
  | options name =>
    obtain ⟨o', ho, h⟩ := except_bind_ok h
    obtain ⟨i, hi, ho⟩ := except_bind_ok ho
    cases h
    exact .inr ⟨name, i, rfl, hi, ho, rfl⟩

theorem adding_of_blockOptions {source : BlockSource} {o : Options}
    (h : blockOptions w source = .ok (o, w')) : ∃ ls ms, w' = w.adding ls ms := by
  obtain ⟨given, -, ho⟩ | ⟨_, _, -, -, -, rfl⟩ := blockOptions_eq_ok h
  · exact (Options.renewed_ofFields ho).1
  · exact ⟨[], [], by simp⟩

theorem blockRecord_withBlock (w : Workspace) (label : String) (context : Datum)
    (parent : Option NodeId) (o : Options) (lines : List Datum) :
    let w' := w.withBlock label context parent o lines
    blockRecord w' label = .ok (.record [("lines", w'.resolve (.shared w.lists.length)),
      ("subs", w'.resolve (.shared (w.lists.length + 1))),
      ("attributes", w'.attributesOf w.maps.length), ("content_model", .str o.model.name)]) := by
  intro w'
  have hn : w'.nodeId label = .ok w.nodes.length := Workspace.nodeId_addNode ..
  have hb : w'.node w.nodes.length = .ok (.fresh w label parent context w.maps.length
      (.block o.model (.shared w.lists.length) (.shared (w.lists.length + 1)))) :=
    Workspace.node_addNode ..
  have hown : w'.ownOf w.nodes.length "lines" =
      .ok (o.model, .shared w.lists.length, .shared (w.lists.length + 1)) := except_bind_of_ok hb
  exact (except_bind_of_ok hn).trans <| (except_bind_of_ok hb).trans (except_bind_of_ok hown)

def Holds (w : Workspace) (on member : String) (l : ListId) : Prop :=
  ∃ n o, w.nodeId on = .ok n ∧ w.ownOf n member = .ok o ∧ .shared l ∈ [o.2.1, o.2.2]

theorem holds_of_lineList {on member : String} {l : ListId} (h : lineList w on member = .ok l) :
    Holds w on "lines" l := by
  obtain ⟨n, hn, h⟩ := except_bind_ok h
  obtain ⟨d, hd, h⟩ := except_bind_ok h
  obtain ⟨o, ho, hd⟩ := except_bind_ok hd
  cases hd
  exact ⟨n, o, hn, ho, by simp [Workspace.listOf_eq_ok h]⟩

theorem holds_of_subsOf {on : String} {n : NodeId} {d : Datum} {l : ListId}
    (hn : w.nodeId on = .ok n) (hd : w.subsOf n = .ok d)
    (hl : Workspace.listOf "append" d = .ok l) : Holds w on "subs" l := by
  obtain ⟨o, ho, hd⟩ := except_bind_ok hd
  cases hd
  exact ⟨n, o, hn, ho, by simp [Workspace.listOf_eq_ok hl]⟩

/-- The workspaces that a change can make of one. What it does not show in nodes, lists or options,
such as the parent of a new node or the methods of a substitutor, is left open. -/
inductive Makes (w : Workspace) : Change → Workspace → Prop
  | list {label : String} {d : Datum} {w' : Workspace} :
      w.newList label d = .ok w' → Makes w (.list label d) w'
  | appendItem {name : String} {d : Datum} {l : ListId} :
      w.listId name = .ok l → Makes w (.appendItem name d) (w.appendItem l d)
  | substitutor {label : String} {entries : List (String × Stock)} (s : Substitutor Tally) :
      Makes w (.substitutor label entries)
        ((w.addSubstitutor s).2.bindName label (.substitutor w.substitutors.length))
  | document {label : String} {attributes : Datum} {pipe : PipeSource} {converter : Converter}
      {ss : List (Substitutor Tally)} {k : Nat} {p : Pipe} {w' : Workspace} :
      { w with substitutors := ss, recorders := k }.addDocument label attributes p converter =
        .ok w' → Makes w (.document label attributes pipe converter) w'
  | plain {label : String} {context : Datum} {parent : Option String} (p : Option NodeId) :
      Makes w (.plain label context parent) (w.addPlain label context p)
  | options {label : String} {given : List (String × Datum)} {o : Options}
      {w₁ : Workspace} : Options.ofFields w given = .ok (o, w₁) →
      Makes w (.options label given) (w₁.addOptions label o)
  | block {label : String} {context : Datum} {parent : Option String} {source : BlockSource}
      {p : Option NodeId} {o : Options} {w₁ w' : Workspace} :
      blockOptions w source = .ok (o, w₁) → w₁.addBlock label context p o = .ok w' →
      Makes w (.block label context parent source) w'
  | setOption {on field : String} {d : Datum} {f : OptionField} {i : Nat} {o o' : Options}
      {w₁ : Workspace} : OptionField.named? field = some f → w.optionsId on = .ok i →
      w.optionsAt i = .ok o → o.set w f d = .ok (o', w₁) →
      Makes w (.setOption on field d) (w₁.setOptions i o')
  | setLines {on : String} {d : Datum} {n : NodeId} {w' : Workspace} :
      w.nodeId on = .ok n → w.setLines n d = .ok w' → Makes w (.setLines on d) w'
  | appendLine {on : String} {d : Datum} {l : ListId} :
      Holds w on "lines" l → Makes w (.appendLine on d) (w.appendItem l d)
  | insertLine {on : String} {i : Int} {d : Datum} {l : ListId} {w' : Workspace} :
      Holds w on "lines" l → w.insertItem l i d = .ok w' → Makes w (.insertLine on i d) w'
  | popLine {on : String} {d : Datum} {l : ListId} {w' : Workspace} :
      Holds w on "lines" l → w.popItem l = .ok (d, w') → Makes w (.popLine on) w'
  | setSubs {on : String} {d : Datum} {n : NodeId} {w' : Workspace} :
      w.nodeId on = .ok n → w.setSubs n d = .ok w' → Makes w (.setSubs on d) w'
  | appendSub {on : String} {d : Datum} {l : ListId} :
      Holds w on "subs" l → Makes w (.appendSub on d) (w.appendItem l d)
  | setAttribute {on : String} {name : Value} {d : Datum} {n : NodeId} {w' : Workspace} :
      w.nodeId on = .ok n → w.setAttribute n name d = .ok w' → Makes w (.setAttribute on name d) w'
  | setField {on : String} {f : NodeField} {d : Datum} {n : NodeId} {w' : Workspace} :
      w.nodeId on = .ok n → w.setField n f d = .ok w' → Makes w (.setField on f d) w'
  | append {on child : String} {p c : NodeId} {w' : Workspace} :
      w.nodeId on = .ok p → w.nodeId child = .ok c → w.append p c = .ok w' →
      Makes w (.append on child) w'
  | register {on name : String} {stock : Stock} (i : Nat) (s : Substitutor Tally) :
      Makes w (.register on name stock) (w.setSubstitutor i s)
  | unregister {on name : String} (i : Nat) (s : Substitutor Tally) :
      Makes w (.unregister on name) (w.setSubstitutor i s)

theorem makes_of_apply {c : Change} (h : c.apply w t = .ok (w', t', r)) : Makes w c w' := by
  cases c with
  | list label d => exact .list (done_eq_ok h)
  | appendItem name d =>
    obtain ⟨l, hl, h⟩ := except_bind_ok h
    cases done_eq_ok h
    exact .appendItem hl
  | substitutor label entries =>
    obtain ⟨a, ha, h⟩ := except_bind_ok h
    obtain ⟨s, _, hs⟩ := except_bind_ok ha
    cases hs
    cases h
    exact .substitutor s
  | document label attributes pipe converter =>
    obtain ⟨⟨p, w₁, t₁⟩, ha, h⟩ := except_bind_ok h
    obtain ⟨_, _, rfl⟩ := addPipe_eq_ok ha
    exact .document (done_eq_ok h)
  | plain label context parent =>
    obtain ⟨p, _, h⟩ := except_bind_ok h
    cases done_eq_ok h
    exact .plain p
  | options label given =>
    simp only [apply] at h
    split at h
    · cases h
    · obtain ⟨⟨o, w₁⟩, ho, h⟩ := except_bind_ok h
      cases h
      exact .options ho
  | block label context parent source =>
    obtain ⟨p, _, h⟩ := except_bind_ok h
    obtain ⟨⟨o, w₁⟩, ho, h⟩ := except_bind_ok h
    obtain ⟨w₂, hw, h⟩ := except_bind_ok h
    obtain ⟨rec, _, h⟩ := except_bind_ok h
    cases h
    exact .block ho hw
  | setOption on field d =>
    obtain ⟨i, hi, h⟩ := except_bind_ok h
    split at h
    next f hf =>
      obtain ⟨o, ho, h⟩ := except_bind_ok h
      obtain ⟨⟨o', w₁⟩, ho', h⟩ := except_bind_ok h
      cases h
      exact .setOption hf hi ho ho'
    next => cases h
  | setLines on d =>
    obtain ⟨n, hn, h⟩ := except_bind_ok h
    exact .setLines hn (done_eq_ok h)
  | appendLine on d =>
    obtain ⟨l, hl, h⟩ := except_bind_ok h
    cases done_eq_ok h
    exact .appendLine (holds_of_lineList hl)
  | insertLine on i d =>
    obtain ⟨l, hl, h⟩ := except_bind_ok h
    exact .insertLine (holds_of_lineList hl) (done_eq_ok h)
  | popLine on =>
    obtain ⟨l, hl, h⟩ := except_bind_ok h
    obtain ⟨⟨d, w₁⟩, hp, h⟩ := except_bind_ok h
    cases h
    exact .popLine (holds_of_lineList hl) hp
  | setSubs on d =>
    obtain ⟨n, hn, h⟩ := except_bind_ok h
    exact .setSubs hn (done_eq_ok h)
  | appendSub on d =>
    obtain ⟨n, hn, h⟩ := except_bind_ok h
    obtain ⟨subs, hsubs, h⟩ := except_bind_ok h
    obtain ⟨l, hl, h⟩ := except_bind_ok h
    cases done_eq_ok h
    exact .appendSub (holds_of_subsOf hn hsubs hl)
  | setAttribute on name d =>
    obtain ⟨n, hn, h⟩ := except_bind_ok h
    exact .setAttribute hn (done_eq_ok h)
  | setField on f d =>
    obtain ⟨n, hn, h⟩ := except_bind_ok h
    exact .setField hn (done_eq_ok h)
  | append on child =>
    obtain ⟨c, hc, h⟩ := except_bind_ok h
    obtain ⟨p, hp, h⟩ := except_bind_ok h
    obtain ⟨w₁, hw, h⟩ := except_bind_ok h
    cases h
    exact .append hp hc hw
  | register on name stock =>
    obtain ⟨i, _, h⟩ := except_bind_ok h
    obtain ⟨s, _, h⟩ := except_bind_ok h
    cases h
    exact .register i s
  | unregister on name =>
    obtain ⟨i, _, h⟩ := except_bind_ok h
    cases h
    exact .unregister i _

end Change

end BlockTree

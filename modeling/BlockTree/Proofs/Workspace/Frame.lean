import BlockTree.Proofs.Workspace.Changing
import BlockTree.Proofs.Workspace.Link

/-! How the steps of a session change the links of its nodes: a new node has no children, appending
links one child, and every other step leaves all links alone. -/
namespace BlockTree

open Link (documentAt)

namespace Workspace

variable {w w' : Workspace}

@[simp]
theorem getElem?_links (w : Workspace) (n : NodeId) : w.links[n]? = w.nodes[n]?.map Node.link :=
  List.getElem?_map ..

@[simp]
theorem length_links (w : Workspace) : w.links.length = w.nodes.length := List.length_map ..

@[simp]
theorem documentAt_links (w : Workspace) (n : NodeId) :
    documentAt w.links n = w.nodes[n]?.bind (·.document) := by
  cases h : w.nodes[n]? <;> simp [documentAt, Node.link, h]

theorem links_congr (h : w'.nodes = w.nodes) : w'.links = w.links := congrArg (List.map Node.link) h

@[simp]
theorem links_setNode (n : NodeId) (b : Node) : (w.setNode n b).links = w.links.set n b.link :=
  List.map_set

theorem links_setNode_of_link {n : NodeId} {b b' : Node} (hb : w.node n = .ok b)
    (h : b'.link = b.link) : (w.setNode n b').links = w.links := by
  have hn : w.links[n]? = some b.link := by simp [node_eq_ok_iff.1 hb]
  rw [links_setNode, h]
  apply List.ext_getElem?
  intro i
  by_cases hi : n = i
  · subst hi
    rw [List.getElem?_set_self' , hn]
    rfl
  · rw [List.getElem?_set_ne hi]

@[simp]
theorem links_addNode (b : Node) : (w.addNode b).links = w.links ++ [b.link] := by
  simp [links]

theorem fresh_link (w : Workspace) (label : String) (parent : Option NodeId) (context : Datum)
    (m : MapId) (body : Body) (h : body.root = none) :
    Link.Fresh w.links (Node.fresh w label parent context m body).link := by
  have hd : (Node.fresh w label parent context m body).link =
      ⟨parent, parent.bind (documentAt w.links), [], none⟩ := by
    rw [show documentAt w.links = fun p => w.nodes[p]?.bind (·.document) from
      funext (documentAt_links w)]
    simp only [Node.fresh, Node.link, h]
  rw [hd]
  exact .node parent

theorem links_append {p c : NodeId} (h : w.append p c = .ok w') :
    p < w.links.length ∧ c < w.links.length ∧ w'.links = Link.attach p c w.links := by
  obtain ⟨a, ha, h⟩ := except_bind_ok h
  obtain ⟨b, hb, h⟩ := except_bind_ok h
  obtain ⟨a', ha', h⟩ := except_bind_ok h
  cases h
  rw [node_eq_ok_iff] at ha hb ha'
  have hp : p < w.links.length := by simpa using (List.getElem?_eq_some_iff.1 ha).1
  have hc : c < w.links.length := by simpa using (List.getElem?_eq_some_iff.1 hb).1
  have hl : documentAt w.links p = a.document := by simp [ha]
  have hlp : w.links[p]? = some a.link := by simp [ha]
  have hlc : w.links[c]? = some b.link := by simp [hb]
  refine ⟨hp, hc, ?_⟩
  apply List.ext_getElem?
  intro i
  rw [links_setNode, links_setNode, Link.attach, List.getElem?_mapIdx, hl]
  by_cases hip : i = p
  · subst hip
    rw [List.getElem?_set_self (by rwa [List.length_set]), hlp]
    by_cases hci : c = i
    · subst hci
      have hab : a = b := Option.some.inj (ha.symm.trans hb)
      rw [setNode, List.getElem?_set_self (List.getElem?_eq_some_iff.1 hb).1] at ha'
      cases ha'
      simp [Node.link, hab]
    · rw [setNode, List.getElem?_set_ne hci, ha] at ha'
      cases ha'
      simp [Node.link, Ne.symm hci]
  · rw [List.getElem?_set_ne (Ne.symm hip)]
    by_cases hic : i = c
    · subst hic
      rw [List.getElem?_set_self hc, hlc]
      simp [Node.link, hip]
    · rw [List.getElem?_set_ne (Ne.symm hic)]
      cases w.links[i]? <;> simp [hip, hic]

theorem append_eq_ok {p c : NodeId} (hp : p < w.nodes.length) (hc : c < w.nodes.length) :
    ∃ w', w.append p c = .ok w' := by
  have ha : w.node p = .ok w.nodes[p] := node_eq_ok_iff.2 (List.getElem?_eq_getElem hp)
  have hb : w.node c = .ok w.nodes[c] := node_eq_ok_iff.2 (List.getElem?_eq_getElem hc)
  let w₁ := w.setNode c { w.nodes[c] with parent := some p, document := w.nodes[p].document }
  have hs : p < w₁.nodes.length := by simpa [w₁, setNode] using hp
  have ha' : w₁.node p = .ok w₁.nodes[p] := node_eq_ok_iff.2 (List.getElem?_eq_getElem hs)
  exact ⟨_, (except_bind_of_ok ha).trans <| (except_bind_of_ok hb).trans <|
    (except_bind_of_ok ha').trans rfl⟩

theorem nodes_newList {name : String} {d : Datum} (h : w.newList name d = .ok w') :
    w'.nodes = w.nodes := by
  obtain ⟨ds, _, h⟩ := except_bind_ok h
  cases h
  rfl

@[simp]
theorem nodes_place (w : Workspace) (d : Datum) : (w.place d).2.nodes = w.nodes := by
  unfold place
  split <;> rfl

@[simp]
theorem node_place (w : Workspace) (d : Datum) (n : NodeId) :
    (w.place d).2.node n = w.node n := by
  simp [node]

theorem ownOf_eq_ok {n : NodeId} {b : Node} {member : String} {o : ContentModel × Datum × Datum}
    (hb : w.node n = .ok b) (h : w.ownOf n member = .ok o) :
    b.body = .block o.1 o.2.1 o.2.2 := by
  simp only [ownOf, hb, bind, Except.bind] at h
  split at h
  next model lines subs hbody =>
    cases h
    exact hbody
  · cases h

theorem links_setBody {n : NodeId} {b : Node} {member : String} {d : Datum}
    {o : ContentModel × Datum × Datum} (hb : w.node n = .ok b) (ho : w.ownOf n member = .ok o)
    (lines subs : Datum) :
    ((w.place d).2.setNode n { b with body := .block o.1 lines subs }).links = w.links := by
  rw [links_setNode_of_link ((w.node_place d n).trans hb), links_congr (nodes_place w d)]
  simp [Node.link, Body.root, ownOf_eq_ok hb ho]

theorem links_setLines {n : NodeId} {d : Datum} (h : w.setLines n d = .ok w') :
    w'.links = w.links := by
  obtain ⟨b, o, hb, ho, rfl⟩ := setLines_eq_ok h
  exact links_setBody hb ho _ _

theorem links_setSubs {n : NodeId} {d : Datum} (h : w.setSubs n d = .ok w') :
    w'.links = w.links := by
  obtain ⟨b, o, hb, ho, rfl⟩ := setSubs_eq_ok h
  exact links_setBody hb ho _ _

theorem links_setAttribute {n : NodeId} {key : Value} {d : Datum}
    (h : w.setAttribute n key d = .ok w') : w'.links = w.links := by
  obtain ⟨b, hb, h⟩ := except_bind_ok h
  split at h
  · cases h
    rfl
  · cases h

theorem links_setField {n : NodeId} {f : NodeField} {d : Datum} (h : w.setField n f d = .ok w') :
    w'.links = w.links := by
  obtain ⟨b, hb, h⟩ := except_bind_ok h
  cases f with
  | model => cases h
  | style | id | title | context =>
    cases h
    exact links_setNode_of_link hb rfl

theorem links_addDocument {label : String} {attributes : Datum} {p : Pipe} {c : Converter}
    (h : w.addDocument label attributes p c = .ok w') :
    ∃ l, Link.Fresh w.links l ∧ w'.links = w.links ++ [l] := by
  obtain ⟨es, _, h⟩ := except_bind_ok h
  cases h
  refine ⟨_, ?_, links_addNode _⟩
  have hf : Link.Fresh w.links ⟨none, some w.links.length, [], some (p, c)⟩ := .document (p, c)
  rwa [length_links] at hf

theorem links_addBlock {label : String} {context : Datum} {parent : Option NodeId} {o : Options}
    (h : w.addBlock label context parent o = .ok w') :
    ∃ l, Link.Fresh w.links l ∧ w'.links = w.links ++ [l] := by
  obtain ⟨lines, -, rfl⟩ := addBlock_eq_ok h
  exact ⟨_, fresh_link w label parent context w.maps.length _ rfl, links_addNode _⟩

end Workspace

def Change.attachment? (w : Workspace) : Change → Option (NodeId × NodeId)
  | .append on child => match w.nodeId on, w.nodeId child with
    | .ok p, .ok c => if p < w.nodes.length ∧ c < w.nodes.length then some (p, c) else none
    | _, _ => none
  | _ => none

namespace Change

variable {w w' : Workspace} {t t' : Tally} {r : Reply}

/-- Every change keeps the links, adds a node without children, or links one child. -/
theorem step_links {c : Change} (h : c.apply w t = .ok (w', t', r)) :
    Link.Step w.links (c.attachment? w) w'.links := by
  have keep (h : w'.links = w.links) : Link.Step w.links none w'.links := by
    rw [h]
    exact .keep
  have create (h : ∃ l, Link.Fresh w.links l ∧ w'.links = w.links ++ [l]) :
      Link.Step w.links none w'.links := by
    obtain ⟨l, hl, hw⟩ := h
    rw [hw]
    exact .create hl
  cases makes_of_apply h with
  | list hw => exact keep (Workspace.links_congr (Workspace.nodes_newList hw))
  | document hw => exact create (Workspace.links_addDocument hw :)
  | @plain label context _ p =>
    exact create ⟨_, Workspace.fresh_link w label p context _ .plain rfl, Workspace.links_addNode _⟩
  | options ho =>
    obtain ⟨⟨_, _, rfl⟩, -, -⟩ := Options.renewed_ofFields ho
    exact keep rfl
  | block ho hw =>
    obtain ⟨_, _, rfl⟩ := adding_of_blockOptions ho
    exact create (Workspace.links_addBlock hw :)
  | setOption _ _ _ ho =>
    obtain ⟨_, _, rfl⟩ := (Options.renewed_set ho).added
    exact keep rfl
  | setLines _ hw => exact keep (Workspace.links_setLines hw)
  | setSubs _ hw => exact keep (Workspace.links_setSubs hw)
  | setAttribute _ hw => exact keep (Workspace.links_setAttribute hw)
  | setField _ hw => exact keep (Workspace.links_setField hw)
  | insertLine _ hw =>
    obtain ⟨ds, rfl⟩ := Workspace.insertItem_eq_ok hw
    exact keep rfl
  | popLine _ hw =>
    obtain ⟨ds, rfl⟩ := Workspace.popItem_eq_ok hw
    exact keep rfl
  | append hp hc hw =>
    obtain ⟨hlp, hlc, hl⟩ := Workspace.links_append hw
    have hlt := And.intro hlp hlc
    rw [Workspace.length_links] at hlt
    rw [hl]
    simp only [attachment?, hc, hp, if_pos hlt]
    exact .attach hlp hlc
  | appendItem | substitutor | appendLine | appendSub | register | unregister => exact keep rfl

/-- Appending nodes that exist does not fail. -/
theorem attachment?_eq_none {c : Change} {f : Failure} (h : c.apply w t = .error f) :
    c.attachment? w = none := by
  cases c with
  | append on child =>
    simp only [attachment?]
    split
    next p q hp hq =>
      by_cases hlt : p < w.nodes.length ∧ q < w.nodes.length
      · obtain ⟨w', ha⟩ := Workspace.append_eq_ok hlt.1 hlt.2
        have hok : apply w t (.append on child) = .ok (w', t, .value (w'.label q)) :=
          (except_bind_of_ok hq).trans <| (except_bind_of_ok hp).trans <|
            (except_bind_of_ok ha).trans rfl
        rw [hok] at h
        cases h
      · rw [if_neg hlt]
    · rfl
  | _ => rfl

end Change

def Step.attachment? (w : Workspace) : Step → Option (NodeId × NodeId)
  | .change c => c.attachment? w
  | _ => none

namespace Session

theorem act_of_apply {s : Session} {c : Change} {w : Workspace} {t : Tally} {r : Reply}
    (h : c.apply s.workspace s.tally = .ok (w, t, r)) :
    s.act (.change c) = ({ s with workspace := w, tally := t }, .ok r, []) := by
  simp only [act, h]

theorem act_of_apply_error {s : Session} {c : Change} {f : Failure}
    (h : c.apply s.workspace s.tally = .error f) : s.act (.change c) = (s, .error f, []) := by
  simp only [act, h]

theorem step_fst (s : Session) (x : Step) : (s.step x).1 = (s.act x).1 := by
  unfold step
  split
  next h => rw [h]
  · rfl

/-- Loading changes substitutors alone, and may give a new one its name. -/
theorem workspace_load (s : Session) (plugin : String) (on label : Option String) :
    ∃ ss, (s.act (.load plugin on label)).1.workspace = { s.workspace with substitutors := ss } ∨
      ∃ name i, (s.act (.load plugin on label)).1.workspace =
          { s.workspace with substitutors := ss }.bindName name (.substitutor i) ∧
        ∃ r, (s.act (.load plugin on label)).2.1 = .ok r := by
  cases on with
  | some on =>
    simp only [act, loadInto]
    split
    · exact ⟨_, .inl rfl⟩
    · split <;> exact ⟨_, .inl rfl⟩
  | none =>
    simp only [act, loadNew]
    split
    · exact ⟨_, .inl rfl⟩
    · exact ⟨_, .inr ⟨_, _, rfl, _, rfl⟩⟩

theorem step_links (s : Session) (x : Step) :
    Link.Step s.workspace.links (x.attachment? s.workspace) (s.step x).1.workspace.links := by
  rw [step_fst]
  cases x with
  | query q => exact .keep
  | change c =>
    simp only [act, Step.attachment?]
    cases h : c.apply s.workspace s.tally with
    | ok a => exact Change.step_links h
    | error f =>
      rw [Change.attachment?_eq_none h]
      exact .keep
  | load plugin on label =>
    obtain ⟨ss, h | ⟨name, i, h, -⟩⟩ := s.workspace_load plugin on label <;> rw [h] <;> exact .keep

end Session

end BlockTree

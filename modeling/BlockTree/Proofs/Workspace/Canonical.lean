import BlockTree.Proofs.Workspace.Carried
import BlockTree.Proofs.Workspace.Ownership
import BlockTree.Proofs.Workspace.Proper

/-! Options and blocks over any run. A block is made with a model, attributes and lists of its own,
and whatever is done later, its model stays. A step that fails changes no options, no block, no list
and no mapping. -/
namespace BlockTree

/-- What can become of a node: it may be edited, but not turned into another kind of node. -/
structure Node.Turns (b b' : Node) : Prop where
  kind : b'.body.kind = b.body.kind
  model : b'.body.model = b.body.model
  attributes : b'.attributes = b.attributes

namespace Node.Turns

variable {b b' b'' : Node}

theorem refl (b : Node) : b.Turns b := ⟨rfl, rfl, rfl⟩

theorem trans (h : b.Turns b') (h' : b'.Turns b'') : b.Turns b'' where
  kind := h'.kind.trans h.kind
  model := h'.model.trans h.model
  attributes := h'.attributes.trans h.attributes

theorem of_body (hbody : b'.body = b.body) (hattributes : b'.attributes = b.attributes) :
    b.Turns b' := ⟨by rw [hbody], by rw [hbody], hattributes⟩

end Node.Turns

/-- What can become of nodes at once: some are edited, or there is a new one with a mapping whose
place is below `k`. -/
inductive Amended (k : Nat) (bs : List Node) : List Node → Prop
  | keep : Amended k bs bs
  | new {b : Node} : b.attributes < k → Amended k bs (bs ++ [b])
  | edit {bs' : List Node} {n : NodeId} {b b' : Node} : Amended k bs bs' → bs'[n]? = some b →
      b.Turns b' → Amended k bs (bs'.set n b')

namespace Amended

variable {k : Nat} {bs bs' : List Node} {n : NodeId} {b : Node}

theorem turns (h : Amended k bs bs') (hb : bs[n]? = some b) :
    ∃ b', bs'[n]? = some b' ∧ b.Turns b' := by
  induction h with
  | keep => exact ⟨b, hb, .refl b⟩
  | new _ =>
    exact ⟨b, by rw [List.getElem?_append_left (List.getElem?_eq_some_iff.1 hb).1, hb], .refl b⟩
  | @edit bs' m c c' _ hc hturns ih =>
    obtain ⟨b', hb', hb''⟩ := ih
    by_cases hm : m = n
    · subst hm
      obtain rfl : b' = c := Option.some.inj (hb'.symm.trans hc)
      exact ⟨c', List.getElem?_set_self (List.getElem?_eq_some_iff.1 hc).1, hb''.trans hturns⟩
    · exact ⟨b', by rw [List.getElem?_set_ne hm, hb'], hb''⟩

theorem attributes_lt (h : Amended k bs bs') (hbs : ∀ b ∈ bs, b.attributes < k) :
    ∀ b ∈ bs', b.attributes < k := by
  induction h with
  | keep => exact hbs
  | new hnew => exact List.forall_mem_append.2 ⟨hbs, List.forall_mem_singleton.2 hnew⟩
  | edit _ hc hturns ih =>
    intro b hb
    obtain hb | rfl := List.mem_or_eq_of_mem_set hb
    · exact ih b hb
    · rw [hturns.attributes]
      exact ih _ (List.mem_of_getElem? hc)

end Amended

namespace Workspace

variable {w w' : Workspace} {n : NodeId} {k : Nat}

theorem amended_setNode {b b' : Node} (hb : w.node n = .ok b) (h : b.Turns b') :
    Amended k w.nodes (w.setNode n b').nodes := .edit .keep (node_eq_ok_iff.1 hb) h

theorem amended_setBody {b : Node} {member : String} {o : ContentModel × Datum × Datum} (d : Datum)
    (lines subs : Datum) (hb : w.node n = .ok b) (ho : w.ownOf n member = .ok o) :
    Amended k (w.place d).2.nodes
      ((w.place d).2.setNode n { b with body := .block o.1 lines subs }).nodes := by
  have hbody := ownOf_eq_ok hb ho
  refine amended_setNode ((w.node_place d n).trans hb) ⟨?_, ?_, rfl⟩ <;> rw [hbody] <;> rfl

theorem amended_setField {f : NodeField} {d : Datum} (h : w.setField n f d = .ok w') :
    Amended k w.nodes w'.nodes := by
  obtain ⟨b, hb, h⟩ := except_bind_ok h
  cases f with
  | model => cases h
  | style | id | title | context =>
    cases h
    exact amended_setNode hb (.of_body rfl rfl)

theorem amended_append {p c : NodeId} (h : w.append p c = .ok w') :
    Amended k w.nodes w'.nodes := by
  obtain ⟨a, _, h⟩ := except_bind_ok h
  obtain ⟨b, hb, h⟩ := except_bind_ok h
  obtain ⟨a', ha', h⟩ := except_bind_ok h
  cases h
  -- the child is edited first, and then its parent as it is by then
  exact .edit (amended_setNode hb (.of_body rfl rfl)) (node_eq_ok_iff.1 ha') (.of_body rfl rfl)

/-- One more block, with a model, lists and a mapping of its own. The new lists and the new mapping
hold what those of the options hold. -/
structure Gains (w : Workspace) (o : Options) (lines : List Datum) (w' : Workspace) : Prop where
  node : ∃ b, w'.nodes = w.nodes ++ [b] ∧ b.attributes = w.maps.length ∧
    b.body = .block o.model (.shared w.lists.length) (.shared (w.lists.length + 1))
  lists : w'.lists = w.lists ++ [lines, w.listAt o.subs]
  maps : w'.maps = w.maps ++ [w.entriesAt o.attributes]
  options : w'.options = w.options

theorem gains_withBlock (w : Workspace) (label : String) (context : Datum)
    (parent : Option NodeId) (o : Options) (lines : List Datum) :
    w.Gains o lines (w.withBlock label context parent o lines) :=
  ⟨⟨_, rfl, rfl, rfl⟩, rfl, rfl, rfl⟩

theorem setAttribute_eq_ok {key : Value} {d : Datum} (h : w.setAttribute n key d = .ok w') :
    ∃ b : Node, key.hashable = true ∧
      w' = w.setMap b.attributes ((w.entriesAt b.attributes).put key d) := by
  obtain ⟨b, _, h⟩ := except_bind_ok h
  split at h
  next hkey =>
    cases h
    exact ⟨b, hkey, rfl⟩
  next => cases h

@[simp]
theorem nodeId_addOptions (w : Workspace) (label : String) (o : Options) (name : String) :
    (w.addOptions label o).nodeId name = w.nodeId name := by
  have hnone : (if label = name then Ref.node? (.options w.options.length) else none) = none :=
    ite_self none
  simp only [nodeId, named, addOptions, bindName, List.findSome?_cons, hnone]

@[simp]
theorem optionsId_addOptions (w : Workspace) (label : String) (o : Options) :
    (w.addOptions label o).optionsId label = .ok w.options.length := by
  simp [optionsId, named, addOptions, bindName, Ref.options?]

@[simp]
theorem optionsAt_addOptions (w : Workspace) (label : String) (o : Options) :
    (w.addOptions label o).optionsAt w.options.length = .ok o := by
  simp [optionsAt, addOptions, bindName]

end Workspace

namespace Options

def recognised (given : List (String × Datum)) : List (String × Datum) :=
  given.filter fun g => (OptionField.named? g.1).isSome

variable {w : Workspace} {given : List (String × Datum)} {name : String}

theorem ofFields_singleton {f : OptionField} (h : OptionField.named? name = some f) (d : Datum) :
    ofFields w [(name, d)] =
      (convert w d f >>= fun c => pure ((default w).1.assign (default w).2 c)) := by
  unfold OptionField.named? at h
  split at h <;> cases h
  all_goals
    rw [ofFields]
    simp only [List.foldlM_cons, List.foldlM_nil, OptionField.named?, List.lookup_cons,
      List.lookup_nil, beq_self_eq_true]
  · cases convert w d .model <;> rfl
  · cases convert w d .attributes <;> rfl
  · cases convert w d .subs <;> rfl
  · rfl

theorem lookup_recognised (h : (OptionField.named? name).isSome = true) :
    (recognised given).lookup name = given.lookup name := by
  induction given with
  | nil => rfl
  | cons g given ih =>
    obtain ⟨n, d⟩ := g
    rw [recognised, List.filter_cons]
    by_cases hname : name = n
    · rw [if_pos (by rwa [← hname]), List.lookup_cons, List.lookup_cons, hname, beq_self_eq_true]
    · have hne : (name == n) = false := beq_false_of_ne hname
      split
      · rw [List.lookup_cons, List.lookup_cons, hne]
        exact ih
      · rw [List.lookup_cons, hne]
        exact ih

theorem ofFields_recognised (w : Workspace) (given : List (String × Datum)) :
    ofFields w (recognised given) = ofFields w given := by
  unfold ofFields
  congr 1
  funext x name
  cases hname : OptionField.named? name with
  | none => rfl
  | some f => rw [lookup_recognised (by rw [hname]; rfl)]

theorem stray?_recognised (given : List (String × Datum)) : stray? (recognised given) = none := by
  rw [stray?, Option.map_eq_none_iff, List.find?_eq_none]
  intro g hg
  rw [Option.isNone_iff_eq_none, ← ne_eq, Option.ne_none_iff_isSome]
  exact (List.mem_filter.1 hg).2

end Options

namespace Change

def Proper : Change → Prop
  | .document _ d _ _ | .setOption _ _ d => d.Proper
  | .options _ given | .block _ _ _ (.fields given) => ∀ g ∈ given, g.2.Proper
  | _ => True

variable {w w' : Workspace} {t t' : Tally} {r : Reply} {c : Change}

theorem amended_apply (h : c.apply w t = .ok (w', t', r)) :
    Amended w'.maps.length w.nodes w'.nodes := by
  cases makes_of_apply h with
  | list hw =>
    rw [Workspace.nodes_newList hw]
    exact .keep
  | document hw =>
    obtain ⟨es, _, hw⟩ := except_bind_ok hw
    simp only [Workspace.addMap_eq] at hw
    cases hw
    exact .new (by simp [Node.fresh])
  | plain p => exact .new (by simp [Workspace.addPlain, Node.fresh])
  | options ho =>
    obtain ⟨⟨ls, ms, rfl⟩, -⟩ := Options.renewed_ofFields ho
    exact .keep
  | block ho hw =>
    obtain ⟨ls, ms, rfl⟩ := adding_of_blockOptions ho
    obtain ⟨lines, -, rfl⟩ := Workspace.addBlock_eq_ok hw
    exact .new (by simp [Workspace.withBlock, Node.fresh])
  | setOption _ _ _ ho =>
    obtain ⟨ls, ms, rfl⟩ := (Options.renewed_set ho).added
    exact .keep
  | @setLines _ d _ _ _ hw =>
    obtain ⟨b, o, hb, ho, rfl⟩ := Workspace.setLines_eq_ok hw
    exact w.nodes_place d ▸ Workspace.amended_setBody d _ _ hb ho
  | @setSubs _ d _ _ _ hw =>
    obtain ⟨b, o, hb, ho, rfl⟩ := Workspace.setSubs_eq_ok hw
    exact w.nodes_place d ▸ Workspace.amended_setBody d _ _ hb ho
  | insertLine _ hw =>
    obtain ⟨ds, rfl⟩ := Workspace.insertItem_eq_ok hw
    exact .keep
  | popLine _ hw =>
    obtain ⟨ds, rfl⟩ := Workspace.popItem_eq_ok hw
    exact .keep
  | setAttribute _ hw =>
    obtain ⟨b, hkey, rfl⟩ := Workspace.setAttribute_eq_ok hw
    exact .keep
  | setField _ hw => exact Workspace.amended_setField hw
  | append _ _ hw => exact Workspace.amended_append hw
  | appendItem | substitutor | appendLine | appendSub | register | unregister => exact .keep

end Change

/-- All mappings are such, and options and nodes refer to lists and mappings that there are. -/
structure Workspace.Canonical (w : Workspace) : Prop where
  maps : w.Proper
  options : ∀ o ∈ w.options, o.attributes < w.maps.length ∧ o.subs < w.lists.length
  nodes : ∀ b ∈ w.nodes, b.attributes < w.maps.length

namespace Workspace

variable {w w' : Workspace}

theorem Canonical.adding (h : w.Canonical) (ls : Lists) {ms : List DataEntries}
    (hms : ∀ es ∈ ms, es.Proper) : (w.adding ls ms).Canonical where
  maps := h.maps.adding ls hms
  options o ho := by
    obtain ⟨hmap, hlist⟩ := h.options o ho
    simp only [maps_adding, lists_adding, List.length_append]
    exact ⟨Nat.lt_add_right _ hmap, Nat.lt_add_right _ hlist⟩
  nodes b hb := by
    simp only [maps_adding, List.length_append]
    exact Nat.lt_add_right _ (h.nodes b hb)

theorem Canonical.place (h : w.Canonical) (d : Datum) : (w.place d).2.Canonical := by
  obtain ⟨ls, hplace, -⟩ := w.place_eq d
  rw [hplace]
  exact h.adding ls (List.forall_mem_nil _)

theorem Canonical.setList (h : w.Canonical) (l : ListId) (ds : List Datum) :
    (w.setList l ds).Canonical where
  maps := h.maps
  options := by
    rw [length_lists_setList]
    exact h.options
  nodes := h.nodes

theorem Canonical.setMap (h : w.Canonical) (m : MapId) {es : DataEntries} (hes : es.Proper) :
    (w.setMap m es).Canonical where
  maps es' hes' := (List.mem_or_eq_of_mem_set hes').elim (h.maps es') fun heq => heq ▸ hes
  options := by
    simp only [Workspace.setMap, List.length_set]
    exact h.options
  nodes := by
    simp only [Workspace.setMap, List.length_set]
    exact h.nodes

theorem Canonical.amended (h : w.Canonical) {bs : List Node}
    (hbs : Amended w.maps.length w.nodes bs) : Canonical { w with nodes := bs } :=
  ⟨h.maps, h.options, hbs.attributes_lt h.nodes⟩

theorem Canonical.setBody (h : w.Canonical) {n : NodeId} {b : Node} {d : Datum} {member : String}
    {o : ContentModel × Datum × Datum} (lines subs : Datum) (hb : w.node n = .ok b)
    (ho : w.ownOf n member = .ok o) :
    ((w.place d).2.setNode n { b with body := .block o.1 lines subs }).Canonical :=
  (h.place d).amended (amended_setBody d lines subs hb ho)

theorem Canonical.bindName (h : w.Canonical) (name : String) (r : Ref) :
    (w.bindName name r).Canonical := ⟨h.maps, h.options, h.nodes⟩

theorem Canonical.addNode (h : w.Canonical) {b : Node} (hb : b.attributes < w.maps.length) :
    (w.addNode b).Canonical := (h.amended (.new hb)).bindName _ _

theorem Canonical.addOptions (h : w.Canonical) (name : String) {o : Options}
    (ho : o.attributes < w.maps.length ∧ o.subs < w.lists.length) :
    (w.addOptions name o).Canonical :=
  ⟨h.maps, List.forall_mem_append.2 ⟨h.options, List.forall_mem_singleton.2 ho⟩, h.nodes⟩

theorem Canonical.setOptions (h : w.Canonical) (i : Nat) {o : Options}
    (ho : o.attributes < w.maps.length ∧ o.subs < w.lists.length) :
    (w.setOptions i o).Canonical :=
  ⟨h.maps, fun p hp => (List.mem_or_eq_of_mem_set hp).elim (h.options p) fun heq => heq ▸ ho,
    h.nodes⟩

theorem Canonical.append (h : w.Canonical) {p c : NodeId} (hw : w.append p c = .ok w') :
    w'.Canonical := by
  have hnodes : Amended w.maps.length w.nodes w'.nodes := amended_append hw
  obtain ⟨a, _, hw⟩ := except_bind_ok hw
  obtain ⟨b, _, hw⟩ := except_bind_ok hw
  obtain ⟨a', _, hw⟩ := except_bind_ok hw
  cases hw
  exact h.amended hnodes

theorem Canonical.setField (h : w.Canonical) {n : NodeId} {f : NodeField} {d : Datum}
    (hw : w.setField n f d = .ok w') : w'.Canonical := by
  have hnodes : Amended w.maps.length w.nodes w'.nodes := amended_setField hw
  obtain ⟨b, _, hw⟩ := except_bind_ok hw
  cases f <;> cases hw <;> exact h.amended hnodes

theorem Canonical.addBlock (h : w.Canonical) {label : String} {context : Datum}
    {parent : Option NodeId} {o : Options} (hw : w.addBlock label context parent o = .ok w') :
    w'.Canonical := by
  obtain ⟨lines, -, rfl⟩ := addBlock_eq_ok hw
  have hcopy := List.forall_mem_singleton.2 (h.maps.entriesAt o.attributes)
  exact (h.adding [lines, w.listAt o.subs] hcopy).addNode (by simp [Node.fresh])

end Workspace

namespace Change

variable {w w' : Workspace} {t t' : Tally} {r : Reply} {c : Change}

theorem canonical_ofFields {given : List (String × Datum)} {o : Options} (hw : w.Canonical)
    (hgiven : ∀ g ∈ given, g.2.Proper) (ho : Options.ofFields w given = .ok (o, w')) :
    w'.Canonical ∧ o.attributes < w'.maps.length ∧ o.subs < w'.lists.length := by
  have hproper := Options.proper_ofFields hw.maps hgiven ho
  obtain ⟨⟨ls, ms, rfl⟩, hmap, hlist⟩ := Options.renewed_ofFields ho
  exact ⟨hw.adding ls fun es hes => hproper es (List.mem_append_right _ hes), hmap.2, hlist.2⟩

theorem canonical_set {i : Nat} {o o' : Options} {f : OptionField} {d : Datum} (hw : w.Canonical)
    (hd : d.Proper) (ho : w.optionsAt i = .ok o) (hset : o.set w f d = .ok (o', w')) :
    (w'.setOptions i o').Canonical := by
  have hproper := Options.proper_set hw.maps hd hset
  have hrenewed := Options.renewed_set hset
  obtain ⟨ls, ms, rfl⟩ := hrenewed.added
  have hadded := hw.adding ls fun es hes => hproper es (List.mem_append_right w.maps hes)
  obtain ⟨hmap, hlist⟩ := hadded.options o (List.mem_of_getElem? (Workspace.optionsAt_eq_ok ho))
  refine hadded.setOptions i ⟨?_, ?_⟩
  · exact hrenewed.attributes.elim (fun h => h ▸ hmap) fun h => h.2
  · exact hrenewed.subs.elim (fun h => h ▸ hlist) fun h => h.2

theorem canonical_apply (hw : w.Canonical) (hc : c.Proper)
    (h : c.apply w t = .ok (w', t', r)) : w'.Canonical := by
  cases makes_of_apply h with
  | list hmade =>
    obtain ⟨ds, _, hmade⟩ := except_bind_ok hmade
    simp only [Workspace.addList_eq] at hmade
    cases hmade
    exact (hw.adding [ds] (List.forall_mem_nil _)).bindName _ _
  | appendItem | appendLine | appendSub => exact hw.setList _ _
  | @document _ _ _ _ ss k _ _ hmade =>
    obtain ⟨es, hes, hmade⟩ := except_bind_ok hmade
    simp only [Workspace.addMap_eq] at hmade
    cases hmade
    have hbeside : Workspace.Canonical { w with substitutors := ss, recorders := k } :=
      ⟨hw.maps, hw.options, hw.nodes⟩
    have hnew := List.forall_mem_singleton.2 (DataEntries.proper_ofDatum hc hes)
    refine (hbeside.adding [] hnew).addNode ?_
    simp [Node.fresh]
  | plain p =>
    simp only [Workspace.addPlain, Workspace.addMap_eq]
    exact (hw.adding [] (List.forall_mem_singleton.2 .nil)).addNode (by simp [Node.fresh])
  | options ho =>
    obtain ⟨hw', ho⟩ := canonical_ofFields hw hc ho
    exact hw'.addOptions _ ho
  | block ho hmade =>
    obtain ⟨given, rfl, ho⟩ | ⟨name, i, rfl, -, -, rfl⟩ := blockOptions_eq_ok ho
    · exact (canonical_ofFields hw hc ho).1.addBlock hmade
    · exact hw.addBlock hmade
  | setOption _ _ ho hset => exact canonical_set hw hc ho hset
  | setLines _ hmade =>
    obtain ⟨b, o, hb, ho, rfl⟩ := Workspace.setLines_eq_ok hmade
    exact hw.setBody _ _ hb ho
  | setSubs _ hmade =>
    obtain ⟨b, o, hb, ho, rfl⟩ := Workspace.setSubs_eq_ok hmade
    exact hw.setBody _ _ hb ho
  | insertLine _ hmade =>
    obtain ⟨ds, rfl⟩ := Workspace.insertItem_eq_ok hmade
    exact hw.setList _ ds
  | popLine _ hmade =>
    obtain ⟨ds, rfl⟩ := Workspace.popItem_eq_ok hmade
    exact hw.setList _ ds
  | setAttribute _ hmade =>
    obtain ⟨b, hkey, rfl⟩ := Workspace.setAttribute_eq_ok hmade
    exact hw.setMap _ ((hw.maps.entriesAt _).put hkey _)
  | setField _ hmade => exact hw.setField hmade
  | append _ _ hmade => exact hw.append hmade
  | substitutor | register | unregister => exact ⟨hw.maps, hw.options, hw.nodes⟩

end Change

def Step.Proper : Step → Prop
  | .change c => c.Proper
  | _ => True

namespace Session

variable {s : Session} {x : Step}

/-- A step is a change that succeeds, or leaves all but substitutors and names alone. -/
theorem act_cases (s : Session) (x : Step) :
    (∃ c w t r, x = .change c ∧ c.apply s.workspace s.tally = .ok (w, t, r) ∧
      (s.act x).1.workspace = w) ∨
    ∃ ss ns, (s.act x).1.workspace = { s.workspace with substitutors := ss, names := ns } := by
  cases x with
  | query q => exact .inr ⟨_, _, rfl⟩
  | change c =>
    simp only [act]
    cases h : c.apply s.workspace s.tally with
    | ok a => exact .inl ⟨c, a.1, a.2.1, a.2.2, rfl, h, rfl⟩
    | error f => exact .inr ⟨_, _, rfl⟩
  | load plugin on label =>
    obtain ⟨ss, h | ⟨name, i, h, -⟩⟩ := s.workspace_load plugin on label <;>
      exact .inr ⟨_, _, h⟩

theorem act_error {f : Failure} (h : (s.act x).2.1 = .error f) :
    ∃ ss, (s.act x).1.workspace = { s.workspace with substitutors := ss } := by
  cases x with
  | query q => exact ⟨_, rfl⟩
  | change c =>
    simp only [act] at h ⊢
    split at h
    next => cases h
    next => exact ⟨_, rfl⟩
  | load plugin on label =>
    obtain ⟨ss, heq | ⟨name, i, -, r, hr⟩⟩ := s.workspace_load plugin on label
    · exact ⟨ss, heq⟩
    · rw [hr] at h
      cases h

theorem canonical_step (hs : s.workspace.Canonical) (hx : x.Proper) :
    (s.step x).1.workspace.Canonical := by
  rw [step_fst]
  obtain ⟨c, w, t, r, rfl, h, heq⟩ | ⟨ss, ns, heq⟩ := act_cases s x <;> rw [heq]
  · exact Change.canonical_apply hs hx h
  · exact ⟨hs.maps, hs.options, hs.nodes⟩

theorem canonical_after {xs : List Step} (hs : s.workspace.Canonical) (hxs : ∀ x ∈ xs, x.Proper) :
    (s.after xs).workspace.Canonical := by
  induction xs generalizing s with
  | nil => exact hs
  | cons x xs ih =>
    obtain ⟨hx, hxs⟩ := List.forall_mem_cons.1 hxs
    exact ih (canonical_step hs hx) hxs

/-- Steps that are given no shared lists can be taken anywhere. -/
theorem known_after {xs : List Step} (h : s.workspace.Known) (hxs : ∀ x ∈ xs, x.Known 0) :
    (s.after xs).workspace.Known := by
  induction xs generalizing s with
  | nil => exact h
  | cons x xs ih =>
    obtain ⟨hx, hxs⟩ := List.forall_mem_cons.1 hxs
    exact ih (known_step h (hx.mono (Nat.zero_le _))) hxs

theorem turns_step {n : NodeId} {b : Node} (x : Step) (hb : s.workspace.nodes[n]? = some b) :
    ∃ b', (s.step x).1.workspace.nodes[n]? = some b' ∧ b.Turns b' := by
  rw [step_fst]
  obtain ⟨c, w, t, r, rfl, h, heq⟩ | ⟨ss, ns, heq⟩ := act_cases s x <;> rw [heq]
  · exact (Change.amended_apply h).turns hb
  · exact ⟨b, hb, .refl b⟩

theorem turns_after {n : NodeId} {b : Node} (xs : List Step)
    (hb : s.workspace.nodes[n]? = some b) :
    ∃ b', (s.after xs).workspace.nodes[n]? = some b' ∧ b.Turns b' := by
  induction xs generalizing s b with
  | nil => exact ⟨b, hb, .refl b⟩
  | cons x xs ih =>
    obtain ⟨b', hb', hturns⟩ := turns_step x hb
    obtain ⟨b'', hb'', hturns'⟩ := ih hb'
    exact ⟨b'', hb'', hturns.trans hturns'⟩

end Session

namespace Change

variable {w : Workspace} {t : Tally} {label : String} {context : Datum} {parent : Option String}
  {source : BlockSource} {p : Option NodeId} {w₁ : Workspace} {o : Options} {f : Failure}

theorem apply_block_of_lines {lines : List Datum} (hp : parentOf w parent = .ok p)
    (ho : blockOptions w source = .ok (o, w₁))
    (hlines : Options.lines w₁.lists o.source = .ok lines) (label : String) (context : Datum) :
    let w' := w₁.withBlock label context p o lines
    apply w t (.block label context parent source) = .ok (w', t, .record [
      ("lines", w'.resolve (.shared w₁.lists.length)),
      ("subs", w'.resolve (.shared (w₁.lists.length + 1))),
      ("attributes", w'.attributesOf w₁.maps.length), ("content_model", .str o.model.name)]) := by
  have hadd := Workspace.addBlock_of_lines hlines label context p
  have hrecord := blockRecord_withBlock w₁ label context p o lines
  exact (except_bind_of_ok hp).trans <| (except_bind_of_ok ho).trans <|
    (except_bind_of_ok hadd).trans (except_bind_of_ok hrecord)

theorem apply_block_eq_ok {w' : Workspace} {t' : Tally} {r : Reply}
    (h : apply w t (.block label context parent source) = .ok (w', t', r)) :
    t' = t ∧ ∃ p o w₁ lines, parentOf w parent = .ok p ∧ blockOptions w source = .ok (o, w₁) ∧
      Options.lines w₁.lists o.source = .ok lines ∧ w' = w₁.withBlock label context p o lines := by
  obtain ⟨p, hp, h⟩ := except_bind_ok h
  obtain ⟨⟨o, w₁⟩, ho, h⟩ := except_bind_ok h
  obtain ⟨w₂, hadd, h⟩ := except_bind_ok h
  obtain ⟨_, _, h⟩ := except_bind_ok h
  cases h
  obtain ⟨lines, hlines, -⟩ := except_bind_ok hadd
  rw [Workspace.addBlock_of_lines hlines] at hadd
  cases hadd
  exact ⟨rfl, p, o, w₁, lines, hp, ho, hlines, rfl⟩

theorem apply_block_of_error (hp : parentOf w parent = .ok p)
    (ho : blockOptions w source = .ok (o, w₁))
    (hlines : Options.lines w₁.lists o.source = .error f) (t : Tally) (label : String)
    (context : Datum) : apply w t (.block label context parent source) = .error f :=
  (except_bind_of_ok hp).trans <| (except_bind_of_ok ho).trans <|
    except_bind_error (except_bind_error hlines)

/-- What options and names there are besides does not show in a block that is made of the same. -/
theorem apply_block_beside {w' : Workspace} {os : List Options} {ns : List (String × Ref)}
    {source' : BlockSource} (hparent : parentOf w' parent = parentOf w parent)
    (hsource : blockOptions w source = .ok (o, w₁))
    (hsource' : blockOptions w' source' = .ok (o, { w₁ with options := os, names := ns }))
    (t : Tally) (label : String) (context : Datum) :
    let made := apply w t (.block label context parent source)
    let made' := apply w' t (.block label context parent source')
    (∃ f, made = .error f ∧ made' = .error f) ∨
      ∃ v v' r, made = .ok (v, t, r) ∧ made' = .ok (v', t, r) ∧ v'.nodes = v.nodes ∧
        v'.lists = v.lists ∧ v'.maps = v.maps := by
  cases hp : parentOf w parent with
  | error f =>
    exact .inl ⟨f, except_bind_error hp, except_bind_error (hparent.trans hp)⟩
  | ok p =>
    cases hlines : Options.lines w₁.lists o.source with
    | error f =>
      exact .inl ⟨f, apply_block_of_error hp hsource hlines t label context,
        apply_block_of_error (hparent.trans hp) hsource' hlines t label context⟩
    | ok lines =>
      exact .inr ⟨_, _, _, apply_block_of_lines hp hsource hlines label context,
        apply_block_of_lines (hparent.trans hp) hsource' hlines label context, rfl, rfl, rfl⟩

theorem apply_options {given : List (String × Datum)} (h : Options.ofFields w given = .ok (o, w₁))
    (t : Tally) (label : String) : apply w t (.options label (Options.recognised given)) =
      .ok (w₁.addOptions label o, t, .record (w₁.optionsRecord o)) := by
  simp only [apply, Options.stray?_recognised, Options.ofFields_recognised, h]
  rfl

theorem apply_options_error {given : List (String × Datum)}
    (h : Options.ofFields w given = .error f) (t : Tally) (label : String) :
    apply w t (.options label (Options.recognised given)) = .error f := by
  simp only [apply, Options.stray?_recognised, Options.ofFields_recognised, h]
  rfl

/-- A field refuses a datum that is assigned as it refuses one that options are made from. -/
theorem apply_setOption_error_iff {on field : String} {i : Nat} {g : OptionField}
    (hi : w.optionsId on = .ok i) (ho : w.optionsAt i = .ok o)
    (hg : OptionField.named? field = some g) (d : Datum) (t : Tally) (label : String)
    (f : Failure) : apply w t (.setOption on field d) = .error f ↔
      apply w t (.options label [(field, d)]) = .error f := by
  have hassign : apply w t (.setOption on field d) = (Options.convert w d g >>= fun c =>
      let x := o.assign w c
      pure (x.2.setOptions i x.1, t, .record (x.2.optionsRecord x.1))) := by
    refine (except_bind_of_ok hi).trans ?_
    simp only [hg]
    refine (except_bind_of_ok ho).trans ?_
    rw [Options.set, bind_assoc]
    rfl
  have hstray : Options.stray? [(field, d)] = none := by simp [Options.stray?, hg]
  have hmake : apply w t (.options label [(field, d)]) = (Options.convert w d g >>= fun c =>
      let x := (Options.default w).1.assign (Options.default w).2 c
      pure (x.2.addOptions label x.1, t, .record (x.2.optionsRecord x.1))) := by
    simp only [apply, hstray, Options.ofFields_singleton hg, bind_assoc]
    rfl
  rw [hassign, hmake, except_bind_eq_error_iff, except_bind_eq_error_iff]

/-- A block from a mapping is the block from the options that the mapping makes. -/
theorem apply_block_fields {given : List (String × Datum)}
    (h : Options.ofFields w given = .ok (o, w₁)) (name : String) (t : Tally) (label : String)
    (context : Datum) (parent : Option String) :
    let made := apply w t (.block label context parent (.fields given))
    let made' := apply (w₁.addOptions name o) t (.block label context parent (.options name))
    (∃ f, made = .error f ∧ made' = .error f) ∨
      ∃ v v' r, made = .ok (v, t, r) ∧ made' = .ok (v', t, r) ∧ v'.nodes = v.nodes ∧
        v'.lists = v.lists ∧ v'.maps = v.maps := by
  have hown : blockOptions (w₁.addOptions name o) (.options name) =
      .ok (o, w₁.addOptions name o) := by
    refine except_bind_of_ok ?_
    exact (except_bind_of_ok (w₁.optionsId_addOptions name o)).trans
      (w₁.optionsAt_addOptions name o)
  have hfields : blockOptions w (.fields given) = .ok (o, w₁) := h
  refine apply_block_beside ?_ hfields hown t label context
  obtain ⟨⟨ls, ms, rfl⟩, -⟩ := Options.renewed_ofFields h
  cases parent with
  | none => rfl
  | some on =>
    exact congrArg (· >>= fun n => pure (some n)) ((w.adding ls ms).nodeId_addOptions name o on)

end Change

namespace Session

variable {s : Session}

theorem act_eq_error_iff {c : Change} {f : Failure} :
    (s.act (.change c)).2.1 = .error f ↔ c.apply s.workspace s.tally = .error f := by
  cases h : c.apply s.workspace s.tally with
  | error g =>
    rw [act_of_apply_error h]
    exact ⟨fun hg => by cases hg; rfl, fun hg => by cases hg; rfl⟩
  | ok a =>
    rw [act_of_apply h]
    exact ⟨nofun, nofun⟩

theorem act_setModel {on : String} {n : NodeId} {b : Node} (hn : s.workspace.nodeId on = .ok n)
    (hb : s.workspace.node n = .ok b) (d : Datum) :
    s.act (.change (.setField on .model d)) = (s, .error (.fixedModel b.body.kind), []) :=
  act_of_apply_error <| (except_bind_of_ok hn).trans (except_bind_error (except_bind_of_ok hb))

theorem act_setOption (s : Session) (on field : String) (d : Datum) :
    ∃ os ls ms, (s.act (.change (.setOption on field d))).1.workspace =
      { s.workspace.adding ls ms with options := os } := by
  cases h : Change.apply s.workspace s.tally (.setOption on field d) with
  | error f =>
    rw [act_of_apply_error h]
    exact ⟨s.workspace.options, [], [], s.workspace.adding_nil.symm⟩
  | ok a =>
    obtain ⟨w, t, r⟩ := a
    rw [act_of_apply h]
    cases Change.makes_of_apply h with
    | setOption _ _ _ hset =>
      obtain ⟨ls, ms, rfl⟩ := (Options.renewed_set hset).added
      exact ⟨_, ls, ms, rfl⟩

theorem act_block_iff {label : String} {context : Datum} {parent : Option String}
    {source : BlockSource} {s' : Session} :
    (∃ r, s.act (.change (.block label context parent source)) = (s', .ok r, [])) ↔
      ∃ p o w lines, Change.parentOf s.workspace parent = .ok p ∧
        Change.blockOptions s.workspace source = .ok (o, w) ∧
        Options.lines w.lists o.source = .ok lines ∧
        s' = { s with workspace := w.withBlock label context p o lines } := by
  constructor
  · rintro ⟨r, h⟩
    cases ha : Change.apply s.workspace s.tally (.block label context parent source) with
    | error f =>
      rw [act_of_apply_error ha] at h
      cases h
    | ok a =>
      rw [act_of_apply ha] at h
      cases h
      obtain ⟨ht, p, o, w, lines, hp, ho, hlines, hw⟩ := Change.apply_block_eq_ok ha
      exact ⟨p, o, w, lines, hp, ho, hlines, by rw [ht, hw]⟩
  · rintro ⟨p, o, w, lines, hp, ho, hlines, rfl⟩
    exact ⟨_, act_of_apply (Change.apply_block_of_lines hp ho hlines label context)⟩

/-- A mapping and the options made of what it holds under the names of fields are refused alike, and
give the same block. -/
theorem act_recognised (s : Session) (given : List (String × Datum)) (name label : String)
    (context : Datum) (parent : Option String) :
    let made := s.act (.change (.options name (Options.recognised given)))
    let direct := s.act (.change (.block label context parent (.fields given)))
    (∀ f, made.2.1 = .error f → ∀ p, Change.parentOf s.workspace parent = .ok p →
        direct = (s, .error f, [])) ∧
      ∀ r, made.2.1 = .ok r →
        let via := made.1.act (.change (.block label context parent (.options name)))
        via.2 = direct.2 ∧ via.1.workspace.nodes = direct.1.workspace.nodes ∧
          ∀ r', direct.2.1 = .ok r' → via.1.workspace.lists = direct.1.workspace.lists ∧
            via.1.workspace.maps = direct.1.workspace.maps := by
  intro made direct
  cases ho : Options.ofFields s.workspace given with
  | error f =>
    have hmade : made = (s, .error f, []) :=
      act_of_apply_error (Change.apply_options_error ho s.tally name)
    rw [hmade]
    refine ⟨fun g hg p hp => ?_, fun _ h => by cases h⟩
    cases hg
    exact act_of_apply_error ((except_bind_of_ok hp).trans (except_bind_error ho))
  | ok x =>
    obtain ⟨o, w⟩ := x
    have hmade : made = ({ s with workspace := w.addOptions name o },
        .ok (.record (w.optionsRecord o)), []) :=
      act_of_apply (Change.apply_options ho s.tally name)
    rw [hmade]
    refine ⟨nofun, fun r _ => ?_⟩
    -- the options that were made show in no node, no list and no mapping
    obtain ⟨f, hdirect, hvia⟩ | ⟨v, v', r', hdirect, hvia, hnodes, hsame⟩ :=
      Change.apply_block_fields ho name s.tally label context parent
    · have hd : direct = (s, .error f, []) := act_of_apply_error hdirect
      obtain ⟨⟨ls, ms, rfl⟩, -⟩ := Options.renewed_ofFields ho
      rw [hd, act_of_apply_error hvia]
      exact ⟨rfl, rfl, fun _ h => by cases h⟩
    · have hd : direct = ({ s with workspace := v }, .ok r', []) := act_of_apply hdirect
      rw [hd, act_of_apply hvia]
      exact ⟨rfl, hnodes, fun _ _ => hsame⟩

/-- After any run all attributes are mappings, and all options and nodes refer to lists and mappings
that there are; models they hold by their types. A node keeps its kind and its model whatever comes,
a step that fails changes nothing but perhaps a substitutor, and a model cannot be assigned. A
change that is carried out write by write ends alike, and where it fails all that was there is kept.
Fields take the same data when they are assigned as when options are made. A new block gets copies
of what its options hold, and a mapping does as well as the options made from it. -/
theorem stays_canonical :
    (∀ modules xs, (∀ x ∈ xs, x.Proper) → ((start modules).after xs).workspace.Canonical) ∧
      ∀ s : Session,
        (∀ (n : NodeId) b, s.workspace.nodes[n]? = some b → ∀ xs,
          ∃ b', (s.after xs).workspace.nodes[n]? = some b' ∧ b'.body.kind = b.body.kind ∧
            b'.body.model = b.body.model) ∧
        (∀ x f, (s.act x).2.1 = .error f →
          ∃ ss, (s.act x).1.workspace = { s.workspace with substitutors := ss }) ∧
        (s.workspace.Known → ∀ c : Change, c.Known s.workspace.lists.length →
          ∃ w e,
            (Live.change c).run (s.workspace, ⟨s.tally, []⟩) = ((s.act (.change c)).2.1, (w, e)) ∧
            (∀ r, (s.act (.change c)).2.1 = .ok r →
              (s.act (.change c)).1 = { s with workspace := w, tally := e.state }) ∧
            ∀ f, (s.act (.change c)).2.1 = .error f →
              Live.Kept (s.workspace, ⟨s.tally, []⟩) (w, e)) ∧
        (∀ on n b d, s.workspace.nodeId on = .ok n → s.workspace.node n = .ok b →
          s.act (.change (.setField on .model d)) = (s, .error (.fixedModel b.body.kind), [])) ∧
        (∀ on field d, ∃ os ls ms, (s.act (.change (.setOption on field d))).1.workspace =
          { s.workspace.adding ls ms with options := os }) ∧
        (∀ on i o field g d label f, s.workspace.optionsId on = .ok i →
          s.workspace.optionsAt i = .ok o → OptionField.named? field = some g →
          ((s.act (.change (.setOption on field d))).2.1 = .error f ↔
            (s.act (.change (.options label [(field, d)]))).2.1 = .error f)) ∧
        (∀ label context parent source s',
          (∃ r, s.act (.change (.block label context parent source)) = (s', .ok r, [])) ↔
            ∃ p o w lines, Change.parentOf s.workspace parent = .ok p ∧
              Change.blockOptions s.workspace source = .ok (o, w) ∧
              Options.lines w.lists o.source = .ok lines ∧
              s' = { s with workspace := w.withBlock label context p o lines }) ∧
        (∀ (w : Workspace) label context p o lines,
          w.Gains o lines (w.withBlock label context p o lines)) ∧
        ∀ given name label context parent,
          let made := s.act (.change (.options name (Options.recognised given)))
          let direct := s.act (.change (.block label context parent (.fields given)))
          (∀ f, made.2.1 = .error f → ∀ p, Change.parentOf s.workspace parent = .ok p →
              direct = (s, .error f, [])) ∧
            ∀ r, made.2.1 = .ok r →
              let via := made.1.act (.change (.block label context parent (.options name)))
              via.2 = direct.2 ∧ via.1.workspace.nodes = direct.1.workspace.nodes ∧
                ∀ r', direct.2.1 = .ok r' →
                  via.1.workspace.lists = direct.1.workspace.lists ∧
                    via.1.workspace.maps = direct.1.workspace.maps := by
  refine ⟨fun modules xs hxs => ?_, fun s => ⟨fun n b hb xs => ?_, fun x f => act_error,
    fun hs c hc => carried_change hs hc, fun on n b d hn hb => act_setModel hn hb d,
    act_setOption s, fun _ _ _ _ _ d label f hi ho hg => ?_, fun _ _ _ _ _ => act_block_iff,
    Workspace.gains_withBlock, act_recognised s⟩⟩
  · exact canonical_after ⟨List.forall_mem_nil _, List.forall_mem_nil _, List.forall_mem_nil _⟩ hxs
  · obtain ⟨b', hb', hturns⟩ := turns_after xs hb
    exact ⟨b', hb', hturns.kind, hturns.model⟩
  · rw [act_eq_error_iff, act_eq_error_iff]
    exact Change.apply_setOption_error_iff hi ho hg d s.tally label f

def reassigning : List Step := [
  .change (.options "o" [("content_model", .text " Verbatim"), ("subs", .text "upper"),
    ("attributes", .fields [(.str "lang", .text "en")]), ("source", .text "a\nb")]),
  .change (.block "x" (.text "listing") none (.options "o")),
  .change (.setOption "o" "content_model" (.text "raw")),
  .change (.setOption "o" "content_model" (.text "table")),
  .change (.block "y" (.text "p") none (.fields [("title", .text "t"), ("subs", .value (.int 0))]))]

/-- A block whose substitutions are taken before its source is refused. -/
def spoilt : Change :=
  .block "z" (.text "p") none (.fields [("subs", .text "upper"), ("source", .value (.int 5))])

theorem stays_canonical_reassigning :
    ((start []).after reassigning).workspace.Canonical ∧
      ((start []).after reassigning).workspace.options.map (·.model) = [.raw] ∧
      ((start []).after reassigning).workspace.nodes.map (·.body.model) = [.verbatim, .simple] ∧
      ((start []).after reassigning).workspace.nodes.map (·.attributes) = [2, 4] ∧
      ((start []).after reassigning).workspace.maps =
        [[], [(.str "lang", .text "en")], [(.str "lang", .text "en")], [], []] ∧
      ((start []).after reassigning).workspace.lists =
        [[], [.text "upper"], [.text "a", .text "b"], [.text "upper"], [], [], [], []] ∧
      ((start []).after reassigning).act (.change (.setField "x" .model (.text "raw"))) =
        ((start []).after reassigning, .error (.fixedModel .block), []) ∧
      ∃ w e, (Live.change spoilt).run
          (((start []).after reassigning).workspace, ⟨((start []).after reassigning).tally, []⟩) =
            (.error (.notIterable "int"), (w, e)) ∧
        w.lists.length = 10 ∧ w.maps.length = 7 ∧
        Live.Kept
          (((start []).after reassigning).workspace, ⟨((start []).after reassigning).tally, []⟩)
          (w, e) := by
  have hlang : DataEntries.Proper [(.str "lang", .text "en")] :=
    ⟨List.forall_mem_singleton.2 rfl, List.pairwise_singleton ..⟩
  have hproper : ∀ x ∈ reassigning, x.Proper := by
    simp only [reassigning, List.forall_mem_cons, Step.Proper, Change.Proper, Datum.Proper,
      Datum.text]
    exact ⟨⟨trivial, trivial, hlang, trivial, List.forall_mem_nil _⟩, trivial, trivial, trivial,
      ⟨trivial, trivial, List.forall_mem_nil _⟩, List.forall_mem_nil _⟩
  obtain ⟨hcanonical, hsession⟩ := stays_canonical
  obtain ⟨-, -, hlive, hmodel, -⟩ := hsession ((start []).after reassigning)
  have hknown : ∀ x ∈ reassigning, x.Known 0 := by
    simp only [reassigning, List.forall_mem_cons, Step.Known, Change.Known, Datum.text]
    exact ⟨⟨.value _, .value _, .fields (List.forall_mem_singleton.2 (.value _)), .value _,
      List.forall_mem_nil _⟩, .value _, .value _, .value _,
      ⟨.value _, .value _, .value _, List.forall_mem_nil _⟩, List.forall_mem_nil _⟩
  have hspoilt : spoilt.Known ((start []).after reassigning).workspace.lists.length :=
    ⟨.value _, List.forall_mem_cons.2 ⟨.value _, List.forall_mem_singleton.2 (.value _)⟩⟩
  obtain ⟨w, e, hrun, -, hkept⟩ := hlive (known_after (known_start []) hknown) spoilt hspoilt
  refine ⟨hcanonical [] reassigning hproper, rfl, rfl, rfl, rfl, rfl,
    hmodel "x" 0 _ (.text "raw") rfl rfl, w, e, hrun, ?_, ?_, hkept _ rfl⟩
  · exact (congrArg (fun r => r.2.1.lists.length) hrun).symm.trans (by with_unfolding_all rfl)
  · exact (congrArg (fun r => r.2.1.maps.length) hrun).symm.trans (by with_unfolding_all rfl)

end Session

end BlockTree

import Mathlib.Data.List.InsertIdx
import BlockTree.Proofs.Workspace.Sharing

/-! Data whose lists all exist. Whatever is made of such data in a workspace is such data again, so
that no later list takes a place that something already refers to. -/
namespace BlockTree

/-- All lists in a datum have places below `k`. -/
inductive Datum.Known (k : Nat) : Datum → Prop
  | value (v : Value) : Known k (.value v)
  | shared {l : ListId} : l < k → Known k (.shared l)
  | items {ds : List Datum} : (∀ d ∈ ds, Known k d) → Known k (.items ds)
  | fields {es : List (Value × Datum)} : (∀ e ∈ es, Known k e.2) → Known k (.fields es)

def DataEntries.Known (k : Nat) (es : DataEntries) : Prop := ∀ e ∈ es, e.2.Known k

def Recorder.Known (k : Nat) : Recorder → Prop
  | .fixed d => d.Known k
  | _ => True

def Pipe.Known (k : Nat) : Pipe → Prop
  | .recorder _ r => r.Known k
  | _ => True

def Body.Known (k : Nat) : Body → Prop
  | .plain => True
  | .block _ lines subs => lines.Known k ∧ subs.Known k
  | .document p _ => p.Known k

structure Node.Known (k : Nat) (b : Node) : Prop where
  context : b.context.Known k
  style : b.style.Known k
  id : b.id.Known k
  title : b.title.Known k
  body : b.body.Known k

structure Options.Known (k : Nat) (o : Options) : Prop where
  subs : o.subs < k
  source : o.source.Known k

def Lists.Known (k : Nat) (ls : Lists) : Prop := ∀ ds ∈ ls, ∀ d ∈ ds, d.Known k

structure Workspace.Within (k : Nat) (w : Workspace) : Prop where
  lists : w.lists.Known k
  maps : ∀ es ∈ w.maps, es.Known k
  nodes : ∀ b ∈ w.nodes, b.Known k
  options : ∀ o ∈ w.options, o.Known k

/-- All lists that anything in a workspace refers to exist in it. -/
def Workspace.Known (w : Workspace) : Prop := w.Within w.lists.length

variable {k k' : Nat}

namespace Datum

variable {d : Datum} {ls : Lists}

theorem Known.mono (h : d.Known k) (hk : k ≤ k') : d.Known k' := by
  induction h with
  | value v => exact .value v
  | shared hl => exact .shared (Nat.lt_of_lt_of_le hl hk)
  | items _ ih => exact .items ih
  | fields _ ih => exact .fields ih

theorem known_getD (hls : ls.Known k) (l : ListId) : ∀ d ∈ ls.getD l [], d.Known k := by
  rw [List.getD_eq_getElem?_getD]
  cases hl : ls[l]? with
  | none => exact List.forall_mem_nil _
  | some ds => exact hls ds (List.mem_of_getElem? hl)

theorem Known.each (h : d.Known k) (hls : ls.Known k) {ds : List Datum} (hds : d.each ls = .ok ds) :
    ∀ x ∈ ds, x.Known k := by
  cases h with
  | value v =>
    obtain ⟨vs, _, hds⟩ := except_bind_ok hds
    cases hds
    exact List.forall_mem_map.2 fun v _ => .value v
  | shared hl =>
    cases hds
    exact known_getD hls _
  | items h =>
    cases hds
    exact h
  | fields h =>
    cases hds
    exact List.forall_mem_map.2 fun e _ => .value e.1

theorem Known.pair (h : d.Known k) (hls : ls.Known k) {i : Nat} {x : Value × Datum}
    (hx : pair ls i d = .ok x) : x.2.Known k := by
  unfold Datum.pair at hx
  split at hx
  next v =>
    obtain ⟨y, _, hx⟩ := except_bind_ok hx
    cases hx
    exact .value y.2
  next =>
    obtain ⟨ds, hds, hx⟩ := except_bind_ok hx
    have hknown := h.each hls hds
    split at hx
    next =>
      split at hx
      · cases hx
        exact hknown _ (by simp)
      · cases hx
    next => cases hx
    next => cases hx

theorem known_pairs (hls : ls.Known k) (ds : List Datum) (hds : ∀ d ∈ ds, d.Known k) {i : Nat}
    {ps : List (Value × Datum)} (hps : pairs ls i ds = .ok ps) : ∀ x ∈ ps, x.2.Known k := by
  induction ds generalizing i ps with
  | nil =>
    cases hps
    exact List.forall_mem_nil _
  | cons d ds ih =>
    obtain ⟨hd, hrest⟩ := List.forall_mem_cons.1 hds
    obtain ⟨x, hx, hps⟩ := except_bind_ok hps
    obtain ⟨xs, hxs, hps⟩ := except_bind_ok hps
    cases hps
    exact List.forall_mem_cons.2 ⟨hd.pair hls hx, ih hrest hxs⟩

end Datum

namespace DataEntries

variable {es : DataEntries} {ls : Lists} {d : Datum}

theorem Known.put (h : es.Known k) (hd : d.Known k) (key : Value) : (es.put key d).Known k := by
  induction es with
  | nil => exact List.forall_mem_singleton.2 hd
  | cons e es ih =>
    obtain ⟨he, hes⟩ := List.forall_mem_cons.1 h
    unfold DataEntries.put
    split
    · exact List.forall_mem_cons.2 ⟨hd, hes⟩
    · exact List.forall_mem_cons.2 ⟨he, ih hes⟩

theorem known_ofPairs (ps : List (Value × Datum)) (hps : ∀ x ∈ ps, x.2.Known k) :
    (ofPairs ps).Known k := by
  have hfold (es : DataEntries) (hes : es.Known k) :
      (ps.foldl (fun es p => es.put p.1 p.2) es).Known k := by
    induction ps generalizing es with
    | nil => exact hes
    | cons x ps ih =>
      obtain ⟨hx, hrest⟩ := List.forall_mem_cons.1 hps
      exact ih hrest _ (hes.put hx x.1)
  exact hfold [] (List.forall_mem_nil _)

theorem known_ofDatum (h : d.Known k) (hls : ls.Known k) (hes : ofDatum ls d = .ok es) :
    es.Known k := by
  unfold ofDatum at hes
  split at hes
  · split at hes
    next =>
      cases hes
      exact List.forall_mem_map.2 fun e _ => .value e.2
    next =>
      cases hes
      cases h with
      | fields h => exact h
    next =>
      obtain ⟨ds, hds, hes⟩ := except_bind_ok hes
      obtain ⟨ps, hps, hes⟩ := except_bind_ok hes
      cases hes
      exact known_ofPairs ps (Datum.known_pairs hls ds (h.each hls hds) hps)
  · cases hes
    exact List.forall_mem_nil _

end DataEntries

namespace Options

variable {d : Datum}

theorem known_convertSubs {ls : Lists} (hls : ls.Known k) (hd : d.Known k) {ds : List Datum}
    (hds : convertSubs ls d = .ok ds) : ∀ x ∈ ds, x.Known k := by
  unfold convertSubs at hds
  split at hds
  next s =>
    cases hds
    split
    · exact List.forall_mem_nil _
    · exact List.forall_mem_singleton.2 hd
  next =>
    split at hds
    · exact hd.each hls hds
    · cases hds
      exact List.forall_mem_nil _

theorem known_lines {ls : Lists} (hls : ls.Known k) (hd : d.Known k) {ds : List Datum}
    (hds : lines ls d = .ok ds) : ∀ x ∈ ds, x.Known k := by
  unfold lines at hds
  split at hds
  next =>
    cases hds
    exact List.forall_mem_map.2 fun s _ => .value _
  next =>
    split at hds
    · exact hd.each hls hds
    · cases hds
      exact List.forall_mem_nil _

end Options

namespace Workspace

variable {w w' : Workspace} {n : NodeId} {d : Datum}

theorem Within.mono (h : w.Within k) (hk : k ≤ k') : w.Within k' where
  lists ds hds d hd := (h.lists ds hds d hd).mono hk
  maps es hes e he := (h.maps es hes e he).mono hk
  nodes b hb := by
    obtain ⟨hc, hs, hi, ht, hbody⟩ := h.nodes b hb
    refine ⟨hc.mono hk, hs.mono hk, hi.mono hk, ht.mono hk, ?_⟩
    revert hbody
    cases b.body with
    | plain => exact id
    | block => exact fun hbody => ⟨hbody.1.mono hk, hbody.2.mono hk⟩
    | document p c =>
      match p with
      | .recorder _ (.fixed d) => exact fun hd : d.Known k => hd.mono hk
      | .recorder _ .echo | .recorder _ (.fail ..) | .substitutor _ => exact id
  options o ho := ⟨Nat.lt_of_lt_of_le (h.options o ho).subs hk, (h.options o ho).source.mono hk⟩

theorem Known.adding (h : w.Known) {ls : Lists} {ms : List DataEntries}
    (hls : ls.Known w.lists.length) (hms : ∀ es ∈ ms, es.Known w.lists.length) :
    (w.adding ls ms).Known := by
  have hgrown : (w.adding ls ms).Within w.lists.length :=
    ⟨List.forall_mem_append.2 ⟨h.lists, hls⟩, List.forall_mem_append.2 ⟨h.maps, hms⟩, h.nodes,
      h.options⟩
  exact hgrown.mono (by simp)

theorem Known.bindName (h : w.Known) (name : String) (r : Ref) : (w.bindName name r).Known :=
  ⟨h.lists, h.maps, h.nodes, h.options⟩

theorem Known.setList (h : w.Known) (l : ListId) {ds : List Datum}
    (hds : ∀ d ∈ ds, d.Known w.lists.length) : (w.setList l ds).Known := by
  rw [Known, length_lists_setList]
  exact ⟨fun ds' hds' => (List.mem_or_eq_of_mem_set hds').elim (h.lists ds') fun heq => heq ▸ hds,
    h.maps, h.nodes, h.options⟩

theorem Known.setMap (h : w.Known) (m : MapId) {es : DataEntries}
    (hes : es.Known w.lists.length) : (w.setMap m es).Known :=
  ⟨h.lists, fun es' hes' => (List.mem_or_eq_of_mem_set hes').elim (h.maps es') fun heq => heq ▸ hes,
    h.nodes, h.options⟩

theorem Known.addNode (h : w.Known) {b : Node} (hb : b.Known w.lists.length) :
    (w.addNode b).Known :=
  ⟨h.lists, h.maps, List.forall_mem_append.2 ⟨h.nodes, List.forall_mem_singleton.2 hb⟩, h.options⟩

theorem Known.setNode (h : w.Known) (n : NodeId) {b : Node} (hb : b.Known w.lists.length) :
    (w.setNode n b).Known :=
  ⟨h.lists, h.maps,
    fun b' hb' => (List.mem_or_eq_of_mem_set hb').elim (h.nodes b') fun heq => heq ▸ hb, h.options⟩

theorem Known.addOptions (h : w.Known) (name : String) {o : Options}
    (ho : o.Known w.lists.length) : (w.addOptions name o).Known :=
  ⟨h.lists, h.maps, h.nodes, List.forall_mem_append.2 ⟨h.options, List.forall_mem_singleton.2 ho⟩⟩

theorem Known.setOptions (h : w.Known) (i : Nat) {o : Options} (ho : o.Known w.lists.length) :
    (w.setOptions i o).Known :=
  ⟨h.lists, h.maps, h.nodes,
    fun o' ho' => (List.mem_or_eq_of_mem_set ho').elim (h.options o') fun heq => heq ▸ ho⟩

theorem Known.node (h : w.Known) {b : Node} (hb : w.node n = .ok b) : b.Known w.lists.length :=
  h.nodes b (List.mem_of_getElem? (node_eq_ok_iff.1 hb))

theorem Known.optionsAt (h : w.Known) {i : Nat} {o : Options} (ho : w.optionsAt i = .ok o) :
    o.Known w.lists.length := h.options o (List.mem_of_getElem? (optionsAt_eq_ok ho))

theorem Known.ownOf (h : w.Known) {member : String} {o : ContentModel × Datum × Datum}
    (ho : w.ownOf n member = .ok o) : o.2.1.Known w.lists.length ∧ o.2.2.Known w.lists.length := by
  obtain ⟨b, hb, hbody⟩ := except_bind_ok ho
  have hknown := (h.node hb).body
  rwa [ownOf_eq_ok hb ho] at hknown

theorem Known.listAt (h : w.Known) (l : ListId) : ∀ d ∈ w.listAt l, d.Known w.lists.length :=
  Datum.known_getD h.lists l

theorem Known.entriesAt (h : w.Known) (m : MapId) : (w.entriesAt m).Known w.lists.length := by
  rw [Workspace.entriesAt, List.getD_eq_getElem?_getD]
  cases hm : w.maps[m]? with
  | none => exact List.forall_mem_nil _
  | some es => exact h.maps es (List.mem_of_getElem? hm)

theorem known_fresh (w : Workspace) (label : String) (parent : Option NodeId) {context : Datum}
    (m : MapId) {body : Body} (hcontext : context.Known k) (hbody : body.Known k) :
    (Node.fresh w label parent context m body).Known k :=
  ⟨hcontext, .value _, .value _, .value _, hbody⟩

theorem Known.place (h : w.Known) (hd : d.Known w.lists.length) :
    (w.place d).2.Known ∧ (w.place d).1.Known (w.place d).2.lists.length := by
  have hnew (ds : List Datum) (hds : ∀ d ∈ ds, d.Known w.lists.length) :
      (w.adding [ds] []).Known ∧
        (Datum.shared w.lists.length).Known (w.adding [ds] []).lists.length :=
    ⟨h.adding (List.forall_mem_singleton.2 hds) (List.forall_mem_nil _), .shared (by simp)⟩
  unfold Workspace.place
  split
  next vs =>
    simpa using hnew (vs.map .value) (List.forall_mem_map.2 fun v _ => .value v)
  next ds =>
    cases hd with
    | items hds => simpa using hnew ds hds
  next => exact ⟨h, hd⟩

theorem length_place_le (w : Workspace) (d : Datum) :
    w.lists.length ≤ (w.place d).2.lists.length := by
  obtain ⟨ls, hplace, -⟩ := w.place_eq d
  simp [hplace]

end Workspace

namespace Options

open Workspace

variable {w w' : Workspace} {o o' : Options} {d : Datum}

theorem Known.mono (h : o.Known k) (hk : k ≤ k') : o.Known k' :=
  ⟨Nat.lt_of_lt_of_le h.subs hk, h.source.mono hk⟩

def Converted.Known (k : Nat) : Converted → Prop
  | .model _ => True
  | .attributes es => es.Known k
  | .subs ds => ∀ d ∈ ds, d.Known k
  | .source d => d.Known k

theorem Converted.Known.mono {c : Converted} (h : c.Known k) (hk : k ≤ k') : c.Known k' := by
  cases c with
  | model => trivial
  | attributes es => exact fun e he => (h e he).mono hk
  | subs ds => exact fun d hd => (h d hd).mono hk
  | source d => exact Datum.Known.mono h hk

theorem known_convert (h : w.Known) (hd : d.Known w.lists.length) {f : OptionField} {c : Converted}
    (hc : convert w d f = .ok c) : c.Known w.lists.length := by
  cases f with
  | model =>
    obtain ⟨_, _, hc⟩ := except_bind_ok hc
    cases hc
    trivial
  | attributes =>
    obtain ⟨es, hes, hc⟩ := except_bind_ok hc
    cases hc
    exact DataEntries.known_ofDatum hd h.lists hes
  | subs =>
    obtain ⟨ds, hds, hc⟩ := except_bind_ok hc
    cases hc
    exact known_convertSubs h.lists hd hds
  | source =>
    cases hc
    exact hd

theorem Known.assign (h : w.Known) (ho : o.Known w.lists.length) {c : Converted}
    (hc : c.Known w.lists.length) :
    (o.assign w c).2.Known ∧ (o.assign w c).1.Known (o.assign w c).2.lists.length := by
  cases c with
  | model m => exact ⟨h, ho.subs, ho.source⟩
  | attributes es =>
    have hadded := h.adding (List.forall_mem_nil _) (List.forall_mem_singleton.2 hc)
    simp only [Options.assign, addMap_eq]
    exact ⟨hadded, by simpa using ho.subs, ho.source.mono (by simp)⟩
  | subs ds =>
    have hadded := h.adding (List.forall_mem_singleton.2 hc) (List.forall_mem_nil _)
    simp only [Options.assign, addList_eq]
    exact ⟨hadded, by simp, ho.source.mono (by simp)⟩
  | source d =>
    obtain ⟨hplace, hplaced⟩ := h.place hc
    exact ⟨hplace, Nat.lt_of_lt_of_le ho.subs (w.length_place_le d), hplaced⟩

theorem Known.set (h : w.Known) (ho : o.Known w.lists.length) (hd : d.Known w.lists.length)
    {f : OptionField} (ho' : o.set w f d = .ok (o', w')) :
    w'.Known ∧ o'.Known w'.lists.length := by
  obtain ⟨c, hc, hassign⟩ := set_eq_ok ho'
  have hknown := Known.assign h ho (known_convert h hd hc)
  rwa [hassign] at hknown

theorem known_ofFields {given : List (String × Datum)} (h : w.Known)
    (hgiven : ∀ g ∈ given, g.2.Known w.lists.length) (ho : ofFields w given = .ok (o, w')) :
    w'.Known ∧ o.Known w'.lists.length ∧ w.lists.length ≤ w'.lists.length := by
  refine ofFields_induction (P := fun x => x.2.Known ∧ x.1.Known x.2.lists.length ∧
    w.lists.length ≤ x.2.lists.length) ?_ ?_ ho
  · have hadded : (w.adding [[]] [[]]).Known :=
      h.adding (List.forall_mem_singleton.2 (List.forall_mem_nil _))
        (List.forall_mem_singleton.2 (List.forall_mem_nil _))
    simp only [default, addMap_eq, addList_eq, adding_adding]
    exact ⟨hadded, ⟨by simp, .value _⟩, by simp⟩
  · rintro ⟨o₁, w₁⟩ name f d c ⟨h₁, ho₁, hle⟩ - hlookup hc
    have hd := hgiven (name, d) (mem_of_lookup hlookup)
    obtain ⟨h₂, ho₂⟩ := Known.assign h₁ ho₁ ((known_convert h hd hc).mono hle)
    obtain ⟨ls, ms, hadded⟩ := (renewed_assign w₁ o₁ c).added
    exact ⟨h₂, ho₂, Nat.le_trans hle (by simp [hadded])⟩

end Options

namespace Workspace

variable {w w' : Workspace} {n : NodeId} {d : Datum}

theorem Known.newList (h : w.Known) {name : String} (hd : d.Known w.lists.length)
    (hw : w.newList name d = .ok w') : w'.Known := by
  obtain ⟨ds, hds, hw⟩ := except_bind_ok hw
  simp only [addList_eq] at hw
  cases hw
  exact (h.adding (List.forall_mem_singleton.2 (hd.each h.lists hds))
    (List.forall_mem_nil _)).bindName name _

theorem Known.appendItem (h : w.Known) (l : ListId) (hd : d.Known w.lists.length) :
    (w.appendItem l d).Known :=
  h.setList l (List.forall_mem_append.2 ⟨h.listAt l, List.forall_mem_singleton.2 hd⟩)

theorem Known.insertItem (h : w.Known) {l : ListId} {i : Int} (hd : d.Known w.lists.length)
    (hw : w.insertItem l i d = .ok w') : w'.Known := by
  unfold Workspace.insertItem at hw
  split at hw
  · cases hw
    refine h.setList l fun x hx => ?_
    obtain rfl | hx := List.eq_or_mem_of_mem_insertIdx hx
    · exact hd
    · exact h.listAt l x hx
  · cases hw

theorem Known.popItem (h : w.Known) {l : ListId} (hw : w.popItem l = .ok (d, w')) : w'.Known := by
  unfold Workspace.popItem at hw
  split at hw
  · cases hw
    exact h.setList l fun x hx => h.listAt l x ((List.dropLast_sublist _).mem hx)
  · cases hw

theorem Known.addDocument (h : w.Known) {label : String} {attributes : Datum} {p : Pipe}
    {c : Converter} (hd : attributes.Known w.lists.length) (hp : p.Known w.lists.length)
    (hw : w.addDocument label attributes p c = .ok w') : w'.Known := by
  obtain ⟨es, hes, hw⟩ := except_bind_ok hw
  simp only [addMap_eq] at hw
  cases hw
  have hadded := h.adding (List.forall_mem_nil _)
    (List.forall_mem_singleton.2 (DataEntries.known_ofDatum hd h.lists hes))
  have hbody : (Body.document p c).Known (w.adding [] [es]).lists.length := by
    rw [lists_adding, List.append_nil]
    exact hp
  exact hadded.addNode ⟨.value _, .value _, .value _, .value _, hbody⟩

theorem Known.addPlain (h : w.Known) (label : String) {context : Datum} (parent : Option NodeId)
    (hcontext : context.Known w.lists.length) : (w.addPlain label context parent).Known := by
  have hadded := h.adding (List.forall_mem_nil _)
    (List.forall_mem_singleton.2 (List.forall_mem_nil _ : DataEntries.Known w.lists.length []))
  have hnode : (Node.fresh (w.adding [] [[]]) label parent context w.maps.length .plain).Known
      (w.adding [] [[]]).lists.length :=
    known_fresh _ label parent _ (hcontext.mono (by simp)) trivial
  simpa [Workspace.addPlain] using hadded.addNode hnode

theorem Known.addBlock (h : w.Known) {label : String} {context : Datum} {parent : Option NodeId}
    {o : Options} (hcontext : context.Known w.lists.length) (ho : o.Known w.lists.length)
    (hw : w.addBlock label context parent o = .ok w') : w'.Known := by
  obtain ⟨lines, hlines, rfl⟩ := addBlock_eq_ok hw
  have hcopies : Lists.Known w.lists.length [lines, w.listAt o.subs] :=
    List.forall_mem_cons.2 ⟨Options.known_lines h.lists ho.source hlines,
      List.forall_mem_singleton.2 (h.listAt o.subs)⟩
  have hadded := h.adding hcopies (List.forall_mem_singleton.2 (h.entriesAt o.attributes))
  exact hadded.addNode (known_fresh w label parent _ (hcontext.mono (by simp))
    ⟨.shared (by simp), .shared (by simp)⟩)

theorem Known.setBody (h : w.Known) (hd : d.Known w.lists.length) {b : Node} {member : String}
    {o : ContentModel × Datum × Datum} (lines subs : Datum) (hb : w.node n = .ok b)
    (ho : w.ownOf n member = .ok o)
    (hslots : ∀ x ∈ [lines, subs], x = (w.place d).1 ∨ x ∈ [o.2.1, o.2.2]) :
    ((w.place d).2.setNode n { b with body := .block o.1 lines subs }).Known := by
  obtain ⟨hplace, hplaced⟩ := h.place hd
  have hle := w.length_place_le d
  have hown := h.ownOf ho
  have hslot (x) (hx : x ∈ [lines, subs]) : x.Known (w.place d).2.lists.length := by
    obtain rfl | hx := hslots x hx
    · exact hplaced
    · obtain rfl | rfl : x = o.2.1 ∨ x = o.2.2 := by simpa using hx
      · exact hown.1.mono hle
      · exact hown.2.mono hle
  obtain ⟨hc, hs, hi, ht, -⟩ := h.node hb
  exact hplace.setNode n ⟨hc.mono hle, hs.mono hle, hi.mono hle, ht.mono hle,
    hslot lines (by simp), hslot subs (by simp)⟩

theorem Known.setLines (h : w.Known) (hd : d.Known w.lists.length)
    (hw : w.setLines n d = .ok w') : w'.Known := by
  obtain ⟨b, o, hb, ho, rfl⟩ := setLines_eq_ok hw
  exact h.setBody hd (w.place d).1 o.2.2 hb ho (by simp)

theorem Known.setSubs (h : w.Known) (hd : d.Known w.lists.length)
    (hw : w.setSubs n d = .ok w') : w'.Known := by
  obtain ⟨b, o, hb, ho, rfl⟩ := setSubs_eq_ok hw
  exact h.setBody hd o.2.1 (w.place d).1 hb ho (by simp)

theorem Known.setAttribute (h : w.Known) {key : Value} (hd : d.Known w.lists.length)
    (hw : w.setAttribute n key d = .ok w') : w'.Known := by
  obtain ⟨b, hb, hw⟩ := except_bind_ok hw
  split at hw
  · cases hw
    exact h.setMap b.attributes ((h.entriesAt b.attributes).put hd key)
  · cases hw

theorem Known.setField (h : w.Known) {f : NodeField} (hd : d.Known w.lists.length)
    (hw : w.setField n f d = .ok w') : w'.Known := by
  obtain ⟨b, hb, hw⟩ := except_bind_ok hw
  obtain ⟨hc, hs, hi, ht, hbody⟩ := h.node hb
  cases f with
  | model => cases hw
  | style =>
    cases hw
    exact h.setNode n ⟨hc, hd, hi, ht, hbody⟩
  | id =>
    cases hw
    exact h.setNode n ⟨hc, hs, hd, ht, hbody⟩
  | title =>
    cases hw
    exact h.setNode n ⟨hc, hs, hi, hd, hbody⟩
  | context =>
    cases hw
    exact h.setNode n ⟨hd, hs, hi, ht, hbody⟩

theorem Known.append (h : w.Known) {p c : NodeId} (hw : w.append p c = .ok w') : w'.Known := by
  obtain ⟨a, _, hw⟩ := except_bind_ok hw
  obtain ⟨b, hb, hw⟩ := except_bind_ok hw
  obtain ⟨a', ha', hw⟩ := except_bind_ok hw
  cases hw
  obtain ⟨hc, hs, hi, ht, hbody⟩ := h.node hb
  have hlinked := h.setNode c (b := { b with parent := some p, document := a.document })
    ⟨hc, hs, hi, ht, hbody⟩
  obtain ⟨hc, hs, hi, ht, hbody⟩ := hlinked.node ha'
  exact hlinked.setNode p ⟨hc, hs, hi, ht, hbody⟩

end Workspace

def Change.Known (k : Nat) : Change → Prop
  | .list _ d | .appendItem _ d | .setOption _ _ d | .setLines _ d | .appendLine _ d
  | .insertLine _ _ d | .setSubs _ d | .appendSub _ d | .setAttribute _ _ d | .setField _ _ d
  | .plain _ d _ => d.Known k
  | .document _ d (.recorder r) _ => d.Known k ∧ r.Known k
  | .document _ d _ _ => d.Known k
  | .options _ given => ∀ g ∈ given, g.2.Known k
  | .block _ d _ (.fields given) => d.Known k ∧ ∀ g ∈ given, g.2.Known k
  | .block _ d _ (.options _) => d.Known k
  | .substitutor .. | .popLine _ | .append .. | .register .. | .unregister .. => True

theorem Recorder.Known.mono {r : Recorder} (h : r.Known k) (hk : k ≤ k') : r.Known k' := by
  cases r with
  | fixed d => exact Datum.Known.mono h hk
  | echo | fail => trivial

namespace Change

theorem Known.mono {c : Change} (h : c.Known k) (hk : k ≤ k') : c.Known k' := by
  cases c with
  | list | appendItem | setOption | setLines | appendLine | insertLine | setSubs | appendSub
  | setAttribute | setField | plain => exact Datum.Known.mono h hk
  | document _ d pipe =>
    cases pipe with
    | recorder r => exact ⟨h.1.mono hk, h.2.mono hk⟩
    | named | stocks => exact Datum.Known.mono h hk
  | options => exact fun g hg => (h g hg).mono hk
  | block _ _ _ source =>
    cases source with
    | fields given => exact ⟨h.1.mono hk, fun g hg => (h.2 g hg).mono hk⟩
    | options name => exact Datum.Known.mono h hk
  | substitutor | popLine | append | register | unregister => trivial

variable {w w' : Workspace} {t t' : Tally} {r : Reply}

theorem known_addPipe {s : PipeSource} {p : Pipe}
    (hs : ∀ r, s = .recorder r → r.Known k) (hp : addPipe w t s = .ok (p, w', t')) :
    p.Known k := by
  cases s with
  | named s =>
    obtain ⟨i, _, hp⟩ := except_bind_ok hp
    cases hp
    trivial
  | stocks entries =>
    obtain ⟨a, _, hp⟩ := except_bind_ok hp
    cases hp
    trivial
  | recorder rec =>
    cases hp
    exact hs rec rfl

theorem known_document {label : String} {d : Datum} {s : PipeSource} {converter : Converter}
    (h : w.Known) (hd : d.Known w.lists.length)
    (hs : ∀ r, s = .recorder r → r.Known w.lists.length)
    (hw : apply w t (.document label d s converter) = .ok (w', t', r)) : w'.Known := by
  obtain ⟨⟨p, w₁, t₁⟩, hp, hw⟩ := except_bind_ok hw
  have hpipe := known_addPipe hs hp
  obtain ⟨ss, j, rfl⟩ := addPipe_eq_ok hp
  have hbeside : Workspace.Known { w with substitutors := ss, recorders := j } :=
    ⟨h.lists, h.maps, h.nodes, h.options⟩
  exact hbeside.addDocument hd hpipe (done_eq_ok hw)

theorem known_blockOptions (h : w.Known) {source : BlockSource} {o : Options}
    (hsource : ∀ given, source = .fields given → ∀ g ∈ given, g.2.Known w.lists.length)
    (ho : blockOptions w source = .ok (o, w')) : w'.Known ∧ o.Known w'.lists.length := by
  obtain ⟨given, rfl, ho⟩ | ⟨name, i, rfl, -, ho, rfl⟩ := blockOptions_eq_ok ho
  · obtain ⟨h', ho', -⟩ := Options.known_ofFields h (hsource given rfl) ho
    exact ⟨h', ho'⟩
  · exact ⟨h, h.optionsAt ho⟩

theorem known_apply {c : Change} (h : w.Known) (hc : c.Known w.lists.length)
    (hw : c.apply w t = .ok (w', t', r)) : w'.Known := by
  cases makes_of_apply hw with
  | list hw => exact h.newList hc hw
  | appendItem | appendLine | appendSub => exact h.appendItem _ hc
  | @document label d s =>
    cases s with
    | recorder rec =>
      refine known_document h hc.1 (fun r hr => ?_) hw
      cases hr
      exact hc.2
    | named | stocks => exact known_document h hc (fun _ hr => by cases hr) hw
  | plain p => exact h.addPlain _ p hc
  | options ho =>
    obtain ⟨h₁, ho, -⟩ := Options.known_ofFields h hc ho
    exact h₁.addOptions _ ho
  | block ho hblock =>
    obtain ⟨given, rfl, ho⟩ | ⟨name, i, rfl, -, ho, rfl⟩ := blockOptions_eq_ok ho
    · obtain ⟨h₁, ho, hle⟩ := Options.known_ofFields h hc.2 ho
      exact h₁.addBlock (hc.1.mono hle) ho hblock
    · exact h.addBlock hc (h.optionsAt ho) hblock
  | setOption _ _ ho ho' =>
    obtain ⟨h₁, ho'⟩ := Options.Known.set h (h.optionsAt ho) hc ho'
    exact h₁.setOptions _ ho'
  | setLines _ hw => exact h.setLines hc hw
  | setSubs _ hw => exact h.setSubs hc hw
  | insertLine _ hw => exact h.insertItem hc hw
  | popLine _ hw => exact h.popItem hw
  | setAttribute _ hw => exact h.setAttribute hc hw
  | setField _ hw => exact h.setField hc hw
  | append _ _ hw => exact h.append hw
  | substitutor | register | unregister => exact ⟨h.lists, h.maps, h.nodes, h.options⟩

end Change

def Step.Known (k : Nat) : Step → Prop
  | .change c => c.Known k
  | _ => True

theorem Step.Known.mono {x : Step} (h : x.Known k) (hk : k ≤ k') : x.Known k' := by
  cases x with
  | change c => exact Change.Known.mono h hk
  | query | load => trivial

/-- What is changed in place is made of known data, if it was before. -/
def Move.Known (k : Nat) : Move → Prop
  | .step x => x.Known k
  | .alterList _ f | .alterSubs _ f | .alterSource _ f =>
    ∀ ds, (∀ d ∈ ds, d.Known k) → ∀ d ∈ f ds, d.Known k
  | .alterAttributes _ f => ∀ es : DataEntries, es.Known k → (f es).Known k
  | .passAttributes .. => True

namespace Workspace

variable {w : Workspace}

theorem Known.alterList (h : w.Known) (name : String) {f : List Datum → List Datum}
    (hf : ∀ ds, (∀ d ∈ ds, d.Known w.lists.length) → ∀ d ∈ f ds, d.Known w.lists.length) :
    (w.alterList name f).Known := by
  unfold Workspace.alterList
  split
  · exact h.setList _ (hf _ (h.listAt _))
  · exact h

theorem Known.alterHeld (h : w.Known) (name : String) {f : Options → Workspace}
    (hf : ∀ o, o.Known w.lists.length → (f o).Known) : (w.alterHeld name f).Known := by
  unfold Workspace.alterHeld
  split
  next o ho =>
    obtain ⟨i, _, ho⟩ := except_bind_ok ho
    exact hf o (h.optionsAt ho)
  next => exact h

theorem Known.alterSource (h : w.Known) (name : String) {f : List Datum → List Datum}
    (hf : ∀ ds, (∀ d ∈ ds, d.Known w.lists.length) → ∀ d ∈ f ds, d.Known w.lists.length) :
    (w.alterSource name f).Known := by
  refine h.alterHeld name fun o _ => ?_
  split
  next l _ => exact h.setList l (hf _ (h.listAt l))
  next => exact h

theorem Known.passAttributes (h : w.Known) (name : String) (m : MapId) :
    (w.passAttributes name m).Known := by
  unfold Workspace.passAttributes
  split
  next i _ =>
    refine h.alterHeld name fun o ho => ?_
    obtain ⟨hadded, hcopied⟩ := Options.Known.assign (c := .attributes (w.entriesAt m)) h ho
      (h.entriesAt m)
    exact hadded.setOptions i hcopied
  next => exact h

end Workspace

namespace Session

variable {s : Session}

theorem known_step {x : Step} (h : s.workspace.Known) (hx : x.Known s.workspace.lists.length) :
    (s.step x).1.workspace.Known := by
  rw [step_fst]
  cases x with
  | query q => exact h
  | change c =>
    simp only [act]
    cases hc : c.apply s.workspace s.tally with
    | ok a => exact Change.known_apply h hx hc
    | error f => exact h
  | load plugin on label =>
    obtain ⟨ss, heq | ⟨name, i, heq, -⟩⟩ := s.workspace_load plugin on label <;> rw [heq] <;>
      exact ⟨h.lists, h.maps, h.nodes, h.options⟩

theorem known_move {m : Move} (h : s.workspace.Known) (hm : m.Known s.workspace.lists.length) :
    (s.move m).workspace.Known := by
  cases m with
  | step x => exact known_step h hm
  | alterList name f => exact h.alterList name hm
  | alterSubs name f =>
    exact h.alterHeld name fun o _ => h.setList o.subs (hm _ (h.listAt o.subs))
  | alterAttributes name f =>
    exact h.alterHeld name fun o _ => h.setMap o.attributes (hm _ (h.entriesAt o.attributes))
  | alterSource name f => exact h.alterSource name hm
  | passAttributes name m => exact h.passAttributes name m

theorem known_start (modules : List (String × Option (List (String × Stock)))) :
    (start modules).workspace.Known where
  lists := List.forall_mem_nil _
  maps := List.forall_mem_nil _
  nodes := List.forall_mem_nil _
  options := List.forall_mem_nil _

/-- The sessions that moves lead to which are given no lists but those that there are. -/
inductive Arises (modules : List (String × Option (List (String × Stock)))) : Session → Prop
  | start : Arises modules (start modules)
  | move {s : Session} {m : Move} : Arises modules s → m.Known s.workspace.lists.length →
      Arises modules (s.move m)

theorem Arises.known {modules : List (String × Option (List (String × Stock)))} {s : Session}
    (h : Arises modules s) : s.workspace.Known := by
  induction h with
  | start =>
    exact known_start modules
  | move _ hm ih => exact known_move ih hm

end Session

end BlockTree

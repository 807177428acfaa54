import BlockTree.Proofs.Workspace.Frame

/-! What the moves of a session do to its store: they open lists, change what is in a list or a
mapping, or give one node or one options object something new to hold. What comes from elsewhere is
copied on its way in. -/
namespace BlockTree

def Node.holding (b : Node) : Holding where
  slots := match b.body with
    | .block _ lines subs => [lines, subs]
    | _ => []
  attributes := b.attributes

/-- The source of options is not their own: it may be a list that has a name. -/
def Options.holding (o : Options) : Holding := ⟨[.shared o.subs], o.attributes⟩

theorem getElem?_append_of_ne_length {α : Type} {xs : List α} {a : α} {i : Nat}
    (h : i ≠ xs.length) : (xs ++ [a])[i]? = xs[i]? := by
  obtain hlt | hge := Nat.lt_or_ge i xs.length
  · exact List.getElem?_append_left hlt
  · rw [List.getElem?_eq_none hge, List.getElem?_eq_none]
    rw [List.length_append, List.length_singleton]
    omega

namespace Workspace

def holding (w : Workspace) : Holder → Option Holding
  | .node n => w.nodes[n]?.map Node.holding
  | .options i => w.options[i]?.map Options.holding

def namedLists (w : Workspace) : List ListId := w.names.filterMap (·.2.list?)

def opened (w : Workspace) : List ListId := w.namedLists ++ w.options.filterMap (·.source.list?)

def store (w : Workspace) : Store := ⟨w.lists, w.maps, w.holding, w.opened⟩

variable {w w' : Workspace} {n : NodeId} {l : ListId} {target : Option Holder}
  {ls : Lists} {ms : List DataEntries}

theorem holding_node {b : Node} (h : w.nodes[n]? = some b) :
    w.holding (.node n) = some b.holding := by
  rw [holding, h]
  rfl

theorem holding_options {i : Nat} {o : Options} (h : w.options[i]? = some o) :
    w.holding (.options i) = some o.holding := by
  rw [holding, h]
  rfl

theorem holding_addNode (b : Node) :
    (w.addNode b).holding (.node w.nodes.length) = some b.holding ∧
      ∀ x, x ≠ .node w.nodes.length → (w.addNode b).holding x = w.holding x := by
  refine ⟨holding_node List.getElem?_concat_length, fun x hx => ?_⟩
  cases x with
  | node n =>
    have hn : n ≠ w.nodes.length := fun h => hx (congrArg Holder.node h)
    simp only [holding, addNode, bindName, getElem?_append_of_ne_length hn]
  | options i => rfl

theorem holding_setNode {b : Node} (hb : w.nodes[n]? = some b) (b' : Node) :
    (w.setNode n b').holding (.node n) = some b'.holding ∧
      ∀ x, x ≠ .node n → (w.setNode n b').holding x = w.holding x := by
  obtain ⟨hlt, -⟩ := List.getElem?_eq_some_iff.1 hb
  refine ⟨holding_node (List.getElem?_set_self hlt), fun x hx => ?_⟩
  cases x with
  | node k =>
    have hk : n ≠ k := fun h => hx (congrArg Holder.node h.symm)
    simp only [holding, setNode, List.getElem?_set_ne hk]
  | options i => rfl

theorem holding_addOptions (name : String) (o : Options) :
    (w.addOptions name o).holding (.options w.options.length) = some o.holding ∧
      ∀ x, x ≠ .options w.options.length → (w.addOptions name o).holding x = w.holding x := by
  refine ⟨holding_options List.getElem?_concat_length, fun x hx => ?_⟩
  cases x with
  | node n => rfl
  | options i =>
    have hi : i ≠ w.options.length := fun h => hx (congrArg Holder.options h)
    simp only [holding, addOptions, bindName, getElem?_append_of_ne_length hi]

theorem holding_setOptions {i : Nat} {o : Options} (ho : w.options[i]? = some o) (o' : Options) :
    (w.setOptions i o').holding (.options i) = some o'.holding ∧
      ∀ x, x ≠ .options i → (w.setOptions i o').holding x = w.holding x := by
  obtain ⟨hlt, -⟩ := List.getElem?_eq_some_iff.1 ho
  refine ⟨holding_options (List.getElem?_set_self hlt), fun x hx => ?_⟩
  cases x with
  | node n => rfl
  | options j =>
    have hj : i ≠ j := fun h => hx (congrArg Holder.options h.symm)
    simp only [holding, setOptions, List.getElem?_set_ne hj]

theorem mem_opened_of_listId {name : String} (h : w.listId name = .ok l) : l ∈ w.namedLists := by
  unfold listId named at h
  split at h
  next l' hfind =>
    cases h
    obtain ⟨r, hr, hpick⟩ := List.exists_of_findSome?_eq_some hfind
    split at hpick
    · exact List.mem_filterMap.2 ⟨r, hr, hpick⟩
    · cases hpick
  next => cases h

theorem mem_opened_of_source {o : Options} (ho : o ∈ w.options) (h : o.source = .shared l) :
    l ∈ w.opened :=
  List.mem_append_right _ (List.mem_filterMap.2 ⟨o, ho, by rw [h]; rfl⟩)

theorem opened_of_mem {os : List Options} {o : Options} (hos : ∀ p ∈ os, p ∈ w.options ∨ p = o)
    (hl : l ∈ w.namedLists ++ os.filterMap (·.source.list?)) :
    l ∈ w.opened ∨ o.source = .shared l := by
  obtain hl | hl := List.mem_append.1 hl
  · exact .inl (List.mem_append_left _ hl)
  · obtain ⟨p, hp, hsource⟩ := List.mem_filterMap.1 hl
    have hshared : p.source = .shared l := by
      cases hd : p.source with
      | shared k =>
        rw [hd] at hsource
        cases hsource
        rfl
      | _ =>
        rw [hd] at hsource
        cases hsource
    obtain hp | rfl := hos p hp
    · exact .inl (mem_opened_of_source hp hshared)
    · exact .inr hshared

theorem opened_setOptions {i : Nat} {o : Options} (hl : l ∈ (w.setOptions i o).opened) :
    l ∈ w.opened ∨ o.source = .shared l :=
  opened_of_mem (fun _ => List.mem_or_eq_of_mem_set) hl

theorem opened_addOptions {name : String} {o : Options} (hl : l ∈ (w.addOptions name o).opened) :
    l ∈ w.opened ∨ o.source = .shared l :=
  opened_of_mem (fun _ hp => (List.mem_append.1 hp).imp_right List.mem_singleton.1) hl

theorem owns_of_ownOf {member : String} {o : ContentModel × Datum × Datum}
    (h : w.ownOf n member = .ok o) (hl : .shared l ∈ [o.2.1, o.2.2]) :
    w.store.Owns (.node n) (.list l) := by
  obtain ⟨b, hb, _⟩ := except_bind_ok h
  refine ⟨b.holding, holding_node (node_eq_ok_iff.1 hb), ?_⟩
  simpa [Holding.Has, Node.holding, ownOf_eq_ok hb h] using hl

theorem owns_of_holds {on member : String} (h : Change.Holds w on member l) :
    ∃ n, w.nodeId on = .ok n ∧ w.store.Owns (.node n) (.list l) := by
  obtain ⟨n, o, hn, ho, hl⟩ := h
  exact ⟨n, hn, owns_of_ownOf ho hl⟩

theorem store_setNode_of_holding {b b' : Node} (hb : w.nodes[n]? = some b)
    (h : b'.holding = b.holding) : (w.setNode n b').store = w.store := by
  obtain ⟨hself, hrest⟩ := holding_setNode hb b'
  have hholding : (w.setNode n b').holding = w.holding := by
    funext x
    by_cases hx : x = .node n
    · rw [hx, hself, h, holding_node hb]
    · exact hrest x hx
  exact congrArg (fun f => ({ w.store with holding := f } : Store)) hholding

theorem step_newList {name : String} {d : Datum} (h : w.newList name d = .ok w') :
    w.store.Step target w'.store := by
  obtain ⟨ds, _, h⟩ := except_bind_ok h
  cases h
  have hstep : w.store.Step target
      ((w.adding [ds] []).bindName name (.list w.lists.length)).store := by
    refine .grow [ds] [] fun l hl => ?_
    obtain rfl | hl := List.mem_cons.1 hl
    · exact .inr ⟨Nat.le_refl _, Nat.lt_succ_self _⟩
    · exact .inl hl
  simpa [adding] using hstep

/-- A block whose lines or substitutions are replaced by a list that is new or its own. -/
theorem step_setBody {b : Node} {member : String} {d : Datum} {o : ContentModel × Datum × Datum}
    {model : ContentModel} (lines subs : Datum)
    (htarget : target = some (.node n)) (hb : w.node n = .ok b) (ho : w.ownOf n member = .ok o)
    (hd : ∀ l, d = .shared l → w.store.Owns (.node n) (.list l))
    (hslots : ∀ x ∈ [lines, subs], x = (w.place d).1 ∨ x ∈ [o.2.1, o.2.2]) :
    w.store.Step target
      ((w.place d).2.setNode n { b with body := .block model lines subs }).store := by
  obtain ⟨ls, hplace, hfresh⟩ := w.place_eq d
  rw [node_eq_ok_iff] at hb
  obtain ⟨hself, hrest⟩ := holding_setNode (w := w.adding ls []) (n := n) hb
    { b with body := .block model lines subs }
  rw [hplace]
  refine .hold ls [] (.inr htarget) hself hrest (fun p hp => ?_) fun l hl => .inl hl
  cases p with
  | list l =>
    obtain hx | hx := hslots _ hp
    · exact (hfresh l hx.symm).imp_left (hd l)
    · exact .inl (owns_of_ownOf ho hx)
  | map m => exact .inl ⟨b.holding, holding_node hb, hp⟩

theorem step_setLines {d : Datum} (htarget : target = some (.node n))
    (hd : ∀ l, d = .shared l → w.store.Owns (.node n) (.list l)) (h : w.setLines n d = .ok w') :
    w.store.Step target w'.store := by
  obtain ⟨b, o, hb, ho, rfl⟩ := setLines_eq_ok h
  exact step_setBody (w.place d).1 o.2.2 htarget hb ho hd (by simp)

theorem step_setSubs {d : Datum} (htarget : target = some (.node n))
    (hd : ∀ l, d = .shared l → w.store.Owns (.node n) (.list l)) (h : w.setSubs n d = .ok w') :
    w.store.Step target w'.store := by
  obtain ⟨b, o, hb, ho, rfl⟩ := setSubs_eq_ok h
  exact step_setBody o.2.1 (w.place d).1 htarget hb ho hd (by simp)

theorem step_setAttribute {key : Value} {d : Datum} (htarget : target = some (.node n))
    (h : w.setAttribute n key d = .ok w') : w.store.Step target w'.store := by
  obtain ⟨b, hb, h⟩ := except_bind_ok h
  split at h
  · cases h
    exact .remap _ htarget ⟨b.holding, holding_node (node_eq_ok_iff.1 hb), rfl⟩
  · cases h

theorem store_setField {f : NodeField} {d : Datum} (h : w.setField n f d = .ok w') :
    w'.store = w.store := by
  obtain ⟨b, hb, h⟩ := except_bind_ok h
  cases f with
  | model => cases h
  | style | id | title | context =>
    cases h
    exact store_setNode_of_holding (node_eq_ok_iff.1 hb) rfl

theorem store_append {p c : NodeId} (h : w.append p c = .ok w') : w'.store = w.store := by
  obtain ⟨a, _, h⟩ := except_bind_ok h
  obtain ⟨b, hb, h⟩ := except_bind_ok h
  obtain ⟨a', ha', h⟩ := except_bind_ok h
  cases h
  refine (store_setNode_of_holding (node_eq_ok_iff.1 ha') ?_).trans
    (store_setNode_of_holding (node_eq_ok_iff.1 hb) ?_) <;> rfl

theorem step_addNode {b : Node} (h : ∀ p, b.holding.Has p → w.store.New ls ms p) :
    w.store.Step target ((w.adding ls ms).addNode b).store := by
  obtain ⟨hself, hrest⟩ := (w.adding ls ms).holding_addNode b
  have hnone : w.store.holding (.node w.nodes.length) = none := by simp [store, holding]
  exact .hold ls ms (.inl hnone) hself hrest (fun p hp => .inr (h p hp)) fun l hl => .inl hl

theorem step_addBare {b : Node} (es : DataEntries) (hb : b.holding = ⟨[], w.maps.length⟩) :
    w.store.Step target ((w.adding [] [es]).addNode b).store := by
  refine step_addNode fun p hp => ?_
  rw [hb] at hp
  cases p with
  | list l => cases hp
  | map m =>
    cases hp
    exact ⟨Nat.le_refl _, Nat.lt_succ_self _⟩

theorem step_addPlain (label : String) (context : Datum) (parent : Option NodeId) :
    w.store.Step target (w.addPlain label context parent).store := by
  simpa [addPlain] using step_addBare (b := .fresh (w.adding [] [[]]) label parent context
    w.maps.length .plain) [] rfl

theorem step_addDocument {label : String} {attributes : Datum} {p : Pipe} {c : Converter}
    (h : w.addDocument label attributes p c = .ok w') : w.store.Step target w'.store := by
  obtain ⟨es, _, h⟩ := except_bind_ok h
  cases h
  simpa [adding] using step_addBare (b := { Node.fresh (w.adding [] [es]) label none
    (.text "document") w.maps.length (.document p c) with document := some w.nodes.length }) es rfl

theorem step_addBlock {label : String} {context : Datum} {parent : Option NodeId} {o : Options}
    (h : (w.adding ls ms).addBlock label context parent o = .ok w') :
    w.store.Step target w'.store := by
  obtain ⟨lines, -, rfl⟩ := addBlock_eq_ok h
  rw [withBlock, adding_adding]
  refine step_addNode fun p hp => ?_
  cases p with
  | list l =>
    have hl : l = (w.lists ++ ls).length ∨ l = (w.lists ++ ls).length + 1 := by
      simpa [Holding.Has, Node.holding, Node.fresh] using hp
    obtain rfl | rfl := hl
    · simp [Store.New, IsNew, store]
    · simp [Store.New, IsNew, store]
      omega
  | map m =>
    cases hp
    simp [Store.New, IsNew, store, Node.holding, Node.fresh]

/-- Options whose list and whose mapping are new; their source is open, or is another new list. -/
theorem step_addOptions {name : String} {o : Options}
    (hmap : IsNew w.maps.length (w.maps.length + ms.length) o.attributes)
    (hlist : IsNew w.lists.length (w.lists.length + ls.length) o.subs)
    (hsource : ∀ l, o.source = .shared l →
      l ∈ w.opened ∨ IsNew w.lists.length (w.lists.length + ls.length) l ∧ o.subs ≠ l) :
    w.store.Step target ((w.adding ls ms).addOptions name o).store := by
  obtain ⟨hself, hrest⟩ := (w.adding ls ms).holding_addOptions name o
  have hnone : w.store.holding (.options w.options.length) = none := by simp [store, holding]
  refine .hold ls ms (.inl hnone) hself hrest (fun p hp => .inr ?_) fun l hl => ?_
  · cases p with
    | list l =>
      cases List.mem_singleton.1 hp
      exact hlist
    | map m =>
      cases hp
      exact hmap
  · obtain hl | hl := opened_addOptions hl
    · exact .inl hl
    · refine (hsource l hl).imp_right fun ⟨hnew, hne⟩ => ⟨hnew, fun hp => ?_⟩
      cases List.mem_singleton.1 hp
      exact absurd rfl hne

/-- Options that get another list or mapping get a new one. A new list becomes their source only if
they keep their substitutions. -/
theorem step_setOptions {i : Nat} {o o' : Options} (htarget : target = some (.options i))
    (ho : w.options[i]? = some o) (hrenewed : Options.Renewed w o (w.adding ls ms) o')
    (hsource : ∀ l, o'.source = .shared l → l ∈ w.opened ∨
      IsNew w.lists.length (w.lists.length + ls.length) l ∧ o'.subs = o.subs) :
    w.store.Step target ((w.adding ls ms).setOptions i o').store := by
  obtain ⟨hself, hrest⟩ := holding_setOptions (w := w.adding ls ms) ho o'
  have hown {p : Place} (hp : o.holding.Has p) : w.store.Owns (.options i) p :=
    ⟨o.holding, holding_options ho, hp⟩
  refine .hold ls ms (.inr htarget) hself hrest (fun p hp => ?_) fun l hl => ?_
  · cases p with
    | list l =>
      cases List.mem_singleton.1 hp
      refine hrenewed.subs.imp (fun h => hown ?_) fun h => by
        simpa [Store.New, store] using h
      rw [h]
      exact List.mem_singleton_self _
    | map m =>
      cases hp
      refine hrenewed.attributes.imp (fun h => hown ?_) fun h => by
        simpa [Store.New, store, Options.holding] using h
      exact h.symm
  · obtain hl | hl := opened_setOptions hl
    · exact .inl hl
    · refine (hsource l hl).imp_right fun ⟨hnew, hsubs⟩ => ⟨hnew, fun hp => hown ?_⟩
      simpa [Holding.Has, Options.holding, hsubs] using hp

theorem optionsAt_eq_ok {i : Nat} {o : Options} (h : w.optionsAt i = .ok o) :
    w.options[i]? = some o := by
  unfold optionsAt at h
  split at h
  next p hp =>
    cases h
    exact hp
  next => cases h

end Workspace

theorem OptionField.named?_eq_source {name : String} (h : named? name = some .source) :
    name = "source" := by
  unfold named? at h
  split at h <;> cases h
  rfl

namespace Options

variable {w w' : Workspace} {given : List (String × Datum)} {o o' : Options} {l : ListId}

theorem source_assign {c : Converted} (hl : (o.assign w c).1.source = .shared l) :
    o.source = .shared l ∨ c = .source (.shared l) ∨
      IsNew w.lists.length (o.assign w c).2.lists.length l ∧ (o.assign w c).1.subs = o.subs := by
  cases c with
  | source d =>
    obtain ⟨ls, hplace, hfresh⟩ := w.place_eq d
    obtain rfl | hnew := hfresh l hl
    · exact .inr (.inl rfl)
    · have hlength : (w.place d).2.lists.length = w.lists.length + ls.length := by simp [hplace]
      exact .inr (.inr ⟨hlength ▸ hnew, rfl⟩)
  | model | attributes | subs => exact .inl hl

theorem convert_eq_source {f : OptionField} {d d' : Datum} (h : convert w d f = .ok (.source d')) :
    f = .source ∧ d = d' := by
  cases f with
  | source =>
    cases h
    exact ⟨rfl, rfl⟩
  | model | attributes | subs =>
    obtain ⟨_, _, h⟩ := except_bind_ok h
    cases h

theorem source_set {f : OptionField} {d : Datum} (h : o.set w f d = .ok (o', w'))
    (hl : o'.source = .shared l) :
    o.source = .shared l ∨ (f = .source ∧ d = .shared l) ∨
      IsNew w.lists.length w'.lists.length l ∧ o'.subs = o.subs := by
  obtain ⟨c, hc, hassign⟩ := set_eq_ok h
  have hcases := source_assign (w := w) (o := o) (c := c) (l := l)
  rw [hassign] at hcases
  refine (hcases hl).imp_right (.imp_left fun hsource => ?_)
  subst hsource
  exact convert_eq_source hc

/-- The source of options that are made is the list that is given, or a new one beside the list of
their substitutions. -/
theorem source_ofFields (h : ofFields w given = .ok (o, w')) (hl : o.source = .shared l) :
    given.lookup "source" = some (.shared l) ∨
      IsNew w.lists.length w'.lists.length l ∧ o.subs ≠ l := by
  have hrun := ofFields_induction (P := fun x => IsNew w.lists.length x.2.lists.length x.1.subs ∧
      ∀ l, x.1.source = .shared l → given.lookup "source" = some (.shared l) ∨
        IsNew w.lists.length x.2.lists.length l ∧ x.1.subs ≠ l) ?_ ?_ h
  · exact hrun.2 l hl
  · refine ⟨by simp [default, IsNew], fun l hl => ?_⟩
    cases hl
  · rintro ⟨o₁, w₁⟩ name f d c ⟨hsubs, hsource⟩ hf hd hc
    have hrenewed := renewed_assign w₁ o₁ c
    have hle : w₁.lists.length ≤ (o₁.assign w₁ c).2.lists.length := by
      obtain ⟨ls, ms, hadded⟩ := hrenewed.added
      simp [hadded]
    have hle' : w.lists.length ≤ w₁.lists.length := Nat.le_trans hsubs.1 (Nat.le_of_lt hsubs.2)
    refine ⟨?_, fun l hl => ?_⟩
    · obtain h | h := hrenewed.subs
      · exact h ▸ hsubs.mono hle
      · exact h.later hle'
    · obtain hl | rfl | ⟨hnew, heq⟩ := source_assign hl
      · obtain hgiven | ⟨hnew, hne⟩ := hsource l hl
        · exact .inl hgiven
        · refine .inr ⟨hnew.mono hle, ?_⟩
          obtain h | h := hrenewed.subs
          · exact h ▸ hne
          · exact (hnew.ne h).symm
      · obtain ⟨rfl, rfl⟩ := convert_eq_source hc
        exact .inl (OptionField.named?_eq_source hf ▸ hd)
      · exact .inr ⟨hnew.later hle', heq ▸ hsubs.ne hnew⟩

end Options

end BlockTree

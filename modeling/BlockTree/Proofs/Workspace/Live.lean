import BlockTree.Proofs.Run
import BlockTree.Proofs.Workspace.Extension
import BlockTree.Workspace.Live

/-! Queries carried out in the workspace itself. They do what is said of them without it: the
results, the failures and the effects on tallies and log are the same, and the workspace is the old
one with more lists. -/
namespace BlockTree

namespace Run

variable {α β : Type}

theorem ofExcept_bind {σ : Type} (x : Except Failure α) (f : α → Except Failure β) :
    (ofExcept (x >>= f) : Run σ β) = ofExcept x >>= fun a => ofExcept (f a) := by
  cases x <;> rfl

end Run

namespace Workspace

variable (w : Workspace)

@[simp]
theorem extend_nil : w.extend [] = w := by
  rw [extend, List.append_nil]

theorem addList_extend (more : Lists) (ds : List Datum) :
    (w.extend more).addList ds = ((w.lists ++ more).length, w.extend (more ++ [ds])) := by
  simp only [addList, extend, List.append_assoc]

theorem substitute_eq_text (s : Substitutor Tally) {d : Datum} {t : String}
    (hd : d.text? = some t) (subs : Datum) :
    w.substitute s d subs = if subs.truthy w.lists then
      Run.ofExcept (subs.each w.lists) >>= fun names =>
        names.foldlM (applyName s) t >>= fun t => pure (.text t)
      else pure d := by
  unfold substitute
  rw [hd]

theorem substitute_eq_lines (s : Substitutor Tally) {d : Datum} (hd : d.text? = none)
    (subs : Datum) : w.substitute s d subs = if subs.truthy w.lists then
      if d.truthy w.lists then Run.ofExcept (d.join w.lists) >>= fun t =>
        Run.ofExcept (subs.each w.lists) >>= fun names =>
          names.foldlM (applyName s) t >>= fun t => pure (.items ((Text.splitFeeds t).map .text))
      else pure (.items [])
      else Run.ofExcept (d.each w.lists) >>= fun ds => pure (.items ds) := by
  unfold substitute
  rw [hd]

end Workspace

namespace Live

/-- Two results agree: they are in relation, or they are the same failure. -/
inductive Agrees {α β : Type} (R : α → β → Prop) : Except Failure α → Except Failure β → Prop
  | ok {a : α} {b : β} : R a b → Agrees R (.ok a) (.ok b)
  | error (f : Failure) : Agrees R (.error f) (.error f)

theorem Agrees.eq {α : Type} {x y : Except Failure α} (h : Agrees (· = ·) x y) : x = y := by
  cases h with
  | ok hab => rw [hab]
  | error => rfl

variable {α β γ δ : Type} {w : Workspace} {more : Lists}

/-- In the workspace `w` with more lists, a computation adds lists and otherwise does what another
one does. Results are compared where its lists have been added. -/
def Follows (w : Workspace) (more : Lists) (R : Lists → α → β → Prop) (y : Run Tally α)
    (x : Live β) : Prop :=
  ∀ e, ∃ more' r, more <+: more' ∧ x.run (w.extend more, e) = (r, (w.extend more', (y.run e).2)) ∧
    Agrees (R more') (y.run e).1 r

variable {R : Lists → α → β → Prop} {S : Lists → γ → δ → Prop} {x : Live β} {y : Run Tally α}

theorem bind_ok {s s' : Workspace × Effects Tally} {b : β} (f : β → Live δ)
    (h : x.run s = (.ok b, s')) : (x >>= f).run s = (f b).run s' := by
  change ExceptT.bindCont f (x.run s).1 (x.run s).2 = _
  rw [h]
  rfl

theorem bind_error {s s' : Workspace × Effects Tally} {r : Failure} (f : β → Live δ)
    (h : x.run s = (.error r, s')) : (x >>= f).run s = (.error r, s') := by
  change ExceptT.bindCont f (x.run s).1 (x.run s).2 = _
  rw [h]
  rfl

@[simp]
theorem see_run (f : Workspace → Except Failure α) (w : Workspace) (e : Effects Tally) :
    (see f).run (w, e) = (f w, (w, e)) := by
  change (((Run.ofExcept (f w)).run e).1, (w, ((Run.ofExcept (f w)).run e).2)) = _
  cases f w <;> rfl

@[simp]
theorem newList_run (ds : List Datum) (w : Workspace) (e : Effects Tally) :
    (newList ds).run (w, e) = (.ok (.shared (w.addList ds).1), ((w.addList ds).2, e)) := rfl

namespace Follows

theorem pure {a : α} {b : β} (h : R more a b) :
    Follows w more R (Pure.pure a) (Pure.pure b) :=
  fun _ => ⟨more, .ok b, List.prefix_rfl, rfl, .ok h⟩

theorem throw (f : Failure) : Follows w more R (MonadExcept.throw f) (MonadExcept.throw f) :=
  fun _ => ⟨more, .error f, List.prefix_rfl, rfl, .error f⟩

theorem bind {f : α → Run Tally γ} {g : β → Live δ} (h : Follows w more R y x)
    (hf : ∀ more' a b, more <+: more' → R more' a b → Follows w more' S (f a) (g b)) :
    Follows w more S (y >>= f) (x >>= g) := by
  intro e
  obtain ⟨more', r, hmore, hx, hr⟩ := h e
  match hy : y.run e, hr with
  | (.ok a, e'), .ok hab =>
    rw [hy] at hx
    obtain ⟨more'', r', hmore', hg, hr'⟩ := hf more' a _ hmore hab e'
    refine ⟨more'', r', hmore.trans hmore', ?_, ?_⟩
    · rw [bind_ok g hx, hg, Run.bind_ok f hy]
    · rwa [Run.bind_ok f hy]
  | (.error r, e'), .error _ =>
    rw [hy] at hx
    refine ⟨more', .error r, hmore, ?_, ?_⟩
    · rw [bind_error g hx, Run.bind_error f hy]
    · rw [Run.bind_error f hy]
      exact .error r

theorem read {y : Run Tally α} {f : Workspace → Run Tally α} (h : f (w.extend more) = y) :
    Follows w more (fun _ => Eq) y (Live.read f) := by
  intro e
  subst h
  refine ⟨more, ((f (w.extend more)).run e).1, List.prefix_rfl, rfl, ?_⟩
  cases ((f (w.extend more)).run e).1 with
  | ok a => exact .ok rfl
  | error r => exact .error r

theorem see {r : Except Failure α} {f : Workspace → Except Failure α} {g : α → Run Tally γ}
    {x : α → Live δ} (h : f (w.extend more) = r)
    (hg : ∀ a, r = .ok a → Follows w more S (g a) (x a)) :
    Follows w more S (Run.ofExcept r >>= g) (Live.see f >>= x) := by
  intro e
  have hsee := see_run f (w.extend more) e
  rw [h] at hsee
  cases r with
  | error r => exact ⟨more, .error r, List.prefix_rfl, bind_error x hsee, .error r⟩
  | ok a =>
    obtain ⟨more', r, hmore, hx, hr⟩ := hg a rfl e
    exact ⟨more', r, hmore, (bind_ok x hsee).trans hx, hr⟩

theorem seeing {S : Lists → α → α → Prop} {r : Except Failure α} {f : Workspace → Except Failure α}
    (h : f (w.extend more) = r) (hr : ∀ a, r = .ok a → S more a a) :
    Follows w more S (Run.ofExcept r) (Live.see f) := by
  have hsee := see (S := S) (g := Pure.pure) (x := Pure.pure) h fun a ha => pure (hr a ha)
  rwa [bind_pure, bind_pure] at hsee

theorem seen {a : α} {f : Workspace → Except Failure α} {z : Run Tally γ} {x : α → Live δ}
    (h : f (w.extend more) = .ok a) (hx : Follows w more S z (x a)) :
    Follows w more S z (Live.see f >>= x) := by
  have hbind := see (g := fun _ => z) h fun a' ha => by cases ha; exact hx
  exact hbind

theorem made {ds : List Datum} {z : Run Tally γ} {x : Datum → Live δ}
    (hds : ∀ d ∈ ds, d.Known w.lists.length)
    (hx : ∀ more' slice, more <+: more' →
      Datum.Realizes w.lists.length (w.lists ++ more') (.items ds) slice →
      Follows w more' S z (x slice)) :
    Follows w more S z (Live.newList ds >>= x) := by
  intro e
  have hnew : (Live.newList ds).run (w.extend more, e) =
      (.ok (.shared (w.lists ++ more).length), (w.extend (more ++ [ds]), e)) := by
    rw [newList_run, Workspace.addList_extend]
  have hlist : Datum.Realizes w.lists.length (w.lists ++ (more ++ [ds])) (.items ds)
      (.shared (w.lists ++ more).length) := by
    refine .list ?_ ?_ hds
    · rw [List.length_append]
      exact Nat.le_add_right ..
    · rw [← List.append_assoc, List.getElem?_append_right (Nat.le_refl _), Nat.sub_self]
      rfl
  have hmore : more <+: more ++ [ds] := List.prefix_append ..
  obtain ⟨more', r, hmore', hrun, hr⟩ := hx _ _ hmore hlist e
  exact ⟨more', r, hmore.trans hmore', (bind_ok x hnew).trans hrun, hr⟩

theorem newList {ds : List Datum} (hds : ∀ d ∈ ds, d.Known w.lists.length) :
    Follows w more (fun more => Datum.Realizes w.lists.length (w.lists ++ more))
      (Pure.pure (.items ds)) (Live.newList ds) := by
  rw [← bind_pure (Live.newList ds)]
  exact made hds fun _ _ _ hslice => pure hslice

end Follows

abbrev Like (w : Workspace) (more : Lists) : Datum → Datum → Prop :=
  Datum.Realizes w.lists.length (w.lists ++ more)

variable {d d' subs : Datum} {depth : Nat}

theorem Like.mono {more' : Lists} (h : Like w more d d') (hmore : more <+: more') :
    Like w more' d d' := by
  obtain ⟨added, rfl⟩ := hmore
  rw [Like, ← List.append_assoc]
  exact Datum.Realizes.mono h

theorem follows_copy (hw : w.Known) (h : Like w more d d') : Follows w more (Like w)
    (Run.ofExcept (d.each w.lists) >>= fun ds => pure (.items ds))
    (see (fun w => d'.each w.lists) >>= newList) :=
  .see h.each fun _ hds => .newList (h.known_each hw.lists hds)

theorem Like.eq_of_text {t : String} (h : Like w more d d') (ht : d.text? = some t) : d' = d := by
  cases h with
  | same => rfl
  | list => cases ht

theorem like_text (t : String) : Like w more (.text t) (.text t) := .same (.value _)

theorem known_texts (ts : List String) (k : Nat) : ∀ d ∈ ts.map Datum.text, d.Known k :=
  List.forall_mem_map.2 fun _ _ => .value _

theorem follows_copied (hw : w.Known) (h : Like w more d d') :
    Follows w more (Like w) (Run.ofExcept (w.copied d)) (copied d') := by
  unfold Workspace.copied copied
  rw [h.text?]
  cases d.text? with
  | some t => exact .pure h
  | none =>
    simp only [Run.ofExcept_bind]
    exact follows_copy hw h

theorem follows_substituteText (s : Substitutor Tally) (h : Like w more d d') {t : String}
    (ht : d.text? = some t) (hsubs : subs.Known w.lists.length) :
    Follows w more (Like w) (w.substitute s d subs) (substituteText s d' t subs) := by
  rw [Workspace.substitute_eq_text w s ht]
  unfold substituteText
  refine .seen (congrArg Except.ok hsubs.truthy_append) ?_
  split
  · refine .see hsubs.each_append fun names _ => ?_
    refine .bind (.read rfl) fun more' a b _ hab => ?_
    rw [hab]
    exact .pure (like_text b)
  · exact .pure h

theorem follows_substituteLines (hw : w.Known) (s : Substitutor Tally) (h : Like w more d d')
    (hd : d.text? = none) (hsubs : subs.Known w.lists.length) :
    Follows w more (Like w) (w.substitute s d subs) (substituteLines s d' subs) := by
  rw [Workspace.substitute_eq_lines w s hd]
  unfold substituteLines
  refine .seen (congrArg Except.ok hsubs.truthy_append) ?_
  split
  · refine .seen (congrArg Except.ok h.truthy) ?_
    split
    · refine .see h.join fun t _ => .see hsubs.each_append fun names _ => ?_
      refine .bind (.read rfl) fun more' a b _ hab => ?_
      rw [hab]
      exact .newList (known_texts _ _)
    · exact .newList (List.forall_mem_nil _)
  · exact follows_copy hw h

theorem follows_substitute (hw : w.Known) (s : Substitutor Tally) (h : Like w more d d')
    (hsubs : subs.Known w.lists.length) :
    Follows w more (Like w) (w.substitute s d subs) (substitute s d' subs) := by
  unfold substitute
  rw [h.text?]
  cases ht : d.text? with
  | some t => exact follows_substituteText s h ht hsubs
  | none => exact follows_substituteLines hw s h ht hsubs

theorem copied_extend (h : Like w more d d') : (w.extend more).copied d' = w.copied d := by
  unfold Workspace.copied
  rw [h.text?]
  cases ht : d.text? with
  | some t => rw [h.eq_of_text ht]
  | none => simp only [Workspace.extend, h.each]

/-- A call is recorded with copies of what it was given, so that it is the same record. -/
theorem record_extend (h : Like w more d d') (hsubs : subs.Known w.lists.length) (id : Nat) :
    (w.extend more).record id d' subs = w.record id d subs := by
  rw [Workspace.record, copied_extend h, Workspace.record, Workspace.extend, hsubs.each_append]

theorem follows_applyPipe (hw : w.Known) {p : Pipe} (hp : p.Known w.lists.length)
    (h : Like w more d d') (hsubs : subs.Known w.lists.length) :
    Follows w more (Like w) (w.applyPipe p d subs) (applyPipe p d' subs) := by
  cases p with
  | substitutor i => exact .seen rfl (follows_substitute hw _ h hsubs)
  | recorder id r =>
    refine .bind (.read (record_extend h hsubs id)) fun more' _ _ hmore _ => ?_
    cases r with
    | echo => exact follows_copied hw (h.mono hmore)
    | fixed d => exact .pure (.same hp)
    | fail kind t => exact .throw _

theorem known_documentOf (hw : w.Known) {b : Node} {x : Pipe × Converter}
    (h : w.documentOf b = .ok (some x)) : x.1.Known w.lists.length := by
  unfold Workspace.documentOf at h
  split at h
  · cases h
  · obtain ⟨a, ha, h⟩ := except_bind_ok h
    have hbody := (hw.node ha).body
    split at h
    next p c hdocument =>
      cases h
      rwa [hdocument] at hbody
    next => cases h

theorem follows_applySubs (hw : w.Known) {n : NodeId} {b : Node} (hb : w.node n = .ok b)
    (h : Like w more d d') (hsubs : subs.Known w.lists.length) :
    Follows w more (Like w) (w.applySubs b d subs) (applySubs n d' subs) := by
  refine .seen hb (.see rfl fun x hx => ?_)
  cases x with
  | none => exact follows_copied hw h
  | some x => exact follows_applyPipe hw (known_documentOf hw hx) h hsubs

theorem dropBlank_subset {ds ds' : List Datum} (h : Datum.dropBlank ds = .ok ds') : ds' ⊆ ds := by
  induction ds with
  | nil =>
    cases h
    exact List.Subset.refl _
  | cons d ds ih =>
    obtain ⟨blank, _, h⟩ := except_bind_ok h
    cases blank with
    | true => exact fun x hx => List.mem_cons_of_mem d (ih h hx)
    | false =>
      cases h
      exact List.Subset.refl _

theorem join_items (ls : Lists) (ds : List Datum) : (Datum.items ds).join ls =
    Datum.joined 0 ds >>= fun ts => pure (Text.joinLines ts) := rfl

theorem follows_trimmed (ds : List Datum) (hds : ∀ d ∈ ds, d.Known w.lists.length) :
    Follows w more (Like w) (Run.ofExcept (Datum.lineContent.trimmed ds)) (trimmed ds) := by
  match ds, hds with
  | [], _ => exact .pure (.same (.value _))
  | [d], hds => exact .pure (.same (hds d (List.mem_singleton_self d)))
  | c :: d :: ds, hds =>
    have htrimmed : Datum.lineContent.trimmed (c :: d :: ds) =
        Datum.dropBlank (c :: d :: ds) >>= fun front =>
          Datum.dropBlank front.reverse >>= fun back =>
          (Datum.items back.reverse).join w.lists >>= fun t => pure (.text t) := by
      simp [Datum.lineContent.trimmed, join_items]
    rw [htrimmed, Run.ofExcept_bind]
    refine .see rfl fun front hfront => ?_
    rw [Run.ofExcept_bind]
    refine .see rfl fun back hback => ?_
    have hslice : ∀ x ∈ back.reverse, x.Known w.lists.length := by
      intro x hx
      have hfrom := dropBlank_subset hback (List.mem_reverse.1 hx)
      exact hds x (dropBlank_subset hfront (List.mem_reverse.1 hfrom))
    refine .made hslice fun more' slice _ h => ?_
    rw [Run.ofExcept_bind]
    exact .see h.join fun t _ => .pure (like_text t)

theorem known_byPlace {es : DataEntries} {k i : Nat} (hes : es.Known k)
    (h : Datum.byPlace es i = .ok d) : d.Known k := by
  unfold Datum.byPlace at h
  split at h
  next x hx =>
    cases h
    induction es with
    | nil => cases hx
    | cons e es ih =>
      obtain ⟨he, hrest⟩ := List.forall_mem_cons.1 hes
      unfold DataEntries.find? at hx
      split at hx
      · cases hx
        exact he
      · exact ih hrest hx
  next => cases h

theorem known_mapContent {es : DataEntries} {k : Nat} (hes : es.Known k)
    (h : Datum.mapContent es = .ok d) : d.Known k := by
  unfold Datum.mapContent at h
  split at h
  next =>
    cases h
    exact .value _
  next => exact known_byPlace hes h
  next =>
    obtain ⟨_, _, h⟩ := except_bind_ok h
    obtain ⟨_, _, h⟩ := except_bind_ok h
    cases h

theorem follows_mapContent {es : DataEntries} (hes : es.Known w.lists.length) :
    Follows w more (Like w) (Run.ofExcept (Datum.mapContent es))
      (see fun _ => Datum.mapContent es) :=
  .seeing rfl fun _ h => .same (known_mapContent hes h)

theorem follows_valueLines {v : Value} (hmap : ∀ es, v ≠ .map es) :
    Follows w more (Like w) (Run.ofExcept ((Datum.value v).lineContent w.lists))
      (lineContent (.value v)) := by
  cases hitems : v.items with
  | ok vs =>
    have hdatum : (Datum.value v).lineContent w.lists =
        Datum.lineContent.trimmed (vs.map .value) := by
      cases v <;> first | exact absurd rfl (hmap _) | simp only [Datum.lineContent, hitems]
    have hlive : lineContent (.value v) = trimmed (vs.map .value) := by
      cases v <;> first | exact absurd rfl (hmap _) | simp only [lineContent, hitems]
    rw [hdatum, hlive]
    exact follows_trimmed _ (List.forall_mem_map.2 fun v _ => .value v)
  | error r =>
    have hdatum : (Datum.value v).lineContent w.lists = .error (.noLength v.kind) := by
      cases v <;> first | exact absurd rfl (hmap _) | simp only [Datum.lineContent, hitems]
    have hlive : lineContent (.value v) = throw (.noLength v.kind) := by
      cases v <;> first | exact absurd rfl (hmap _) | simp only [lineContent, hitems]
    rw [hdatum, hlive]
    exact .throw _

theorem follows_lineContent (hw : w.Known) (h : Like w more d d') :
    Follows w more (Like w) (Run.ofExcept (d.lineContent w.lists)) (lineContent d') := by
  cases h with
  | list _ hl hds =>
    exact .seen (congrArg Except.ok (Datum.Realizes.items_eq hl)) (follows_trimmed _ hds)
  | same hd =>
    cases hd with
    | shared hl =>
      exact .seen (congrArg Except.ok (Datum.getD_append hl))
        (follows_trimmed _ (Datum.known_getD hw.lists _))
    | items hds => exact follows_trimmed _ hds
    | fields hes => exact follows_mapContent hes
    | value v =>
      by_cases hmap : ∃ es, v = .map es
      · obtain ⟨es, rfl⟩ := hmap
        exact follows_mapContent (List.forall_mem_map.2 fun e _ => .value e.2)
      · exact follows_valueLines fun es h => hmap ⟨es, h⟩

theorem follows_ownContent (hw : w.Known) {n : NodeId} {b : Node} (hb : w.node n = .ok b)
    (model : ContentModel) {lines : Datum} (hlines : lines.Known w.lists.length)
    (hsubs : subs.Known w.lists.length) :
    Follows w more (Like w) (w.ownContent b model lines subs) (ownContent n model lines subs) := by
  have hlike : Like w more lines lines := .same hlines
  cases model with
  | simple => exact .see hlike.join fun t _ => follows_applySubs hw hb (like_text t) hsubs
  | verbatim | raw =>
    refine .see hlike.each fun ds hds => .made (hlike.known_each hw.lists hds) fun _ _ _ hcopy => ?_
    exact (follows_applySubs hw hb hcopy hsubs).bind fun _ _ _ _ h => follows_lineContent hw h
  | compound | empty => exact .pure (.same (.value _))

theorem follows_value (hw : w.Known) (h : Like w more d d') {z : Run Tally γ} {x : Value → Live δ}
    (hx : Follows w more S z (x (w.resolve d))) : Follows w more S z (value w.depth d' >>= x) :=
  .seen (congrArg Except.ok (h.resolve hw.lists w.depth)) hx

theorem follows_joinOutputs {ds ds' : List Datum} (h : List.Forall₂ (Like w more) ds ds') :
    Follows w more (Like w) (Run.ofExcept (Workspace.joinOutputs ds))
      (see fun _ => Workspace.joinOutputs ds') := by
  refine .seeing (Datum.Realizes.joinOutputs h) fun d hd => ?_
  obtain ⟨ts, _, hd⟩ := except_bind_ok hd
  cases hd
  exact like_text _

/-- The walks down a tree, with the same fuel. -/
structure Renders (w : Workspace) (fuel : Nat) : Prop where
  content (more : Lists) (n : NodeId) :
    Follows w more (Like w) (w.content fuel n) (content w.depth fuel n)
  outputs (more : Lists) (ns : List NodeId) :
    Follows w more (fun more => List.Forall₂ (Like w more)) (w.outputs fuel ns)
      (outputs w.depth fuel ns)
  convert (more : Lists) (n : NodeId) :
    Follows w more (Like w) (w.convert fuel n) (convert w.depth fuel n)

theorem renders (hw : w.Known) (fuel : Nat) : Renders w fuel := by
  induction fuel with
  | zero =>
    refine ⟨fun _ _ => .throw _, fun more ns => ?_, fun _ _ => .throw _⟩
    cases ns with
    | nil => exact .pure .nil
    | cons => exact .throw _
  | succ fuel ih =>
    refine ⟨fun more n => ?content, fun more ns => ?outputs, fun more n => ?convert⟩
    case content =>
      rw [Workspace.content, content]
      refine .see rfl fun b hb => ?_
      have hchildren := (ih.outputs more b.children).bind fun _ _ _ _ h => follows_joinOutputs h
      have hbody := (hw.node hb).body
      cases hmade : b.body with
      | plain | document => exact hchildren
      | block model lines subs =>
        rw [hmade] at hbody
        dsimp only
        split
        · exact hchildren
        · exact follows_ownContent hw hb model hbody.1 hbody.2
    case outputs =>
      cases ns with
      | nil => rw [Workspace.outputs, outputs]; exact .pure .nil
      | cons n ns =>
        rw [Workspace.outputs, outputs]
        refine (ih.convert more n).bind fun more' d d' _ hd => ?_
        refine (ih.outputs more' ns).bind fun more'' ds ds' hmore hds => ?_
        exact .pure (.cons (hd.mono hmore) hds)
    case convert =>
      rw [Workspace.convert, convert]
      refine .see rfl fun b hb => .see rfl fun x _ => ?_
      match x with
      | none | some (_, .content) => exact ih.content more n
      | some (_, .mute) => exact .pure (.same (.value _))
      | some (_, .tag) =>
        refine (ih.content more n).bind fun more' d d' _ hd => ?_
        rw [hd.isNull]
        split
        · exact .pure hd
        · refine follows_value hw (.same (hw.node hb).context) ?_
          exact follows_value hw hd (.pure (like_text _))

theorem follows_rendered (hw : w.Known) (n : NodeId) :
    Follows w more (Like w) (w.rendered n) (rendered w.depth n) := by
  unfold Workspace.rendered rendered
  refine .see rfl fun b _ => ?_
  cases b.body with
  | plain | block => exact .throw _
  | document => exact .seen rfl ((renders hw _).content more n)

theorem follows_exportedOwn (hw : w.Known) {b : Body} (hb : b.Known w.lists.length) :
    Follows w more (fun _ => Eq) (Run.ofExcept (w.exportedOwn b)) (exportedOwn w.depth b) := by
  cases b with
  | plain | document => exact .pure rfl
  | block model lines subs =>
    have hlines : Like w more lines lines := .same hb.1
    have hsubs : Like w more subs subs := .same hb.2
    have hown : w.exportedOwn (.block model lines subs) = lines.join w.lists >>= fun s =>
      subs.each w.lists >>= fun names => pure (.str s, w.resolve (.items names)) := rfl
    rw [hown, Run.ofExcept_bind]
    refine .see hlines.join fun s _ => ?_
    rw [Run.ofExcept_bind]
    refine .see hsubs.each fun names hnames => ?_
    exact .made (hsubs.known_each hw.lists hnames) fun _ _ _ h => follows_value hw h (.pure rfl)

theorem follows_attributes (hw : w.Known) (m : MapId)
    {z : Run Tally γ} {x : Value → Live δ} (hx : Follows w more S z (x (w.attributesOf m))) :
    Follows w more S z ((see fun w' => .ok ((w'.entriesAt m).resolve w'.lists w.depth)) >>= x) := by
  refine .seen (congrArg Except.ok (congrArg Value.map ?_)) hx
  refine List.map_congr_left fun e he => congrArg (e.1, ·) ?_
  exact (hw.entriesAt m e he).resolve_append hw.lists w.depth fun _ _ => rfl

structure Exports (w : Workspace) (fuel : Nat) : Prop where
  node (more : Lists) (n : NodeId) :
    Follows w more (fun _ => Eq) (w.exportedNode fuel n) (exportedNode w.depth fuel n)
  nodes (more : Lists) (ns : List NodeId) :
    Follows w more (fun _ => Eq) (w.exportedNodes fuel ns) (exportedNodes w.depth fuel ns)

theorem exports (hw : w.Known) (fuel : Nat) : Exports w fuel := by
  induction fuel with
  | zero =>
    refine ⟨fun _ _ => .throw _, fun more ns => ?_⟩
    cases ns with
    | nil => exact .pure rfl
    | cons => exact .throw _
  | succ fuel ih =>
    refine ⟨fun more n => ?node, fun more ns => ?nodes⟩
    case node =>
      rw [Workspace.exportedNode, exportedNode]
      refine .see rfl fun b hb => ?_
      obtain ⟨hcontext, hstyle, hid, htitle, hbody⟩ := hw.node hb
      refine (follows_exportedOwn hw hbody).bind fun more₁ own _ _ hown => ?_
      subst hown
      refine .seen rfl (((renders hw _).content more₁ n).bind fun more₂ d d' _ hd => ?_)
      refine (ih.nodes more₂ b.children).bind fun more₃ vs _ hmore hvs => ?_
      subst hvs
      refine follows_attributes hw b.attributes ?_
      refine follows_value hw (.same hcontext) (follows_value hw (.same hstyle) ?_)
      refine follows_value hw (.same hid) (follows_value hw (.same htitle) ?_)
      exact follows_value hw (hd.mono hmore) (.pure rfl)
    case nodes =>
      cases ns with
      | nil => rw [Workspace.exportedNodes, exportedNodes]; exact .pure rfl
      | cons n ns =>
        rw [Workspace.exportedNodes, exportedNodes]
        refine (ih.node more n).bind fun more' v _ _ hv => ?_
        refine (ih.nodes more' ns).bind fun more'' vs _ _ hvs => ?_
        rw [hv, hvs]
        exact .pure rfl

theorem follows_exported (hw : w.Known) (n : NodeId) (asBlock : Bool) :
    Follows w more (fun _ => Eq) (w.exported n asBlock) (exported w.depth n asBlock) := by
  unfold Workspace.exported exported
  refine .see rfl fun b hb => ?_
  have hnode : Follows w more (fun _ => Eq) (w.exportedNode w.reach n)
      (reach >>= fun fuel => exportedNode w.depth fuel n) :=
    .seen rfl ((exports hw _).node more n)
  cases hmade : b.body with
  | plain | block => exact hnode
  | document =>
    cases asBlock with
    | true => exact hnode
    | false =>
      refine (follows_rendered hw n).bind fun more₁ d d' _ hd => ?_
      refine .seen rfl (((exports hw _).nodes more₁ b.children).bind fun more₂ vs _ hmore hvs => ?_)
      subst hvs
      refine follows_attributes hw b.attributes ?_
      exact follows_value hw (hd.mono hmore) (.pure rfl)

theorem known_pipe (hw : w.Known) {name : String} {p : Pipe} (h : w.pipe name = .ok p) :
    p.Known w.lists.length := by
  unfold Workspace.pipe at h
  split at h
  · cases h
    trivial
  · obtain ⟨n, _, h⟩ := except_bind_ok h
    obtain ⟨b, hb, h⟩ := except_bind_ok h
    have hbody := (hw.node hb).body
    split at h
    next p c hdocument =>
      cases h
      rwa [hdocument] at hbody
    next => cases h

end Live

def Query.Known (k : Nat) : Query → Prop
  | .substituted _ d subs | .call _ d subs => d.Known k ∧ subs.Known k
  | _ => True

namespace Live

theorem follows_answer (hw : w.Known) {q : Query} (hq : q.Known w.lists.length) :
    Follows w [] (fun _ => Eq) (w.answer q) (answer q) := by
  refine .seen (congrArg (Except.ok ·.depth) w.extend_nil) ?_
  have reply {y : Run Tally Datum} {x : Live Datum} (h : Follows w [] (Like w) y x) :
      Follows w [] (fun _ => Eq) (y >>= fun d => pure (Reply.value (w.resolve d)))
        (x >>= fun d => value w.depth d >>= fun v => pure (.value v)) :=
    h.bind fun _ _ _ _ hd => follows_value hw hd (.pure rfl)
  cases q with
  | content on => exact .see rfl fun n _ => .seen rfl (reply ((renders hw _).content [] n))
  | output on => exact .see rfl fun n _ => .seen rfl (reply ((renders hw _).convert [] n))
  | rendered on => exact .see rfl fun n _ => reply (follows_rendered hw n)
  | substituted on source subs =>
    simp only [Workspace.answer, Workspace.onNode, Run.ofExcept_bind, bind_assoc]
    refine .see rfl fun n _ => ?_
    have hsubs : Follows w [] (Like w) (Run.ofExcept (w.node n) >>= fun b =>
        w.applySubs b source subs) (applySubs n source subs) := by
      cases hb : w.node n with
      | ok b => exact follows_applySubs hw hb (.same hq.1) hq.2
      | error r => exact .see hb nofun
    have hreply := reply hsubs
    rwa [bind_assoc] at hreply
  | exported on asBlock =>
    refine .see rfl fun n _ => (follows_exported hw n asBlock).bind fun _ v _ _ hv => ?_
    rw [hv]
    exact .pure rfl
  | call on source subs =>
    exact .see rfl fun p hp => reply (follows_applyPipe hw (known_pipe hw hp) (.same hq.1) hq.2)
  | _ => exact .read (congrArg (fun w' => Workspace.answer w' _) w.extend_nil)

end Live

namespace Session

/-- A query, carried out in the workspace itself with all the lists that are made on the way, ends
as it is said to end, whether with a reply or with a failure. It leaves all lists, mappings,
options, nodes and names as they are, and at most the tally and the log go on. This holds wherever
all lists that anything refers to exist, whatever the substitutors do, and all sessions that arise
are such. -/
theorem query_frame :
    (∀ modules s, Arises modules s → s.workspace.Known) ∧
      ∀ s : Session, s.workspace.Known → ∀ q : Query, q.Known s.workspace.lists.length →
        ∃ made r e,
          (Live.answer q).run (s.workspace, ⟨s.tally, []⟩) = (r, (s.workspace.extend made, e)) ∧
          s.act (.query q) = ({ s with tally := e.state }, r, e.log) ∧
          (s.step (.query q)).1 = { s with tally := e.state } := by
  refine ⟨fun _ _ hs => hs.known, fun s hs q hq => ?_⟩
  obtain ⟨made, r, -, hrun, hr⟩ := Live.follows_answer hs hq ⟨s.tally, []⟩
  rw [Workspace.extend_nil] at hrun
  have hact : s.act (.query q) = ({ s with
      tally := ((s.workspace.answer q).run ⟨s.tally, []⟩).2.state },
      r, ((s.workspace.answer q).run ⟨s.tally, []⟩).2.log) := by
    rw [← hr.eq]
    rfl
  refine ⟨made, r, _, hrun, hact, ?_⟩
  rw [step_fst, hact]

def trimming : Session :=
  (((start []).move
    (.step (.change (.list "l" (.items [.text "", .text "a", .text "b", .text ""]))))).move
    (.step (.change (.document "d" .null (.recorder (.fixed (.shared 0))) .content)))).move
    (.step (.change (.block "b" (.text "p") (some "d")
      (.fields [("content_model", .text "verbatim"), ("source", .text "x")]))))

theorem arises_trimming : Arises [] trimming := by
  have htexts : ∀ d ∈ [Datum.text "", .text "a", .text "b", .text ""], d.Known 0 :=
    Live.known_texts ["", "a", "b", ""] 0
  refine .move (.move (.move .start (.items htexts)) ⟨.value _, .shared ?_⟩) ⟨.value _, ?_⟩
  · with_unfolding_all exact (by decide : 0 < 1)
  · exact List.forall_mem_cons.2 ⟨.value _, List.forall_mem_singleton.2 (.value _)⟩

/-- The items of the pipeline's list are joined without the blank ones, and it keeps them. -/
theorem query_frame_trimming : ∃ made e,
    (Live.answer (.content "b")).run (trimming.workspace, ⟨trimming.tally, []⟩) =
      (.ok (.value (.str "a\nb")), (trimming.workspace.extend made, e)) ∧
    trimming.act (.query (.content "b")) =
      ({ trimming with tally := e.state }, .ok (.value (.str "a\nb")), e.log) := by
  obtain ⟨hknown, hframe⟩ := query_frame
  obtain ⟨made, r, e, hrun, hact, -⟩ :=
    hframe trimming (hknown [] trimming arises_trimming) (.content "b") trivial
  have hreply : (trimming.act (.query (.content "b"))).2.1 = .ok (.value (.str "a\nb")) := by
    with_unfolding_all rfl
  rw [hact] at hreply
  subst hreply
  exact ⟨made, e, hrun, hact⟩

end Session

end BlockTree

import BlockTree.Proofs.Workspace.Shown

/-! Runs in which nothing that a block holds is shared. Options and blocks are made from named lists
and from one another, and whatever is then changed through one of them is seen there alone. -/
namespace BlockTree

namespace Change

/-- No list is assigned to a block that it does not hold already, and no list without a name becomes
the source of options. -/
def Fair (w : Workspace) : Change → Prop
  | .setLines on d | .setSubs on d =>
    ∀ n l, w.nodeId on = .ok n → d = .shared l → w.store.Owns (.node n) (.list l)
  | .options _ given => ∀ l, given.lookup "source" = some (.shared l) → l ∈ w.namedLists
  | .setOption _ field d => field = "source" → ∀ l, d = .shared l → l ∈ w.namedLists
  | _ => True

variable {w w' : Workspace} {t t' : Tally} {r : Reply}

theorem nodeHolder_eq {on : String} {n : NodeId} (h : w.nodeId on = .ok n) :
    w.nodeHolder on = some (.node n) := by
  rw [Workspace.nodeHolder, h]
  rfl

theorem optionsHolder_eq {on : String} {i : Nat} (h : w.optionsId on = .ok i) :
    w.optionsHolder on = some (.options i) := by
  rw [Workspace.optionsHolder, h]
  rfl

theorem step_store {c : Change} (hfair : c.Fair w) (h : c.apply w t = .ok (w', t', r)) :
    w.store.Step (c.target w) w'.store := by
  have keep (h : w'.store = w.store) : w.store.Step (c.target w) w'.store := by
    rw [h]
    exact .keep
  have own {on member : String} {l : ListId} (hl : Holds w on member l) (ds : List Datum) :
      w.store.Step (w.nodeHolder on) (w.setList l ds).store := by
    obtain ⟨n, hn, hown⟩ := Workspace.owns_of_holds hl
    exact .rewrite ds (.inr ⟨_, nodeHolder_eq hn, hown⟩)
  cases makes_of_apply h with
  | list hw => exact Workspace.step_newList hw
  | appendItem hl =>
    exact .rewrite _ (.inl (List.mem_append_left _ (Workspace.mem_opened_of_listId hl)))
  | document hw => exact (Workspace.step_addDocument hw :)
  | plain p => exact Workspace.step_addPlain _ _ p
  | options ho =>
    obtain ⟨⟨ls, ms, rfl⟩, hmap, hlist⟩ := Options.renewed_ofFields ho
    refine Workspace.step_addOptions (by simpa using hmap) (by simpa using hlist) fun l hl => ?_
    refine (Options.source_ofFields ho hl).imp (fun hd => ?_) fun hnew => by simpa using hnew
    exact List.mem_append_left _ (hfair l hd)
  | block ho hw =>
    obtain ⟨ls, ms, rfl⟩ := adding_of_blockOptions ho
    exact Workspace.step_addBlock hw
  | setOption hf hi ho ho' =>
    have hrenewed := Options.renewed_set ho'
    obtain ⟨ls, ms, rfl⟩ := hrenewed.added
    have hat := Workspace.optionsAt_eq_ok ho
    -- a list that is the source now is so by name, or it was the source before, or it is new
    refine Workspace.step_setOptions (optionsHolder_eq hi) hat hrenewed fun l hl => ?_
    obtain hl | ⟨rfl, hd⟩ | hnew := Options.source_set ho' hl
    · exact .inl (Workspace.mem_opened_of_source (List.mem_of_getElem? hat) hl)
    · exact .inl (List.mem_append_left _ (hfair (OptionField.named?_eq_source hf) l hd))
    · exact .inr (by simpa using hnew)
  | setLines hn hw => exact Workspace.step_setLines (nodeHolder_eq hn) (fun l => hfair _ l hn) hw
  | setSubs hn hw => exact Workspace.step_setSubs (nodeHolder_eq hn) (fun l => hfair _ l hn) hw
  | appendLine hl | appendSub hl => exact own hl _
  | insertLine hl hw =>
    obtain ⟨ds, rfl⟩ := Workspace.insertItem_eq_ok hw
    exact own hl ds
  | popLine hl hw =>
    obtain ⟨ds, rfl⟩ := Workspace.popItem_eq_ok hw
    exact own hl ds
  | setAttribute hn hw => exact Workspace.step_setAttribute (nodeHolder_eq hn) hw
  | setField _ hw => exact keep (Workspace.store_setField hw)
  | append _ _ hw => exact keep (Workspace.store_append hw)
  | substitutor | register | unregister => exact keep rfl

end Change

def Step.Fair (w : Workspace) : Step → Prop
  | .change c => c.Fair w
  | _ => True

theorem Session.step_store {s : Session} {x : Step} (hfair : x.Fair s.workspace) :
    s.workspace.store.Step (x.target s.workspace) (s.step x).1.workspace.store := by
  have keep {s' : Session} (h : s'.workspace.store = s.workspace.store) :
      s.workspace.store.Step (x.target s.workspace) s'.workspace.store := by
    rw [h]
    exact .keep
  rw [step_fst]
  cases x with
  | query q => exact keep rfl
  | change c =>
    simp only [act]
    cases h : c.apply s.workspace s.tally with
    | ok a => exact Change.step_store hfair h
    | error f => exact keep rfl
  | load plugin on label =>
    obtain ⟨ss, h | ⟨name, i, h, -⟩⟩ := s.workspace_load plugin on label <;>
      exact keep (by rw [h]; rfl)

namespace Workspace

variable {w : Workspace} {target : Option Holder}

theorem step_alterList (name : String) (f : List Datum → List Datum) :
    w.store.Step target (w.alterList name f).store := by
  unfold alterList
  split
  next l hl => exact .rewrite _ (.inl (List.mem_append_left _ (mem_opened_of_listId hl)))
  next => exact .keep

theorem step_alterHeld (name : String) {f : Options → Workspace}
    (hf : ∀ i o, w.optionsId name = .ok i → w.options[i]? = some o →
      w.store.Step target (f o).store) :
    w.store.Step target (w.alterHeld name f).store := by
  unfold alterHeld
  split
  next o ho =>
    obtain ⟨i, hi, ho⟩ := except_bind_ok ho
    exact hf i o hi (optionsAt_eq_ok ho)
  next => exact .keep

theorem step_alterSource (name : String) (f : List Datum → List Datum) :
    w.store.Step target (w.alterSource name f).store := by
  refine step_alterHeld name fun i o _ ho => ?_
  split
  next l hl => exact .rewrite _ (.inl (mem_opened_of_source (List.mem_of_getElem? ho) hl))
  next => exact .keep

theorem step_alterSubs (name : String) (f : List Datum → List Datum) :
    w.store.Step (w.optionsHolder name)
      (w.alterHeld name fun o => w.setList o.subs (f (w.listAt o.subs))).store := by
  refine step_alterHeld name fun i o hi ho => ?_
  exact .rewrite _ (.inr ⟨_, Change.optionsHolder_eq hi, o.holding, holding_options ho,
    List.mem_singleton_self _⟩)

theorem step_alterAttributes (name : String) (f : DataEntries → DataEntries) :
    w.store.Step (w.optionsHolder name)
      (w.alterHeld name fun o => w.setMap o.attributes (f (w.entriesAt o.attributes))).store := by
  refine step_alterHeld name fun i o hi ho => ?_
  exact .remap _ (Change.optionsHolder_eq hi) ⟨o.holding, holding_options ho, rfl⟩

/-- The options get a mapping of their own, with the entries of the one that is assigned. -/
theorem step_passAttributes (name : String) (m : MapId) :
    w.store.Step (w.optionsHolder name) (w.passAttributes name m).store := by
  unfold passAttributes
  split
  next i hi =>
    refine step_alterHeld name fun j o hj ho => ?_
    obtain rfl : i = j := Except.ok.inj (hi.symm.trans hj)
    have hrenewed := Options.renewed_assign w o (.attributes (w.entriesAt m))
    obtain ⟨ls, ms, hadded⟩ := hrenewed.added
    rw [hadded] at hrenewed
    simp only [hadded]
    refine step_setOptions (Change.optionsHolder_eq hi) ho hrenewed fun l hl => .inl ?_
    exact mem_opened_of_source (List.mem_of_getElem? ho) hl
  next => exact .keep

end Workspace

namespace Move

def Fair (w : Workspace) : Move → Prop
  | .step x => x.Fair w
  | _ => True

end Move

namespace Session

theorem move_store {s : Session} {m : Move} (hfair : m.Fair s.workspace) :
    s.workspace.store.Step (m.target s.workspace) (s.move m).workspace.store := by
  cases m with
  | step x => exact step_store hfair
  | alterList name f => exact Workspace.step_alterList name f
  | alterSubs name f => exact Workspace.step_alterSubs name f
  | alterAttributes name f => exact Workspace.step_alterAttributes name f
  | alterSource name f => exact Workspace.step_alterSource name f
  | passAttributes name m => exact Workspace.step_passAttributes name m

inductive Reached (modules : List (String × Option (List (String × Stock)))) : Session → Prop
  | start : Reached modules (start modules)
  | move {s : Session} {m : Move} : Reached modules s → m.Fair s.workspace →
      Reached modules (s.move m)

theorem Reached.separate {modules : List (String × Option (List (String × Stock)))} {s : Session}
    (h : Reached modules s) : s.workspace.store.Separate := by
  induction h with
  | start => exact .empty _ fun x => by cases x <;> rfl
  | move _ hfair ih => exact (move_store hfair).separate ih

end Session

namespace Workspace

variable {w : Workspace}

theorem length_lists_alterHeld (name : String) {f : Options → Workspace}
    (hf : ∀ o, (f o).lists.length = w.lists.length) :
    (w.alterHeld name f).lists.length = w.lists.length := by
  unfold alterHeld
  split
  · exact hf _
  · rfl

end Workspace

theorem Change.length_lists {w w' : Workspace} {t t' : Tally} {r : Reply} {c : Change}
    (hc : c.inPlace = true) (h : c.apply w t = .ok (w', t', r)) :
    w'.lists.length = w.lists.length := by
  cases makes_of_apply h with
  | appendItem | appendLine | appendSub => exact w.length_lists_setList _ _
  | insertLine _ hw =>
    obtain ⟨ds, rfl⟩ := Workspace.insertItem_eq_ok hw
    exact w.length_lists_setList _ ds
  | popLine _ hw =>
    obtain ⟨ds, rfl⟩ := Workspace.popItem_eq_ok hw
    exact w.length_lists_setList _ ds
  | setAttribute _ hw =>
    obtain ⟨b, _, hw⟩ := except_bind_ok hw
    split at hw
    · cases hw
      rfl
    · cases hw
  | _ => cases hc

namespace Session

theorem length_lists_move {s : Session} {m : Move} (hm : m.inPlace = true) :
    (s.move m).workspace.lists.length = s.workspace.lists.length := by
  cases m with
  | step x =>
    cases x with
    | change c =>
      rw [move, step_fst]
      simp only [act]
      cases h : c.apply s.workspace s.tally with
      | ok a => exact Change.length_lists hm h
      | error f => rfl
    | _ => cases hm
  | alterList name f =>
    simp only [move, Workspace.alterList]
    split <;> simp
  | alterSubs name f => exact Workspace.length_lists_alterHeld name fun o => by simp
  | alterAttributes name f => exact Workspace.length_lists_alterHeld name fun _ => rfl
  | alterSource name f =>
    refine Workspace.length_lists_alterHeld name fun o => ?_
    split <;> simp
  | passAttributes name m => cases hm

/-- After any run of fair moves, a further one leaves the lines, the substitutions and the
attributes of every node stored as they are, and the substitutions and the attributes of all
options, but for the holder that it is made to. What is changed in place does not show at other
holders either, if nothing in them is shared. -/
theorem others_unchanged {modules : List (String × Option (List (String × Stock)))} {s : Session}
    (hs : Reached modules s) {m : Move} (hm : m.Fair s.workspace) {x : Holder}
    (hx : s.workspace.holding x ≠ none) (hother : m.target s.workspace ≠ some x) :
    (s.move m).workspace.store.stored x = s.workspace.store.stored x ∧
      (m.inPlace = true → (∀ k ∈ s.workspace.store.stored x, k.Plain) →
        (s.move m).workspace.shown x = s.workspace.shown x) := by
  have hstored := (move_store hm).stored_eq hs.separate hx hother
  refine ⟨hstored, fun hplace hplain => ?_⟩
  have hdepth : (s.move m).workspace.depth = s.workspace.depth :=
    congrArg (· + 1024) (length_lists_move hplace)
  rw [Workspace.shown_eq hplain, Workspace.shown_eq (by rwa [hstored]), hstored, hdepth]

def changed (s : Session) (c : Change) : Session := s.move (.step (.change c))

theorem Reached.changed {modules : List (String × Option (List (String × Stock)))} {s : Session}
    (h : Reached modules s) (c : Change) (hc : c.Fair s.workspace) :
    Reached modules (s.changed c) := .move h hc

def withOptions : Session :=
  ((start []).changed (.list "lines" (.value (.list [.str "a"])))).changed
    (.options "opts" [("source", .shared 0), ("subs", .text "upper")])

def twins : Session :=
  ((withOptions.changed (.block "x" (.text "p") none (.options "opts"))).changed
    (.block "y" (.text "p") none (.options "opts"))).changed (.appendLine "x" (.text "b"))

theorem reached_twins : Reached [] twins := by
  have hlist : Reached [] ((start []).changed (.list "lines" (.value (.list [.str "a"])))) :=
    Reached.start.changed _ trivial
  have hoptions : Reached [] withOptions := by
    refine hlist.changed _ fun l hl => ?_
    have hsource : some (Datum.shared 0) = some (.shared l) := hl
    cases hsource
    exact List.mem_singleton_self 0
  have hfirst := hoptions.changed (.block "x" (.text "p") none (.options "opts")) trivial
  have hsecond := hfirst.changed (.block "y" (.text "p") none (.options "opts")) trivial
  exact hsecond.changed (.appendLine "x" (.text "b")) trivial

/-- An attribute of the first paragraph is not seen in the second one, and no more is its line. -/
theorem others_unchanged_twins :
    ∃ s, s = twins.changed (.setAttribute "x" (.str "k") (.text "v")) ∧
      s.workspace.store.stored (.node 0) = some ⟨[.items [.text "a", .text "b"],
        .items [.text "upper"]], [(.str "k", .text "v")]⟩ ∧
      s.workspace.store.stored (.node 1) =
        some ⟨[.items [.text "a"], .items [.text "upper"]], []⟩ ∧
      s.workspace.shown (.node 1) = twins.workspace.shown (.node 1) := by
  have hplain : ∀ k ∈ twins.workspace.store.stored (.node 1), k.Plain := by
    intro k hk
    have hstored : some (Stored.mk [.items [.text "a"], .items [.text "upper"]] []) = some k := hk
    cases hstored
    refine ⟨?_, by simp⟩
    simp only [List.forall_mem_cons]
    refine ⟨.items ?_, .items ?_, by simp⟩ <;> simp [Datum.text, Datum.Plain.value]
  obtain ⟨hstored, hshown⟩ := others_unchanged (x := .node 1) reached_twins
    (m := .step (.change (.setAttribute "x" (.str "k") (.text "v")))) trivial
    (fun h => by cases h) (by decide)
  exact ⟨_, rfl, rfl, hstored, hshown rfl hplain⟩

end Session

end BlockTree

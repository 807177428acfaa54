import BlockTree.Proofs.Workspace.Changing

/-! Attributes as mappings: every key may be one, and no key stands twice. Attributes are proper
whatever they are made from, a mapping, pairs or nothing. -/
namespace BlockTree

/-- Entries that make up a mapping. -/
structure DataEntries.Proper (es : DataEntries) : Prop where
  hashable : ∀ e ∈ es, e.1.hashable = true
  distinct : es.Pairwise fun e e' => e.1.same e'.1 = false

def Datum.Proper : Datum → Prop
  | .value (.map es) => DataEntries.Proper (es.map fun e => (e.1, .value e.2))
  | .fields es => DataEntries.Proper es
  | _ => True

namespace DataEntries

variable {es : DataEntries} {key : Value} {ls : Lists} {d : Datum}

theorem Proper.nil : Proper [] := ⟨List.forall_mem_nil _, .nil⟩

theorem key_of_mem_put {e : Value × Datum} (h : e ∈ es.put key d) :
    e.1 = key ∨ ∃ e' ∈ es, e.1 = e'.1 := by
  induction es with
  | nil =>
    obtain rfl := List.mem_singleton.1 h
    exact .inl rfl
  | cons x es ih =>
    rw [put] at h
    split at h
    · obtain rfl | h := List.mem_cons.1 h
      · exact .inr ⟨x, List.mem_cons_self, rfl⟩
      · exact .inr ⟨e, List.mem_cons_of_mem x h, rfl⟩
    · obtain rfl | h := List.mem_cons.1 h
      · exact .inr ⟨x, List.mem_cons_self, rfl⟩
      · exact (ih h).imp_right fun ⟨e', he', heq⟩ => ⟨e', List.mem_cons_of_mem x he', heq⟩

theorem Proper.put (h : es.Proper) (hkey : key.hashable = true) (d : Datum) :
    (es.put key d).Proper := by
  refine ⟨fun e he => ?_, ?_⟩
  · obtain heq | ⟨e', he', heq⟩ := key_of_mem_put he
    · rwa [heq]
    · rw [heq]
      exact h.hashable e' he'
  · have hdistinct := h.distinct
    clear h
    induction es with
    | nil => exact List.pairwise_singleton ..
    | cons x es ih =>
      obtain ⟨hx, hes⟩ := List.pairwise_cons.1 hdistinct
      rw [DataEntries.put]
      split
      -- an entry that is replaced keeps its key
      next => exact List.pairwise_cons.2 ⟨hx, hes⟩
      next hne =>
        refine List.pairwise_cons.2 ⟨fun e he => ?_, ih hes⟩
        obtain heq | ⟨e', he', heq⟩ := key_of_mem_put he
        · rw [heq]
          exact Bool.eq_false_iff.2 hne
        · rw [heq]
          exact hx e' he'

theorem proper_ofPairs {ps : List (Value × Datum)} (h : ∀ p ∈ ps, p.1.hashable = true) :
    (ofPairs ps).Proper := by
  have hfold (es : DataEntries) (hes : es.Proper) :
      (ps.foldl (fun es p => es.put p.1 p.2) es).Proper := by
    induction ps generalizing es with
    | nil => exact hes
    | cons p ps ih =>
      obtain ⟨hp, hps⟩ := List.forall_mem_cons.1 h
      exact ih hps _ (hes.put hp p.2)
  exact hfold [] .nil

end DataEntries

namespace Datum

variable {ls : Lists} {d : Datum} {i : Nat}

theorem hashable_of_asPair {v : Value} {p : Value × Value} (h : v.asPair i = .ok p) :
    p.1.hashable = true := by
  unfold Value.asPair at h
  split at h
  · split at h
    next hnone =>
      cases h
      rw [Value.hashable, hnone]
      rfl
    next => cases h
  all_goals cases h

theorem hashable_of_pair {p : Value × Datum} (h : pair ls i d = .ok p) : p.1.hashable = true := by
  unfold pair at h
  split at h
  · obtain ⟨q, hq, h⟩ := except_bind_ok h
    cases h
    exact hashable_of_asPair hq
  · obtain ⟨ds, _, h⟩ := except_bind_ok h
    split at h
    · split at h
      next hkey =>
        cases h
        exact hkey
      next => cases h
    all_goals cases h

theorem hashable_of_pairs {ds : List Datum} {ps : List (Value × Datum)}
    (h : pairs ls i ds = .ok ps) : ∀ p ∈ ps, p.1.hashable = true := by
  induction ds generalizing i ps with
  | nil =>
    cases h
    exact List.forall_mem_nil _
  | cons d ds ih =>
    obtain ⟨p, hp, h⟩ := except_bind_ok h
    obtain ⟨qs, hqs, h⟩ := except_bind_ok h
    cases h
    exact List.forall_mem_cons.2 ⟨hashable_of_pair hp, ih hqs⟩

end Datum

theorem DataEntries.proper_ofDatum {es : DataEntries} {ls : Lists} {d : Datum} (hd : d.Proper)
    (h : ofDatum ls d = .ok es) : es.Proper := by
  unfold ofDatum at h
  split at h
  · split at h
    · cases h
      exact hd
    · cases h
      exact hd
    · obtain ⟨ds, _, h⟩ := except_bind_ok h
      obtain ⟨ps, hps, h⟩ := except_bind_ok h
      cases h
      exact proper_ofPairs (Datum.hashable_of_pairs hps)
  · cases h
    exact .nil

def Workspace.Proper (w : Workspace) : Prop := ∀ es ∈ w.maps, es.Proper

namespace Workspace

variable {w : Workspace}

theorem Proper.entriesAt (h : w.Proper) (m : MapId) : (w.entriesAt m).Proper := by
  rw [Workspace.entriesAt, List.getD_eq_getElem?_getD]
  cases hm : w.maps[m]? with
  | none => exact .nil
  | some es => exact h es (List.mem_of_getElem? hm)

theorem Proper.adding (h : w.Proper) (ls : Lists) {ms : List DataEntries}
    (hms : ∀ es ∈ ms, es.Proper) : (w.adding ls ms).Proper := List.forall_mem_append.2 ⟨h, hms⟩

theorem Proper.place (h : w.Proper) (d : Datum) : (w.place d).2.Proper := by
  obtain ⟨ls, hplace, -⟩ := w.place_eq d
  rw [hplace]
  exact h.adding ls (List.forall_mem_nil _)

end Workspace

namespace Options

variable {w w' : Workspace} {o o' : Options} {d : Datum}

def Converted.Proper : Converted → Prop
  | .attributes es => es.Proper
  | _ => True

theorem proper_convert {f : OptionField} {c : Converted} (hd : d.Proper)
    (hc : convert w d f = .ok c) : c.Proper := by
  cases f with
  | attributes =>
    obtain ⟨es, hes, hc⟩ := except_bind_ok hc
    cases hc
    exact DataEntries.proper_ofDatum hd hes
  | source =>
    cases hc
    trivial
  | model | subs =>
    obtain ⟨_, _, hc⟩ := except_bind_ok hc
    cases hc
    trivial

theorem proper_assign {c : Converted} (hw : w.Proper) (hc : c.Proper) :
    (o.assign w c).2.Proper := by
  cases c with
  | model m => exact hw
  | attributes es =>
    simp only [assign, Workspace.addMap_eq]
    exact hw.adding [] (List.forall_mem_singleton.2 hc)
  | subs ds =>
    simp only [assign, Workspace.addList_eq]
    exact hw.adding [ds] (List.forall_mem_nil _)
  | source d => exact hw.place d

theorem proper_set {f : OptionField} (hw : w.Proper) (hd : d.Proper)
    (h : o.set w f d = .ok (o', w')) : w'.Proper := by
  obtain ⟨c, hc, hassign⟩ := set_eq_ok h
  have hproper := proper_assign (o := o) hw (proper_convert hd hc)
  rwa [hassign] at hproper

theorem proper_ofFields {given : List (String × Datum)} (hw : w.Proper)
    (hgiven : ∀ g ∈ given, g.2.Proper) (h : ofFields w given = .ok (o, w')) : w'.Proper := by
  refine ofFields_induction (P := fun x => x.2.Proper) ?_ ?_ h
  · simp only [default, Workspace.addMap_eq, Workspace.addList_eq, Workspace.adding_adding]
    exact hw.adding _ (List.forall_mem_singleton.2 .nil)
  · rintro x name f d c hx - hlookup hc
    exact proper_assign hx (proper_convert (hgiven (name, d) (mem_of_lookup hlookup)) hc)

end Options

end BlockTree

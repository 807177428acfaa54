import BlockTree.Proofs.Definition.Reason
import BlockTree.Proofs.Failure

/-! What the checks of one block definition come to: the fields, the first reason against them, or a
text that cannot be written. -/
namespace BlockTree.Definition

theorem strings?_eq_some_iff {vs : List Value} {ss : List String} :
    Value.strings? vs = some ss ↔ vs.map Value.text? = ss.map some := by
  induction vs generalizing ss with
  | nil => cases ss <;> simp [Value.strings?]
  | cons v vs ih =>
    cases ss with
    | nil => simp [Value.strings?, Option.bind_eq_some_iff]
    | cons s ss => simp [Value.strings?, Option.bind_eq_some_iff, ih]

theorem strings?_isSome_iff {vs : List Value} :
    (Value.strings? vs).isSome ↔ ∀ v ∈ vs, v.text?.isSome := by
  induction vs with
  | nil => simp [Value.strings?]
  | cons v vs ih =>
    rw [List.forall_mem_cons, ← ih]
    cases hv : v.text? <;> cases hvs : Value.strings? vs <;> simp [Value.strings?, hv, hvs]

theorem subs?_isSome_iff {v : Value} : (subs? v).isSome ↔ HoldsTexts v := by
  cases v with
  | list vs => simp [subs?, strings?_isSome_iff, HoldsTexts, Value.text?]
  | _ => simp [subs?, HoldsTexts, Value.text?]

theorem lines?_isSome_iff {v : Value} : (lines? v).isSome ↔ HoldsTexts v := by
  cases v with
  | list vs => simp [lines?, strings?_isSome_iff, HoldsTexts, Value.text?]
  | _ => simp [lines?, HoldsTexts, Value.text?]

theorem attributes?_isSome_iff {v : Value} : (attributes? v).isSome ↔ HoldsEntries v := by
  cases v <;> simp [attributes?, HoldsEntries]

theorem ofValue_of_text {v : Value} (hnull : v ≠ .null) (hmodel : ∀ m, v ≠ .model m) :
    ContentModel.ofValue v = if v.writable then
      match ContentModel.named? (ContentModel.nameForm v.text) with
      | some m => .ok m
      | none => .error (.unknownModel (ContentModel.nameForm v.text))
    else .error .longInteger := by
  rw [ContentModel.ofValue.eq_3 v hnull hmodel, Value.form]
  generalize v.text = s
  cases v.writable with
  | false => rfl
  | true =>
    simp only [if_true, bind, Except.bind]
    generalize ContentModel.nameForm s = t
    cases ContentModel.named? t <;> rfl

theorem namesModel_iff_of_text {v : Value} (hnull : v ≠ .null) (hmodel : ∀ m, v ≠ .model m) :
    NamesModel v ↔ v.writable ∧
      ∃ m, ContentModel.named? (ContentModel.nameForm v.text) = some m := by
  simp only [NamesModel, hnull, hmodel, exists_false, false_or, ContentModel.named?_eq_some_iff]

theorem ofValue_ok_iff {v : Value} : (∃ m, ContentModel.ofValue v = .ok m) ↔ NamesModel v := by
  by_cases hnull : v = .null
  · subst hnull
    exact ⟨fun _ => .inl rfl, fun _ => ⟨.simple, rfl⟩⟩
  by_cases hmodel : ∃ m, v = .model m
  · obtain ⟨m, rfl⟩ := hmodel
    exact ⟨fun _ => .inr (.inl ⟨m, rfl⟩), fun _ => ⟨m, rfl⟩⟩
  have hmodel : ∀ m, v ≠ .model m := fun m hm => hmodel ⟨m, hm⟩
  rw [namesModel_iff_of_text hnull hmodel, ofValue_of_text hnull hmodel]
  cases v.writable with
  | false => simp
  | true => cases ContentModel.named? (ContentModel.nameForm v.text) <;> simp

/-- Reading a content model fails with the name that is none, or for want of a text. -/
theorem ofValue_error {v : Value} {f : Failure} (h : ContentModel.ofValue v = .error f) :
    (v.writable = true ∧ ∃ s, f = .unknownModel s) ∨ v.writable = false ∧ f = .longInteger := by
  have hnull : v ≠ .null := by
    intro hv
    subst hv
    cases h
  have hmodel (m : ContentModel) : v ≠ .model m := by
    intro hv
    subst hv
    cases h
  rw [ofValue_of_text hnull hmodel] at h
  cases hw : v.writable with
  | false =>
    rw [hw] at h
    cases h
    exact .inr ⟨rfl, rfl⟩
  | true =>
    rw [hw, if_pos rfl] at h
    split at h
    · cases h
    · cases h
      exact .inl ⟨rfl, _, rfl⟩

theorem form_eq_ok_iff {v : Value} : (∃ s, v.form = .ok s) ↔ v.writable := by
  rw [Value.form]
  cases v.writable <;> simp

theorem form_error {v : Value} (h : v.writable = false) : v.form = .error .longInteger := by
  rw [Value.form, h]
  rfl

theorem formIfAny_ok {v : Value} (h : v.writable) : ∃ s, v.formIfAny = .ok s := by
  by_cases hnull : v = .null
  · rw [hnull]
    exact ⟨none, rfl⟩
  · rw [Value.formIfAny.eq_2 v hnull, Value.form, h]
    exact ⟨some v.text, rfl⟩

theorem formIfAny_error {v : Value} (h : v.writable = false) :
    v.formIfAny = .error .longInteger := by
  by_cases hnull : v = .null
  · rw [hnull] at h
    cases h
  · rw [Value.formIfAny.eq_2 v hnull, form_error h]
    rfl

theorem texts_outcome (es : Entries)
    (make : String → Option String → Option String → Option String → Fields) :
    let r : Except Failure Fields := do
      let context ← (es.get "context").form
      let style ← (es.get "style").formIfAny
      let id ← (es.get "id").formIfAny
      let title ← (es.get "title").formIfAny
      pure (make context style id title)
    Written (.map es) ∧ (∃ f, r = .ok f) ∨ ¬ Written (.map es) ∧ r = .error .longInteger := by
  intro r
  have hwritten : Written (.map es) ↔ (es.get "context").writable ∧ (es.get "style").writable ∧
      (es.get "id").writable ∧ (es.get "title").writable := by simp [Written, Value.field]
  rw [hwritten]
  cases hc : (es.get "context").writable with
  | false => exact .inr ⟨by simp, except_bind_error (form_error hc)⟩
  | true =>
    obtain ⟨c, hc⟩ := form_eq_ok_iff.2 hc
    cases hs : (es.get "style").writable with
    | false =>
      exact .inr ⟨by simp, (except_bind_of_ok hc).trans (except_bind_error (formIfAny_error hs))⟩
    | true =>
      obtain ⟨s, hs⟩ := formIfAny_ok hs
      cases hi : (es.get "id").writable with
      | false =>
        exact .inr ⟨by simp, (except_bind_of_ok hc).trans <| (except_bind_of_ok hs).trans <|
          except_bind_error (formIfAny_error hi)⟩
      | true =>
        obtain ⟨i, hi⟩ := formIfAny_ok hi
        cases ht : (es.get "title").writable with
        | false =>
          exact .inr ⟨by simp, (except_bind_of_ok hc).trans <| (except_bind_of_ok hs).trans <|
            (except_bind_of_ok hi).trans <| except_bind_error (formIfAny_error ht)⟩
        | true =>
          obtain ⟨t, ht⟩ := formIfAny_ok ht
          exact .inl ⟨by simp, make c s i t, (except_bind_of_ok hc).trans <|
            (except_bind_of_ok hs).trans <| (except_bind_of_ok hi).trans <|
            (except_bind_of_ok ht).trans rfl⟩

section

variable (path : List Nat) {es : Entries} {r : DefinitionFault}

theorem fields_of_wellFormed (h : WellFormed (.map es)) :
    Written (.map es) ∧ (∃ f, fields path es = .ok f) ∨
      ¬ Written (.map es) ∧ fields path es = .error .longInteger := by
  have hc : (es.get "context").truthy = true := h.context
  obtain ⟨m, hm⟩ := ofValue_ok_iff.2 h.model
  obtain ⟨as, has⟩ := Option.isSome_iff_exists.1 (attributes?_isSome_iff.2 h.attributes)
  obtain ⟨ss, hss⟩ := Option.isSome_iff_exists.1 (subs?_isSome_iff.2 h.subs)
  obtain ⟨ls, hls⟩ := Option.isSome_iff_exists.1 (lines?_isSome_iff.2 h.source)
  simp only [Value.field] at has hss hls hm
  have htexts := texts_outcome es fun c s i t => ⟨c, m, s, i, t, as, ss, ls⟩
  simp only [fields, hc, hm, has, hss, hls]
  exact htexts

theorem fields_of_firstReason (h : FirstReason (.map es) r) :
    r.Legible ∧ fields path es = .error (.definition path r) ∨
      ¬ r.Legible ∧ fields path es = .error .longInteger := by
  -- every check before the one of `r` has passed, so that `fields` gets as far as that one
  have hcontext (hlt : 1 < r.rank) : (es.get "context").truthy = true :=
    eq_true_of_ne_false (h.passed .noContext hlt)
  have hmodel (hlt : 2 < r.rank) : ∃ m, ContentModel.ofValue (es.get "content_model") = .ok m :=
    ofValue_ok_iff.2 (Classical.byContradiction fun hn => h.passed (.unknownModel _) hlt ⟨rfl, hn⟩)
  have hattributes (hlt : 3 < r.rank) : ∃ as, attributes? (es.get "attributes") = some as :=
    Option.isSome_iff_exists.1
      (attributes?_isSome_iff.2 (Classical.not_not.1 (h.passed .attributes hlt)))
  have hsubs (hlt : 4 < r.rank) : ∃ ss, subs? (es.get "subs") = some ss :=
    Option.isSome_iff_exists.1 (subs?_isSome_iff.2 (Classical.not_not.1 (h.passed .subs hlt)))
  cases r with
  | notMapping => exact absurd rfl (h.violated es)
  | noContext =>
    have hc : (es.get "context").truthy = false := h.violated
    refine .inl ⟨trivial, ?_⟩
    simp only [fields, hc]
    rfl
  | unknownModel given =>
    have hc := hcontext (Nat.lt_succ_self 1)
    obtain ⟨rfl, hnames⟩ := h.violated
    cases hm : ContentModel.ofValue (es.get "content_model") with
    | ok m => exact absurd (ofValue_ok_iff.1 ⟨m, hm⟩) hnames
    | error f =>
      cases ofValue_error hm with
      | inl hw =>
        obtain ⟨hw, s, rfl⟩ := hw
        refine .inl ⟨hw, ?_⟩
        simp only [fields, hc, hm]
        rfl
      | inr hw =>
        obtain ⟨hw, rfl⟩ := hw
        refine .inr ⟨by simpa [DefinitionFault.Legible, Value.field] using hw, ?_⟩
        simp only [fields, hc, hm]
        rfl
  | attributes =>
    have hc := hcontext (by decide)
    obtain ⟨m, hm⟩ := hmodel (by decide)
    have ha : attributes? (es.get "attributes") = none :=
      Option.not_isSome_iff_eq_none.1 fun hs => h.violated (attributes?_isSome_iff.1 hs)
    refine .inl ⟨trivial, ?_⟩
    simp only [fields, hc, hm, ha]
    rfl
  | subs =>
    have hc := hcontext (by decide)
    obtain ⟨m, hm⟩ := hmodel (by decide)
    obtain ⟨as, has⟩ := hattributes (by decide)
    have hs : subs? (es.get "subs") = none :=
      Option.not_isSome_iff_eq_none.1 fun hs => h.violated (subs?_isSome_iff.1 hs)
    refine .inl ⟨trivial, ?_⟩
    simp only [fields, hc, hm, has, hs]
    rfl
  | source =>
    have hc := hcontext (by decide)
    obtain ⟨m, hm⟩ := hmodel (by decide)
    obtain ⟨as, has⟩ := hattributes (by decide)
    obtain ⟨ss, hss⟩ := hsubs (by decide)
    have hl : lines? (es.get "source") = none :=
      Option.not_isSome_iff_eq_none.1 fun hs => h.violated (lines?_isSome_iff.1 hs)
    refine .inl ⟨trivial, ?_⟩
    simp only [fields, hc, hm, has, hss, hl]
    rfl

variable {path}

theorem sound_of_fields {g : Fields} (h : fields path es = .ok g) : Sound (.map es) := by
  cases wellFormed_or_firstReason (.map es) with
  | inl hf =>
    cases fields_of_wellFormed path hf with
    | inl hw => exact ⟨hf, hw.1⟩
    | inr hw => cases h.symm.trans hw.2
  | inr hr =>
    obtain ⟨r, hr⟩ := hr
    cases fields_of_firstReason path hr with
    | inl hl => cases h.symm.trans hl.2
    | inr hl => cases h.symm.trans hl.2

theorem verdict_of_fields {f : Failure} (h : fields path es = .error f) :
    Verdict path (.map es) f := by
  cases wellFormed_or_firstReason (.map es) with
  | inl hf =>
    cases fields_of_wellFormed path hf with
    | inl hw =>
      obtain ⟨-, g, hg⟩ := hw
      cases h.symm.trans hg
    | inr hw =>
      cases h.symm.trans hw.2
      exact .unwritten hf hw.1
  | inr hr =>
    obtain ⟨r, hr⟩ := hr
    cases fields_of_firstReason path hr with
    | inl hl =>
      cases h.symm.trans hl.2
      exact .refused hr hl.1 fun _ hv => nomatch hv
    | inr hl =>
      cases h.symm.trans hl.2
      exact .illegible hr hl.1

/-- The fields of a definition exist exactly if it is sound. -/
theorem fields_ok_iff : (∃ g, fields path es = .ok g) ↔ Sound (.map es) := by
  constructor
  · intro h
    obtain ⟨g, hg⟩ := h
    exact sound_of_fields hg
  · intro hs
    cases hg : fields path es with
    | ok g => exact ⟨g, rfl⟩
    | error f => exact absurd hs (verdict_iff.1 ⟨f, verdict_of_fields hg⟩)

end

end BlockTree.Definition

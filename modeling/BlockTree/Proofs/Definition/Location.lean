import BlockTree.Proofs.Definition.Document

/-! Which definitions of documents are accepted, and which fault at which place is reported for the
others. -/
namespace BlockTree.Definition

variable {σ : Type}

/-- In a value and in all definitions below it, `blocks` is false or a list. -/
def Regular (v : Value) : Prop := ∀ π u, at? π v = some u → HoldsBlocks (u.field "blocks")

theorem regular_iff {v : Value} :
    Regular v ↔ HoldsBlocks (v.field "blocks") ∧ ∀ u ∈ listed v, Regular u := everywhere_iff

theorem ownFault_iff_verdict {path : List Nat} {v : Value} {f : Failure}
    (h : HoldsBlocks (v.field "blocks")) : OwnFault path v f ↔ Verdict path v f := by
  constructor
  · intro hf
    cases hf with
    | verdict hv => exact hv
    | blocks hv _ hf =>
      subst hv
      exact absurd h (exists_blocksFault_iff.1 ⟨f, hf⟩)
  · exact .verdict

/-- A document whose `blocks` are all false or lists is built exactly if every block definition in
it is sound. Otherwise the first one in reading order that is not decides the failure: its place and
the first reason against it, unless their text does not exist or the definition is endless. -/
theorem document_located (es : Entries)
    (hattributes : (Entries.get es "attributes").truthy = false ∨
      ∃ as, Entries.get es "attributes" = .map as)
    (hblocks : Regular (.map es)) (e : Effects σ) :
    ((∃ d, ((document (.map es)).run e).1 = .ok d) ↔
        ∀ i π v, at? (i :: π) (.map es) = some v → Sound v) ∧
      ((¬ ∀ i π v, at? (i :: π) (.map es) = some v → Sound v) →
        ∃ i π v f, at? (i :: π) (.map es) = some v ∧ ¬ Sound v ∧
          (∀ j ρ u, Before (j :: ρ) (i :: π) → at? (j :: ρ) (.map es) = some u → Sound u) ∧
          ((document (.map es)).run e).1 = .error f ∧ Verdict (i :: π) v f ∧
          (f.category = .definition → ∃ r, FirstReason v r ∧
            f.message = pathText (i :: π) ++ ": " ++ r.message)) := by
  have hroot : HoldsBlocks (Entries.get es "blocks") := hblocks [] _ rfl
  cases document_outcome (σ := σ) es with
  | unmappable hm _ _ => exact absurd (hattributes.imp_right .inl) hm
  | broken _ hf _ => exact absurd hroot (exists_blocksFault_iff.1 ⟨_, hf⟩)
  | @built d _ _ hall hd =>
    have hsound (i : Nat) (π : List Nat) (v : Value) (hv : at? (i :: π) (.map es) = some v) :
        Sound v := (hall i π v hv).1
    exact ⟨⟨fun _ => hsound, fun _ => ⟨d, hd e⟩⟩, fun hn => absurd hsound hn⟩
  | @faulty i π v f _ _ hv hbefore hown hf =>
    have hverdict := (ownFault_iff_verdict (hblocks _ v hv)).1 hown
    have hsound : ¬ Sound v := verdict_iff.1 ⟨f, hverdict⟩
    refine ⟨⟨fun hd => ?_, fun hall => absurd (hall i π v hv) hsound⟩, fun _ => ?_⟩
    · obtain ⟨d, hd⟩ := hd
      cases (hf e).symm.trans hd
    · have hearlier (j : Nat) (ρ : List Nat) (u : Value) (hlt : Before (j :: ρ) (i :: π))
          (hu : at? (j :: ρ) (.map es) = some u) : Sound u := (hbefore j ρ u hlt hu).1
      refine ⟨i, π, v, f, hv, hsound, hearlier, hf e, hverdict, fun hc => ?_⟩
      cases hverdict with
      | refused hr _ _ => exact ⟨_, hr, rfl⟩
      | illegible _ _ | unwritten _ _ | endless _ => cases hc

def secondFaulty : Entries := [(.str "blocks", .list [
  .map [(.str "context", .str "box"), (.str "content_model", .str "compound"),
    (.str "blocks", .list [.map [(.str "context", .str "lead")]])],
  .map [(.str "title", .str "Note"), (.str "subs", .int 1)]])]

theorem regular_of_null {es : Entries} (h : Entries.get es "blocks" = .null) :
    Regular (.map es) := by
  have hlisted : listed (.map es) = [] := by
    rw [listed, Value.field, h]
    rfl
  rw [regular_iff, hlisted]
  exact ⟨.inl (congrArg Value.truthy h), fun u hu => absurd hu List.not_mem_nil⟩

theorem regular_of_list {es : Entries} (vs : List Value)
    (h : Entries.get es "blocks" = .list vs) (hvs : ∀ v ∈ vs, Regular v) : Regular (.map es) := by
  rw [regular_iff, listed, Value.field, h, listItems]
  exact ⟨.inr ⟨vs, rfl⟩, hvs⟩

theorem regular_secondFaulty : Regular (.map secondFaulty) := by
  refine regular_of_list [_, _] (by cbv) ?_
  simp only [List.forall_mem_cons]
  refine ⟨regular_of_list [_] (by cbv) ?_, regular_of_null (by cbv), List.forall_mem_nil _⟩
  simp only [List.forall_mem_cons]
  exact ⟨regular_of_null (by cbv), List.forall_mem_nil _⟩

theorem document_located_secondFaulty :
    (Entries.get secondFaulty "attributes").truthy = false ∧ Regular (.map secondFaulty) ∧
      ∃ i π v f, at? (i :: π) (.map secondFaulty) = some v ∧ ¬ Sound v ∧
        ((document (.map secondFaulty)).run (⟨(), []⟩ : Effects Unit)).1 = .error f ∧
        Verdict (i :: π) v f := by
  have hattributes : (Entries.get secondFaulty "attributes").truthy = false := by cbv
  have hfaulty : ¬ ∀ i π v, at? (i :: π) (.map secondFaulty) = some v → Sound v := by
    intro hall
    have hsecond : at? [1] (.map secondFaulty) =
        some (.map [(.str "title", .str "Note"), (.str "subs", .int 1)]) := by cbv
    exact absurd (hall 1 [] _ hsecond).wellFormed.context (by cbv; exact Bool.false_ne_true)
  obtain ⟨i, π, v, f, hv, hsound, -, hf, hverdict, -⟩ :=
    (document_located secondFaulty (.inl hattributes) regular_secondFaulty ⟨(), []⟩).2 hfaulty
  exact ⟨hattributes, regular_secondFaulty, i, π, v, f, hv, hsound, hf, hverdict⟩

example : ((document (.map secondFaulty)).run (⟨(), []⟩ : Effects Unit)).1 =
    .error (.definition [1] .noContext) := by with_unfolding_all rfl

def modelled (v : Value) : Entries := [(.str "context", .str "p"), (.str "content_model", v)]

theorem firstReason_modelled {v : Value} (h : ¬ NamesModel v) :
    FirstReason (.map (modelled v)) (.unknownModel v) := by
  have hcontext : ((Value.map (modelled v)).field "context").truthy = true := by cbv
  have hmodel : (Value.map (modelled v)).field "content_model" = v := by cbv
  refine ⟨⟨hmodel.symm, h⟩, fun r hr => ?_⟩
  cases r with
  | notMapping => exact absurd rfl (hr (modelled v))
  | noContext => exact absurd (hr.symm.trans hcontext) Bool.false_ne_true
  | unknownModel _ => exact Nat.le_refl _
  | attributes | subs | source => exact Nat.le_of_ble_eq_true rfl

theorem not_writable_of_le {n : Nat} (h : Value.largest ≤ n) : (Value.int n).writable = false := by
  have hlt : ¬ (n : Int).natAbs < Value.largest := by
    rw [Int.natAbs_natCast]
    exact Nat.not_lt.2 h
  exact decide_eq_false hlt

/-- A number without a text is no known model, and yet the failure is not that it is unknown. -/
theorem longModel_unlocated :
    FirstReason (.map (modelled (.int Value.largest))) (.unknownModel (.int Value.largest)) ∧
      ((document (.map [(.str "blocks", .list [.map (modelled (.int Value.largest))])])).run
        (⟨(), []⟩ : Effects Unit)).1 = .error .longInteger ∧
      Failure.longInteger.category = .value := by
  have hwritable : (Value.int Value.largest).writable = false :=
    not_writable_of_le (Nat.le_refl _)
  generalize Value.int Value.largest = v at hwritable ⊢
  have hnames : ¬ NamesModel v := by
    intro h
    cases h with
    | inl hnull =>
      subst hnull
      cases hwritable
    | inr h =>
      cases h with
      | inl hmodel =>
        obtain ⟨m, rfl⟩ := hmodel
        cases hwritable
      | inr htext => exact Bool.false_ne_true (hwritable.symm.trans htext.1)
  have hfirst := firstReason_modelled hnames
  have hfields : fields [0] (modelled v) = .error .longInteger := by
    cases fields_of_firstReason [0] hfirst with
    | inl hl => exact absurd (hwritable.symm.trans hl.1) Bool.false_ne_true
    | inr hl => exact hl.2
  have hblock : (block [0] (.map (modelled v)) : Run Unit Block).Gives (.error .longInteger) :=
    Run.gives_bind_error (Run.gives_ofExcept hfields)
  have hnested : (nestedIn [] [(.str "blocks", .list [.map (modelled v)])] :
      Run Unit (List Block)).Gives (.error .longInteger) := by
    rw [nestedIn, if_pos (by cbv), children]
    exact Run.gives_bind_error hblock
  refine ⟨hfirst, ?_, rfl⟩
  have hattributes : Value.attributes
      (Entries.get [(.str "blocks", .list [.map (modelled v)])] "attributes") = .ok [] := by cbv
  exact Run.gives_bind_ok (Run.gives_ofExcept hattributes) (Run.gives_bind_error hnested) ⟨(), []⟩

end BlockTree.Definition

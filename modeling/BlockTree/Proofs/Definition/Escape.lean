import BlockTree.Proofs.Definition.Document

/-! Failures that are no faults of a definition: when building a document ends with one. -/
namespace BlockTree.Definition

variable {σ : Type}

def Unlistable (v : Value) : Prop := v.truthy = true ∧ ∃ f, v.items = .error f

/-- What keeps a definition from being read to its end, where no fault is reported for it: it is
inside itself, a text to be made of it does not exist, or its `blocks` has no items. -/
inductive Escapes (v : Value) : Prop
  | endless {isMap : Bool} : v = .again isMap → Escapes v
  | illegible {r : DefinitionFault} : FirstReason v r → ¬ r.Legible → Escapes v
  | unwritten : WellFormed v → ¬ Written v → Escapes v
  | blocks : Sound v → Unlistable (v.field "blocks") → Escapes v

theorem not_unlistable {v : Value} (h : HoldsBlocks v) : ¬ Unlistable v := by
  intro hu
  obtain ⟨ht, f, hf⟩ := hu
  cases h with
  | inl hv => exact Bool.false_ne_true (hv.symm.trans ht)
  | inr hv =>
    obtain ⟨vs, rfl⟩ := hv
    cases hf

theorem not_escapes {v : Value} (h : Clear v) : ¬ Escapes v := by
  intro hescapes
  cases hescapes with
  | endless hv =>
    obtain ⟨es, hes⟩ := h.1.wellFormed.mapping
    cases hv.symm.trans hes
  | illegible hr _ => exact wellFormed_iff.1 h.1.wellFormed _ hr.violated
  | unwritten _ hn => exact hn h.1.written
  | blocks _ hu => exact not_unlistable h.2 hu

theorem blocksFault_category {path : List Nat} {m : ContentModel} {v : Value} {f : Failure}
    (h : BlocksFault path m v f) : f.category ≠ .definition ↔ Unlistable v := by
  cases h with
  | item _ _ hi =>
    refine ⟨fun hc => absurd rfl hc, fun hu => ?_⟩
    obtain ⟨-, f, hf⟩ := hu
    cases hi.symm.trans hf
  | endless ht hi | uncounted ht hi _ | unread ht hi _ =>
    exact ⟨fun _ => ⟨ht, _, hi⟩, fun _ => by simp [Failure.category]⟩

/-- Of the faults of a definition exactly those escape that leave no reason to report. -/
theorem ownFault_category {path : List Nat} {v : Value} {f : Failure} (h : OwnFault path v f) :
    f.category ≠ .definition ↔ Escapes v := by
  cases h with
  | verdict hv =>
    cases hv with
    | refused hr hl ha =>
      refine ⟨fun hc => absurd rfl hc, fun hescapes => ?_⟩
      cases hescapes with
      | endless hv => exact absurd hv (ha _)
      | illegible hr' hn => exact absurd (hr.unique hr' ▸ hl) hn
      | unwritten hf _ => exact absurd hr.violated (wellFormed_iff.1 hf _)
      | blocks hs _ => exact absurd hr.violated (wellFormed_iff.1 hs.wellFormed _)
    | illegible hr hn => exact ⟨fun _ => .illegible hr hn, fun _ => by simp [Failure.category]⟩
    | unwritten hf hn => exact ⟨fun _ => .unwritten hf hn, fun _ => by simp [Failure.category]⟩
    | endless hv => exact ⟨fun _ => .endless hv, fun _ => by simp [Failure.category]⟩
  | @blocks es g _ hv hg hf =>
    subst hv
    have hs := sound_of_fields hg
    rw [blocksFault_category hf]
    refine ⟨.blocks hs, fun hescapes => ?_⟩
    cases hescapes with
    | endless hv => cases hv
    | illegible hr _ => exact absurd hr.violated (wellFormed_iff.1 hs.wellFormed _)
    | unwritten _ hn => exact absurd hs.written hn
    | blocks _ hu => exact hu

theorem holdsBlocks_of_at? {es : Entries} {i : Nat} {π : List Nat} {v : Value}
    (h : at? (i :: π) (.map es) = some v) : HoldsBlocks (Entries.get es "blocks") := by
  apply Classical.byContradiction
  intro hn
  have hlisted : listed (.map es) = [] :=
    listItems_of_not_list fun vs hvs => hn (.inr ⟨vs, hvs⟩)
  rw [at?, hlisted] at h
  cases h

/-- Building a document ends with something else than a document or a fault of a definition exactly
if its attributes are none, its `blocks` has no items, or the first definition in reading order that
is not clear is one that escapes. -/
theorem document_escapes_iff (es : Entries) (e : Effects σ) :
    (∃ f, ((document (.map es)).run e).1 = .error f ∧ f.category ≠ .definition) ↔
      ¬ Mappable (Entries.get es "attributes") ∨ Unlistable (Entries.get es "blocks") ∨
        ∃ i π v, at? (i :: π) (.map es) = some v ∧ Escapes v ∧ ClearBefore i π (.map es) := by
  cases document_outcome (σ := σ) es with
  | @unmappable f hm hc hf => exact ⟨fun _ => .inl hm, fun _ => ⟨f, hf e, hc⟩⟩
  | @broken g hm hg hgives =>
    -- the `blocks` of the document is neither false nor a list, so that nothing is below it
    have hno : ¬ HoldsBlocks (Entries.get es "blocks") := exists_blocksFault_iff.1 ⟨g, hg⟩
    constructor
    · intro h
      obtain ⟨f, hf, hc⟩ := h
      cases (hgives e).symm.trans hf
      exact .inr (.inl ((blocksFault_category hg).1 hc))
    · intro h
      obtain hn | hu | ⟨i, π, v, hv, -⟩ := h
      · exact absurd hm hn
      · exact ⟨g, hgives e, (blocksFault_category hg).2 hu⟩
      · exact absurd (holdsBlocks_of_at? hv) hno
  | @built d hm hb hall hd =>
    constructor
    · intro h
      obtain ⟨f, hf, -⟩ := h
      cases (hd e).symm.trans hf
    · intro h
      obtain hn | hu | ⟨i, π, v, hv, hescapes, -⟩ := h
      · exact absurd hm hn
      · exact absurd hu (not_unlistable hb)
      · exact absurd hescapes (not_escapes (hall i π v hv))
  | @faulty i π v g hm hb hv hbefore hown hgives =>
    constructor
    · intro h
      obtain ⟨f, hf, hc⟩ := h
      cases (hgives e).symm.trans hf
      exact .inr (.inr ⟨i, π, v, hv, (ownFault_category hown).1 hc, hbefore⟩)
    · intro h
      obtain hn | hu | ⟨j, ρ, u, hu, hescapes, hclear⟩ := h
      · exact absurd hm hn
      · exact absurd hu (not_unlistable hb)
      · -- neither place is before the other, since what is before either of them is clear
        have hle : ¬ Before (j :: ρ) (i :: π) := fun hlt =>
          not_escapes (hbefore j ρ u hlt hu) hescapes
        have hge : ¬ Before (i :: π) (j :: ρ) := fun hlt =>
          not_ownFault_of_clear (hclear i π v hlt hv) g hown
        rw [eq_of_not_before hle hge] at hu
        cases hv.symm.trans hu
        exact ⟨g, hgives e, (ownFault_category hown).2 hescapes⟩

theorem numberedBlocks_escape :
    ((document (.map [(.str "blocks", .int 5)])).run (⟨(), []⟩ : Effects Unit)).1 =
        .error (.notIterable "int") ∧
      (Failure.notIterable "int").category = .type := ⟨by with_unfolding_all rfl, rfl⟩

end BlockTree.Definition

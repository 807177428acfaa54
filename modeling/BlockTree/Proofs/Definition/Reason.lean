import BlockTree.Definition

/-! When a block definition is well-formed, and the reason for which it is refused otherwise: the
first of six checks that it violates. -/
namespace BlockTree

/-- The value under a name; what is no mapping has nothing there. -/
def Value.field : Value → String → Value
  | .map es, name => Entries.get es name
  | _, _ => .null

def DefinitionFault.rank : DefinitionFault → Nat
  | .notMapping => 0
  | .noContext => 1
  | .unknownModel _ => 2
  | .attributes => 3
  | .subs => 4
  | .source => 5

def DefinitionFault.Legible : DefinitionFault → Prop
  | .unknownModel given => given.writable
  | _ => True

namespace Definition

/-- A value that stands for a content model: nothing, a model, or something whose text is a name. -/
def NamesModel (v : Value) : Prop :=
  v = .null ∨ (∃ m, v = .model m) ∨
    v.writable ∧ ∃ m : ContentModel, ContentModel.nameForm v.text = m.name

def HoldsEntries (v : Value) : Prop := v = .null ∨ ∃ es, v = .map es

/-- Nothing, a text, or a list of texts. -/
def HoldsTexts (v : Value) : Prop :=
  v = .null ∨ v.text?.isSome ∨ ∃ vs, v = .list vs ∧ ∀ u ∈ vs, u.text?.isSome

structure WellFormed (v : Value) : Prop where
  mapping : ∃ es, v = .map es
  context : (v.field "context").truthy
  model : NamesModel (v.field "content_model")
  attributes : HoldsEntries (v.field "attributes")
  subs : HoldsTexts (v.field "subs")
  source : HoldsTexts (v.field "source")

def Written (v : Value) : Prop :=
  ∀ name ∈ ["context", "style", "id", "title"], (v.field name).writable

structure Sound (v : Value) : Prop where
  wellFormed : WellFormed v
  written : Written v

def Violates (v : Value) : DefinitionFault → Prop
  | .notMapping => ∀ es, v ≠ .map es
  | .noContext => (v.field "context").truthy = false
  | .unknownModel given => given = v.field "content_model" ∧ ¬ NamesModel given
  | .attributes => ¬ HoldsEntries (v.field "attributes")
  | .subs => ¬ HoldsTexts (v.field "subs")
  | .source => ¬ HoldsTexts (v.field "source")

theorem wellFormed_iff {v : Value} : WellFormed v ↔ ∀ r, ¬ Violates v r := by
  constructor
  · intro h r hr
    cases r with
    | notMapping =>
      obtain ⟨es, hes⟩ := h.mapping
      exact hr es hes
    | noContext => exact Bool.false_ne_true (hr.symm.trans h.context)
    | unknownModel given => exact hr.2 (hr.1 ▸ h.model)
    | attributes => exact hr h.attributes
    | subs => exact hr h.subs
    | source => exact hr h.source
  · intro h
    refine ⟨?_, ?_, ?_, ?_, ?_, ?_⟩
    · exact Classical.byContradiction fun hn => h .notMapping fun es hes => hn ⟨es, hes⟩
    · exact Classical.byContradiction fun hn => h .noContext (Bool.eq_false_iff.2 hn)
    · exact Classical.byContradiction fun hn => h (.unknownModel _) ⟨rfl, hn⟩
    · exact Classical.byContradiction (h .attributes)
    · exact Classical.byContradiction (h .subs)
    · exact Classical.byContradiction (h .source)

/-- The first check in order that a definition violates. -/
structure FirstReason (v : Value) (r : DefinitionFault) : Prop where
  violated : Violates v r
  first : ∀ r', Violates v r' → r.rank ≤ r'.rank

theorem FirstReason.unique {v : Value} {r r' : DefinitionFault} (h : FirstReason v r)
    (h' : FirstReason v r') : r = r' := by
  have hrank : r.rank = r'.rank := Nat.le_antisymm (h.first r' h'.violated) (h'.first r h.violated)
  cases r with
  | unknownModel given =>
    cases r' with
    | unknownModel given' => rw [h.violated.1, h'.violated.1]
    | _ => cases hrank
  | _ => cases r' <;> first | rfl | cases hrank

theorem FirstReason.passed {v : Value} {r : DefinitionFault} (h : FirstReason v r)
    (r' : DefinitionFault) (hlt : r'.rank < r.rank) : ¬ Violates v r' :=
  fun hv => Nat.not_lt.2 (h.first r' hv) hlt

theorem exists_firstReason {v : Value} {r : DefinitionFault} (h : Violates v r) :
    ∃ r', FirstReason v r' := by
  generalize hk : r.rank = k
  induction k using Nat.strongRecOn generalizing r with
  | ind k ih =>
    by_cases hfirst : ∀ r', Violates v r' → r.rank ≤ r'.rank
    · exact ⟨r, h, hfirst⟩
    · simp only [Classical.not_forall, Nat.not_le] at hfirst
      obtain ⟨r', hv, hlt⟩ := hfirst
      exact ih r'.rank (hk ▸ hlt) hv rfl

theorem wellFormed_or_firstReason (v : Value) : WellFormed v ∨ ∃ r, FirstReason v r := by
  by_cases h : WellFormed v
  · exact .inl h
  · rw [wellFormed_iff, Classical.not_forall] at h
    obtain ⟨r, hr⟩ := h
    exact .inr (exists_firstReason (Classical.not_not.1 hr))

/-- What the definition at a place fails with on its own account. A reason is given unless its text
does not exist, and a definition inside itself is read without end. -/
inductive Verdict (path : List Nat) (v : Value) : Failure → Prop
  | refused {r : DefinitionFault} : FirstReason v r → r.Legible → (∀ isMap, v ≠ .again isMap) →
      Verdict path v (.definition path r)
  | illegible {r : DefinitionFault} : FirstReason v r → ¬ r.Legible → Verdict path v .longInteger
  | unwritten : WellFormed v → ¬ Written v → Verdict path v .longInteger
  | endless {isMap : Bool} : v = .again isMap → Verdict path v .endless

theorem verdict_iff {path : List Nat} {v : Value} : (∃ f, Verdict path v f) ↔ ¬ Sound v := by
  constructor
  · intro h hs
    obtain ⟨f, hv⟩ := h
    cases hv with
    | refused hr _ _ | illegible hr _ => exact wellFormed_iff.1 hs.wellFormed _ hr.violated
    | unwritten _ hn => exact hn hs.written
    | endless hv =>
      obtain ⟨es, hes⟩ := hs.wellFormed.mapping
      cases hv.symm.trans hes
  · intro h
    cases wellFormed_or_firstReason v with
    | inl hf => exact ⟨_, .unwritten hf fun hw => h ⟨hf, hw⟩⟩
    | inr hr =>
      obtain ⟨r, hr⟩ := hr
      by_cases hl : r.Legible
      · by_cases ha : ∃ isMap, v = .again isMap
        · obtain ⟨isMap, hv⟩ := ha
          exact ⟨_, .endless hv⟩
        · exact ⟨_, .refused hr hl fun isMap hv => ha ⟨isMap, hv⟩⟩
      · exact ⟨_, .illegible hr hl⟩

end Definition

end BlockTree

import BlockTree.Proofs.Rendering.LineContent
import BlockTree.Proofs.Substitutor.Fold

/-! Rendering where nothing is registered. Every name is then unknown, and all that comes of it is a
notice. The content of a block is the one it has without a document, where no name is looked up. -/
namespace BlockTree

namespace Run

variable {σ α β : Type}

/-- Ends with this result, leaves the state as it is, and logs that these names are unknown. -/
def Warns (x : Run σ α) (a : α) (names : List String) : Prop :=
  ∀ e, x.run e =
    (.ok a, ⟨e.state, e.log ++ names.map fun name => .unknownSubstitution (.str name)⟩)

theorem warns_pure (a : α) : Warns (pure a : Run σ α) a [] :=
  fun e => by rw [List.map_nil, List.append_nil]; rfl

theorem Warns.bind {x : Run σ α} {f : α → Run σ β} {a : α} {b : β} {us vs : List String}
    (hx : Warns x a us) (hf : Warns (f a) b vs) : Warns (x >>= f) b (us ++ vs) := by
  intro e
  rw [bind_ok f (hx e), hf, List.map_append, List.append_assoc]

theorem Warns.map {x : Run σ α} {a : α} {us : List String} (hx : Warns x a us) (f : α → β) :
    Warns (f <$> x) (f a) us := by
  intro e
  rw [map_run, hx e]
  rfl

end Run

namespace Substitutor

variable {σ : Type}

theorem warns_empty_applyText (text : String) (names : List String) :
    ((empty : Substitutor σ).applyText text names).Warns text names := by
  induction names with
  | nil => exact Run.warns_pure text
  | cons name names ih =>
    have hstep : ((empty : Substitutor σ).step text name).Warns text [name] :=
      fun e => step_unknown rfl text e
    rw [applyText_cons]
    exact hstep.bind ih

theorem warns_empty_applyLines {ls : List String} (h : ∀ l ∈ ls, '\n' ∉ l.toList)
    (names : List String) :
    ∃ unknown, ((empty : Substitutor σ).applyLines ls names).Warns ls unknown := by
  by_cases hne : ls = []
  · rw [hne, applyLines_nil]
    exact ⟨[], Run.warns_pure []⟩
  · have htext := (warns_empty_applyText (σ := σ) (Text.joinLines ls) names).map Text.splitFeeds
    rw [Text.splitFeeds_joinLines hne h] at htext
    rw [applyLines_eq_split _ hne h]
    exact ⟨names, htext⟩

end Substitutor

namespace Block

variable {σ : Type}

theorem ownContent_bare (f : Fields) (h : ∀ l ∈ f.lines, '\n' ∉ l.toList) :
    ∃ c names, ownContent (.detached : Pipeline (Run σ)) f = pure c ∧
      (ownContent (.ofSubstitutor (.empty : Substitutor σ)) f).Warns c names := by
  unfold ownContent
  cases f.model with
  | compound | empty => exact ⟨none, [], rfl, Run.warns_pure none⟩
  | simple =>
    exact ⟨_, _, rfl, (Substitutor.warns_empty_applyText _ f.subs).bind (Run.warns_pure _)⟩
  | verbatim | raw =>
    obtain ⟨names, hlines⟩ := Substitutor.warns_empty_applyLines (σ := σ) h f.subs
    exact ⟨_, _, rfl, hlines.bind (Run.warns_pure _)⟩

mutual
/-- A block has the same content without a document as in one without substitutions. -/
theorem content_bare : (b : Block) → (∀ c ∈ b.preorder, ∀ l ∈ c.fields.lines, '\n' ∉ l.toList) →
    ∃ c names, b.content (.detached : Pipeline (Run σ)) = pure c ∧
      (b.content (.ofSubstitutor (.empty : Substitutor σ))).Warns c names
  | .node f bs, h => by
    obtain ⟨hf, hbs⟩ := List.forall_mem_cons.1 h
    rw [content, content]
    by_cases hcompound : f.model = .compound
    · obtain ⟨cs, names, hdetached, hwarns⟩ := contents_bare bs hbs
      rw [if_pos hcompound, if_pos hcompound, hdetached]
      exact ⟨_, _, rfl, hwarns.bind (Run.warns_pure _)⟩
    · rw [if_neg hcompound, if_neg hcompound]
      exact ownContent_bare f hf

theorem contents_bare : (bs : List Block) →
    (∀ c ∈ preorderAll bs, ∀ l ∈ c.fields.lines, '\n' ∉ l.toList) →
    ∃ cs names, contents (.detached : Pipeline (Run σ)) bs = pure cs ∧
      (contents (.ofSubstitutor (.empty : Substitutor σ)) bs).Warns cs names
  | [], _ => ⟨[], [], rfl, Run.warns_pure []⟩
  | b :: bs, h => by
    obtain ⟨hb, hbs⟩ := List.forall_mem_append.1 h
    obtain ⟨c, us, hc, hwarns⟩ := content_bare b hb
    obtain ⟨cs, vs, hcs, hall⟩ := contents_bare bs hbs
    rw [contents, contents, hc, hcs]
    exact ⟨_, _, rfl, hwarns.bind (hall.bind (Run.warns_pure _))⟩
end

end Block

end BlockTree

import BlockTree.Proofs.Rendering.Calls
import BlockTree.Proofs.Rendering.Flat
import BlockTree.Proofs.Rendering.LineContent
import BlockTree.Proofs.Substitutor
import BlockTree.Substitutor.Stock

/-! Rendering with a substitutor. A document is the join of the texts its blocks add; children of
other than compound blocks do not count, and neither does wrapping siblings into compound blocks. -/
namespace BlockTree

open Text (joinLines)

namespace Block

variable {m : Type → Type} [Monad m]

mutual
/-- The block without what is inside blocks that are not compound. -/
def pruned : Block → Block
  | .node f bs => .node f (if f.model = .compound then prunedAll bs else [])

def prunedAll : List Block → List Block
  | [] => []
  | b :: bs => b.pruned :: prunedAll bs
end

mutual
theorem content_pruned (p : Pipeline m) : ∀ b : Block, b.pruned.content p = b.content p
  | .node f bs => by
    by_cases h : f.model = .compound
    · simp only [pruned, content, if_pos h, contents_pruned p bs]
    · simp only [pruned, content, if_neg h]

theorem contents_pruned (p : Pipeline m) :
    ∀ bs : List Block, contents p (prunedAll bs) = contents p bs
  | [] => rfl
  | b :: bs => by simp only [prunedAll, contents, content_pruned p b, contents_pruned p bs]
end

theorem contents_append [LawfulMonad m] (p : Pipeline m) (as bs : List Block) :
    contents p (as ++ bs) = do
      let cs ← contents p as
      let ds ← contents p bs
      return cs ++ ds := by
  induction as with
  | nil => simp [contents]
  | cons a as ih =>
    simp only [List.cons_append, contents, ih, bind_assoc, pure_bind, List.append_assoc]

/-- Siblings, and the same with some of them wrapped into a compound block, here or at any depth.
One of the wrapped blocks has to render. -/
inductive Wrapped (Renders : Block → Prop) : List Block → List Block → Prop
  | here {f : Fields} (before run after : List Block) : f.model = .compound →
      (∃ b ∈ run, Renders b) →
      Wrapped Renders (before ++ run ++ after) (before ++ .node f run :: after)
  | inside {bs bs' : List Block} (f : Fields) (before after : List Block) :
      Wrapped Renders bs bs' →
      Wrapped Renders (before ++ .node f bs :: after) (before ++ .node f bs' :: after)

end Block

namespace Substitutor

variable {σ : Type}

def Renders (s : Substitutor σ) (b : Block) : Prop :=
  ∃ e c e', (b.content (.ofSubstitutor s)).run e = (.ok (some c), e')

variable {s : Substitutor σ} {e e' : Effects σ}

theorem ownContent_eq_none_iff {f : Fields} {c : Option String} (hf : f.model.lineOriented)
    (h : (Block.ownContent (.ofSubstitutor s) f).run e = (.ok c, e')) :
    c = none ↔ f.lines = [] := by
  rw [Block.ownContent_of_lineOriented _ hf, map_eq_pure_bind] at h
  obtain ⟨rs, e₁, hr, h⟩ := Run.bind_eq_ok h
  cases h
  rw [lineContent_eq_none_iff, applyLines_eq_nil_iff hr]

theorem bind_some_ne_none {α β : Type} {x : Run σ α} {f : α → β} {c : Option β}
    (h : (x >>= fun a => pure (some (f a))).run e = (.ok c, e')) : c ≠ none := by
  obtain ⟨a, e₁, _, h⟩ := Run.bind_eq_ok h
  cases h
  exact Option.some_ne_none (f a)

theorem Renders.content_ne_none {b : Block} (hb : s.Renders b) {c : Option String}
    (h : (b.content (.ofSubstitutor s)).run e = (.ok c, e')) : c ≠ none := by
  obtain ⟨f, bs⟩ := b
  obtain ⟨e₀, c₀, e₁, h₀⟩ := hb
  rw [Block.content] at h h₀
  by_cases hm : f.model = .compound
  · rw [if_pos hm] at h
    exact bind_some_ne_none h
  · rw [if_neg hm] at h h₀
    by_cases hl : f.model.lineOriented
    · rw [ne_eq, ownContent_eq_none_iff hl h, ← ownContent_eq_none_iff hl h₀]
      exact Option.some_ne_none c₀
    · cases hf : f.model with
      | compound => exact absurd hf hm
      | verbatim | raw => simp [hf, ContentModel.lineOriented] at hl
      | empty =>
        simp only [Block.ownContent, hf] at h₀
        cases h₀
      | simple =>
        simp only [Block.ownContent, hf] at h
        exact bind_some_ne_none h

theorem contents_ne_nil {bs : List Block} (hb : ∃ b ∈ bs, s.Renders b) {cs : List String}
    (h : (Block.contents (.ofSubstitutor s) bs).run e = (.ok cs, e')) : cs ≠ [] := by
  induction bs generalizing e cs with
  | nil => simp at hb
  | cons a as ih =>
    rw [Block.contents] at h
    obtain ⟨c, e₁, ha, h⟩ := Run.bind_eq_ok h
    obtain ⟨ds, e₂, has, h⟩ := Run.bind_eq_ok h
    cases h
    obtain ⟨b, hm, hr⟩ := hb
    obtain rfl | hm := List.mem_cons.1 hm
    · have hc := hr.content_ne_none ha
      cases c with
      | none => exact absurd rfl hc
      | some c => simp
    · have hd := ih ⟨b, hm, hr⟩ has
      simp [hd]

/-- Wrapping siblings of which one renders keeps what the siblings join to, and every effect. -/
theorem wrapped_contents {bs bs' : List Block} (h : Block.Wrapped s.Renders bs bs') :
    joinLines <$> Block.contents (.ofSubstitutor s) bs' =
      joinLines <$> Block.contents (.ofSubstitutor s) bs := by
  induction h with
  | @here f before run after hf hr =>
    simp only [Block.contents_append, Block.contents, Block.content, if_pos hf, bind_assoc,
      pure_bind, map_bind, map_pure, Option.toList_some]
    refine bind_congr fun as => Run.bind_congr_run fun e ts e' ht => ?_
    have hn := contents_ne_nil hr ht
    simp only [List.singleton_append, Text.joinLines_replace _ _ hn]
  | @inside bs bs' f before after _ ih =>
    have hb : (Block.node f bs').content (.ofSubstitutor s) =
        (Block.node f bs).content (.ofSubstitutor s) := by
      by_cases hf : f.model = .compound
      · have hi := congrArg (some <$> ·) ih
        simpa [Block.content, hf] using hi
      · simp only [Block.content, if_neg hf]
    simp only [Block.contents_append, Block.contents, hb]

mutual
theorem flat_returns (hs : s.Returns) : ∀ b : Block, (b.flat (.ofSubstitutor s)).Returns
  | .node f bs => by
    cases hm : f.model with
    | empty =>
      simp only [Block.flat, hm]
      exact Run.returns_pure []
    | simple =>
      simp only [Block.flat, hm]
      exact Run.returns_bind (applyText_returns hs _ _) fun _ => Run.returns_pure _
    | verbatim | raw =>
      simp only [Block.flat, hm]
      exact Run.returns_bind (applyLines_returns hs _ _) fun _ => Run.returns_pure _
    | compound =>
      simp only [Block.flat, hm]
      exact Run.returns_bind (flats_returns hs bs) fun _ => Run.returns_pure _

theorem flats_returns (hs : s.Returns) :
    ∀ bs : List Block, (Block.flats (.ofSubstitutor s) bs).Returns
  | [] => Run.returns_pure []
  | b :: bs => Run.returns_bind (flat_returns hs b) fun _ =>
      Run.returns_bind (flats_returns hs bs) fun _ => Run.returns_pure _
end

end Substitutor

/-- Rendering joins the texts of the blocks. It asks the pipeline once for every block that only
compound blocks lead to, in pre-order; what is inside other blocks adds nothing, and wrapping
siblings of which one renders changes nothing. -/
theorem Document.render_flattens {σ : Type} (s : Substitutor σ) (hs : s.Returns) (d : Document)
    (e : Effects σ) :
    ∃ ts e',
      (Block.flats (.ofSubstitutor s) d.blocks).run e = (.ok ts, e') ∧
      (d.render (.ofSubstitutor s)).run e = (.ok (joinLines ts), e') ∧
      ((d.render (Pipeline.ofSubstitutor s).recorded).run []).run e =
        (.ok (joinLines ts, d.calls), e') ∧
      (Block.reachedAll d.blocks).Sublist (Block.preorderAll d.blocks) ∧
      (Document.mk d.attributes (Block.prunedAll d.blocks)).render (.ofSubstitutor s) =
        d.render (.ofSubstitutor s) ∧
      ∀ bs, Block.Wrapped s.Renders d.blocks bs →
        (Document.mk d.attributes bs).render (.ofSubstitutor s) = d.render (.ofSubstitutor s) := by
  obtain ⟨ts, e', ht⟩ := Substitutor.flats_returns hs d.blocks e
  have hr : (d.render (.ofSubstitutor s)).run e = (.ok (joinLines ts), e') := by
    rw [Document.render_eq_flats, map_eq_pure_bind, Run.bind_ok _ ht]
    rfl
  refine ⟨ts, e', ht, hr, ?_, Block.reachedAll_sublist d.blocks, ?_, fun bs hw => ?_⟩
  · rw [Document.records_render, map_eq_pure_bind, Run.bind_ok _ hr]
    rfl
  · simp only [Document.render, Block.contents_pruned]
  · simpa [Document.render] using Substitutor.wrapped_contents hw

def Fields.counted (model : ContentModel) (lines : List String) : Fields :=
  ⟨"paragraph", model, none, none, none, [], ["count"], lines⟩

def Substitutor.counting : Substitutor Tally := ⟨[("count", Stock.counter.apply 0)]⟩

theorem Substitutor.counting_returns : Substitutor.counting.Returns := by
  intro name f h text st
  simp only [find?, counting, List.lookup_cons, List.lookup_nil] at h
  split at h
  · cases h
    exact ⟨_, _, rfl⟩
  · cases h

def Block.countedPair : List Block :=
  [.node (.counted .simple ["a"]) [], .node (.counted .verbatim ["", "b"]) []]

theorem Document.render_flattens_counting :
    Substitutor.counting.Returns ∧
    Substitutor.counting.Renders (.node (.counted .simple ["a"]) []) ∧
    ((Document.mk [] [.node (.counted .compound []) Block.countedPair]).render
        (.ofSubstitutor Substitutor.counting)).run ⟨⟨[0], []⟩, []⟩ =
      (.ok "a#1\nb#2", ⟨⟨[2], []⟩, []⟩) := by
  have hr : Substitutor.counting.Renders (.node (.counted .simple ["a"]) []) :=
    ⟨⟨⟨[0], []⟩, []⟩, "a#1", ⟨⟨[1], []⟩, []⟩, rfl⟩
  refine ⟨Substitutor.counting_returns, hr, ?_⟩
  obtain ⟨ts, e', _, _, _, _, _, hw⟩ := render_flattens Substitutor.counting
    Substitutor.counting_returns ⟨[], Block.countedPair⟩ ⟨⟨[0], []⟩, []⟩
  have hd := hw _ (.here (f := .counted .compound []) [] Block.countedPair [] rfl
    ⟨_, List.mem_cons_self, hr⟩)
  exact (congrArg (·.run ⟨⟨[0], []⟩, []⟩) hd).trans rfl

end BlockTree

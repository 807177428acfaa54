import BlockTree.Proofs.Definition.Mirror
import BlockTree.Proofs.Text.Lines

/-! Terminators in the lines of built blocks. A source text is cut at its terminators, but a list of
lines is kept as it stands. -/
namespace BlockTree.Definition

open Text (Unbroken)

/-- A list given as the source holds no terminators. -/
def CleanSource (v : Value) : Prop :=
  ∀ vs, v.field "source" = .list vs → ∀ u ∈ vs, ∀ l ∈ u.text?, Unbroken l.toList

theorem cleanSource_iff {v : Value} {f : Fields} (h : Describes v f) :
    CleanSource v ↔ ∀ l ∈ f.lines, Unbroken l.toList := by
  have hlines := h.lines
  rw [CleanSource]
  generalize v.field "source" = source at hlines
  generalize f.lines = ls at hlines
  cases hlines with
  | absent => simp
  | text hs =>
    refine ⟨fun _ l => Text.unbroken_of_mem_linesOf, fun _ vs hvs => ?_⟩
    subst hvs
    cases hs
  | @list us ls htexts =>
    have hmem (l : String) : l ∈ ls ↔ ∃ u ∈ us, u.text? = some l := by
      rw [← List.mem_map, htexts]
      simp
    simp only [Value.list.injEq, forall_eq', hmem, Option.mem_def]
    constructor
    · rintro h l ⟨u, hu, hl⟩
      exact h u hu l hl
    · intro h u hu l hl
      exact h l ⟨u, hu, hl⟩

/-- No line of a built document holds a terminator exactly if no list of lines in its definition
does. -/
theorem stored_lines_unbroken_iff {σ : Type} {es : Entries} {d : Document} {e e' : Effects σ}
    (h : (document (.map es)).run e = (.ok d, e')) :
    (∀ b ∈ Block.preorderAll d.blocks, ∀ l ∈ b.fields.lines, Unbroken l.toList) ↔
      ∀ i π v, at? (i :: π) (.map es) = some v → CleanSource v := by
  have htree := (document_tree h).2
  rw [← everywhere_listed_iff, everywhere_iff_preorder (fun _ _ => cleanSource_iff) htree]

def textAndList (ls : List String) : Entries := [(.str "blocks", .list [
  .map [(.str "context", .str "p"), (.str "source", .str "a\r\nb\rc\n")],
  .map [(.str "context", .str "p"), (.str "source", .list (ls.map .str))]])]

def textAndListDocument (ls : List String) : Document := ⟨[], [
  .node ⟨"p", .simple, none, none, none, [], [], ["a", "b", "c"]⟩ [],
  .node ⟨"p", .simple, none, none, none, [], [], ls⟩ []]⟩

theorem document_textAndList_clean :
    (document (.map (textAndList ["d", ""]))).run (⟨(), []⟩ : Effects Unit) =
      (.ok (textAndListDocument ["d", ""]), ⟨(), [.built 2]⟩) := by with_unfolding_all rfl

theorem stored_lines_unbroken_textAndList :
    (document (.map (textAndList ["d", ""]))).run (⟨(), []⟩ : Effects Unit) =
        (.ok (textAndListDocument ["d", ""]), ⟨(), [.built 2]⟩) ∧
      ∀ i π v, at? (i :: π) (.map (textAndList ["d", ""])) = some v → CleanSource v := by
  have h := document_textAndList_clean
  refine ⟨h, (stored_lines_unbroken_iff h).1 ?_⟩
  simp [textAndListDocument, Block.preorderAll, Block.preorder, Block.fields, Unbroken]

/-- A list of lines is stored with the terminator inside its only line. -/
theorem listed_line_broken :
    (document (.map (textAndList ["d\re"]))).run (⟨(), []⟩ : Effects Unit) =
        (.ok (textAndListDocument ["d\re"]), ⟨(), [.built 2]⟩) ∧
      ∃ b ∈ Block.preorderAll (textAndListDocument ["d\re"]).blocks, ∃ l ∈ b.fields.lines,
        '\r' ∈ l.toList := by
  refine ⟨by with_unfolding_all rfl, ?_⟩
  simp [textAndListDocument, Block.preorderAll, Block.preorder, Block.fields]

end BlockTree.Definition

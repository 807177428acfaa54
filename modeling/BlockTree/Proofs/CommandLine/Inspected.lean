import BlockTree.CommandLine.Program
import BlockTree.Proofs.Text.Feeds
import BlockTree.Proofs.Text.Printable
import BlockTree.Proofs.Tree.Labelled
import Mathlib.Data.List.TakeWhile

/-! What is shown of a document. Every block has one line, whatever its texts hold, and the lines
tell the tree. -/
namespace BlockTree

namespace Text

/-- Lines that are ended are lines that are joined, with nothing after the last of them. -/
theorem join_ended (ls : List String) :
    String.join (ls.map (· ++ "\n")) = joinLines (ls ++ [""]) := by
  induction ls with
  | nil => exact String.join_nil
  | cons l ls ih =>
    rw [List.map_cons, String.join_cons, ih]
    cases ls <;> rfl

theorem joinLines_ended {ls : List String} (h : ls ≠ []) :
    joinLines ls ++ "\n" = String.join (ls.map (· ++ "\n")) := by
  induction ls with
  | nil => exact absurd rfl h
  | cons l ls ih =>
    rw [List.map_cons, String.join_cons]
    cases ls with
    | nil => simp [joinLines]
    | cons m ms => rw [← ih (List.cons_ne_nil m ms), joinLines, String.append_assoc]

theorem ended_inj {ks ls : List String} (hks : ∀ k ∈ ks, '\n' ∉ k.toList)
    (hls : ∀ l ∈ ls, '\n' ∉ l.toList)
    (h : String.join (ks.map (· ++ "\n")) = String.join (ls.map (· ++ "\n"))) : ks = ls := by
  have hsplit {ms : List String} (hms : ∀ m ∈ ms, '\n' ∉ m.toList) :
      splitFeeds (String.join (ms.map (· ++ "\n"))) = ms ++ [""] := by
    rw [join_ended]
    refine splitFeeds_joinLines (by simp) fun m hm => ?_
    obtain hm | hm := List.mem_append.1 hm
    · exact hms m hm
    · rw [List.mem_singleton.1 hm]
      exact List.not_mem_nil
  exact List.append_cancel_right ((hsplit hks).symm.trans (h ▸ hsplit hls))

theorem dropControl_of_not_mem {s : String} (h : '\x1b' ∉ s.toList) : dropControl s = s := by
  have hchars : ∀ cs : List Char, '\x1b' ∉ cs → dropControlFrom 0 cs = cs := by
    intro cs hcs
    induction cs with
    | nil => rfl
    | cons c cs ih =>
      obtain ⟨hc, htail⟩ := List.ne_and_not_mem_of_not_mem_cons hcs
      rw [dropControlFrom.eq_4 c cs fun _ heq => absurd heq.symm hc, ih htail]
  rw [dropControl, hchars _ h, String.ofList_toList]

end Text

namespace Block

/-- The line of the block at a place: two spaces for each block above it, and its summary. -/
def indented (x : List Nat × Block) : String :=
  String.ofList (List.replicate (2 * (x.1.length - 1)) ' ') ++ x.2.summary

def unindented (l : String) : Nat × String :=
  ((l.toList.takeWhile (· = ' ')).length / 2, String.ofList (l.toList.dropWhile (· = ' ')))

theorem head?_summary (b : Block) : b.summary.toList.head? = some 'B' := by
  obtain ⟨f, bs⟩ := b
  rw [summary, summaryText]
  simp [String.toList_append]

theorem printable_countText (m : ContentModel) (blocks lines : Nat) :
    Text.Printable (countText m blocks lines) := by
  unfold countText
  split
  · exact .append (by decide) (Decimal.printable_natText blocks)
  · exact .append (by decide) (Decimal.printable_natText lines)

theorem printable_summaryText {name context model style count : String}
    (hname : Text.Printable name) (hcontext : Text.Printable context)
    (hmodel : Text.Printable model) (hstyle : Text.Printable style)
    (hcount : Text.Printable count) :
    Text.Printable (summaryText name context model style count) :=
  have htocontext := (hname.append (by decide)).append hcontext
  have htomodel := (htocontext.append (by decide)).append hmodel
  have htostyle := (htomodel.append (by decide)).append hstyle
  ((htostyle.append (by decide)).append hcount).append (by decide)

theorem printable_summary (b : Block) : Text.Printable b.summary := by
  obtain ⟨f, bs⟩ := b
  refine printable_summaryText (by decide) (Text.printable_quote f.context)
    (Text.printable_quote f.model.name) ?_ (printable_countText f.model bs.length f.lines.length)
  cases f.style with
  | some s => exact Text.printable_quote s
  | none => exact show Text.Printable "None" by decide

@[simp]
theorem toList_indented (x : List Nat × Block) : (indented x).toList =
    List.replicate (2 * (x.1.length - 1)) ' ' ++ x.2.summary.toList := by
  rw [indented, String.toList_append, String.toList_ofList]

@[simp]
theorem unindented_indented (x : List Nat × Block) :
    unindented (indented x) = leveled summary x := by
  obtain ⟨cs, hsummary⟩ : ∃ cs, x.2.summary.toList = 'B' :: cs :=
    List.head?_eq_some_iff.1 x.2.head?_summary
  have hspaces : ∀ c ∈ List.replicate (2 * (x.1.length - 1)) ' ', decide (c = ' ') = true :=
    fun c hc => decide_eq_true (List.eq_of_mem_replicate hc)
  have hhalf : 2 * (x.1.length - 1) / 2 = x.1.length - 1 := Nat.mul_div_cancel_left _ (by decide)
  rw [unindented, toList_indented, List.takeWhile_append_of_pos hspaces,
    List.dropWhile_append_of_pos hspaces, hsummary, List.takeWhile_cons_of_neg (by decide),
    List.dropWhile_cons_of_neg (by decide), List.append_nil, List.length_replicate, hhalf,
    ← hsummary, String.ofList_toList, leveled]

theorem printable_indented (x : List Nat × Block) : Text.Printable (indented x) := by
  refine .append (fun c hc => ?_) x.2.printable_summary
  rw [String.toList_ofList] at hc
  rw [List.eq_of_mem_replicate hc]
  decide

mutual
theorem outline_eq_map_placed {n : Nat} {base : List Nat} (h : base.length = n + 1) :
    ∀ b : Block, b.outline n = (b.placed base).map indented
  | .node f bs => by
    have hdepth : base.length - 1 = n := by rw [h, Nat.add_sub_cancel]
    rw [outline, placed, List.map_cons, outlines_eq_map_placedAll h 0 bs, indented, hdepth]

theorem outlines_eq_map_placedAll {n : Nat} {base : List Nat} (h : base.length = n) (i : Nat) :
    ∀ bs : List Block, outlines n bs = (placedAll base i bs).map indented
  | [] => rfl
  | b :: bs => by
    have hplace : (base ++ [i]).length = n + 1 := by
      rw [List.length_append, h, List.length_singleton]
    rw [outlines, placedAll, List.map_append, outline_eq_map_placed hplace b,
      outlines_eq_map_placedAll h (i + 1) bs]
end

end Block

namespace CommandLine

open Block (indented leveled placedAll preorderAll labelledAll shapes summary)

theorem feed_not_mem_indented {bs : List Block} :
    ∀ l ∈ (placedAll [] 0 bs).map indented, '\n' ∉ l.toList := by
  rintro l hl hfeed
  obtain ⟨x, -, rfl⟩ := List.mem_map.1 hl
  cases Block.printable_indented x _ hfeed

theorem inspected_eq_join (d : Document) : inspected d =
    String.join (((placedAll [] 0 d.blocks).map indented).map (· ++ "\n")) := by
  have hblocks : ∀ bs : List Block,
      String.join ((bs.map fun b => Text.joinLines (b.outline 0)).map (· ++ "\n")) =
        String.join ((Block.outlines 0 bs).map (· ++ "\n")) := by
    intro bs
    induction bs with
    | nil => rfl
    | cons b bs ih =>
      have hne : b.outline 0 ≠ [] := by
        obtain ⟨f, cs⟩ := b
        exact List.cons_ne_nil _ _
      rw [List.map_cons, List.map_cons, String.join_cons, ih, Text.joinLines_ended hne,
        Block.outlines, List.map_append, String.join_append]
  rw [inspected, hblocks, Block.outlines_eq_map_placedAll List.length_nil 0]

theorem isPrintable_of_mem_inspected {d : Document} {c : Char} (h : c ∈ (inspected d).toList) :
    c = '\n' ∨ Text.isPrintable c = true := by
  rw [inspected_eq_join, String.toList_join, List.map_map, List.mem_flatMap] at h
  obtain ⟨l, hl, hc⟩ := h
  obtain ⟨x, -, rfl⟩ := List.mem_map.1 hl
  rw [Function.comp_apply, String.toList_append, List.mem_append] at hc
  obtain hc | hc := hc
  · exact .inr (Block.printable_indented x c hc)
  · exact .inl (List.mem_singleton.1 hc)

/-- The lines tell the summaries in pre-order, each with its depth. -/
theorem leveled_of_inspected_eq {d d' : Document} (h : inspected d' = inspected d) :
    (placedAll [] 0 d'.blocks).map (leveled summary) =
      (placedAll [] 0 d.blocks).map (leveled summary) := by
  rw [inspected_eq_join, inspected_eq_join] at h
  have hlines := Text.ended_inj feed_not_mem_indented feed_not_mem_indented h
  have hread {bs : List Block} : ((placedAll [] 0 bs).map indented).map Block.unindented =
      (placedAll [] 0 bs).map (leveled summary) := by
    rw [List.map_map]
    exact List.map_congr_left fun x _ => Block.unindented_indented x
  rw [← hread, hlines, hread]

/-- Every block of a document has one line, the blocks standing in pre-order: two spaces for each
block above it, and a summary that starts with a letter and is not broken by what the texts of the
block hold. So the lines tell the shape of the forest, with the summaries at their places. They are
printed as they are, too: no control sequence is left out of them, and but for the line feeds all
their characters are printable. -/
theorem inspected_lines (d : Document) :
    inspected d = String.join (((placedAll [] 0 d.blocks).map indented).map (· ++ "\n")) ∧
    (placedAll [] 0 d.blocks).map Prod.snd = preorderAll d.blocks ∧
    (∀ π b, (π, b) ∈ placedAll [] 0 d.blocks ↔ d.at? π = some b) ∧
    (∀ b : Block, b.summary.toList.head? = some 'B' ∧
      ∀ c ∈ b.summary.toList, Text.isLineBreak c = false) ∧
    (∀ d', inspected d' = inspected d → shapes d'.blocks = shapes d.blocks ∧
      labelledAll summary d'.blocks = labelledAll summary d.blocks) ∧
    Text.dropControl (inspected d) = inspected d ∧
    ∀ c ∈ (inspected d).toList, c = '\n' ∨ Text.isPrintable c = true := by
  have hescape : '\x1b' ∉ (inspected d).toList := by
    intro hc
    obtain hc | hc := isPrintable_of_mem_inspected hc <;> cases hc
  refine ⟨inspected_eq_join d, Block.map_snd_placedAll [] 0 d.blocks,
    fun π b => Document.mem_placedAll_iff, fun b => ⟨b.head?_summary, fun c hc =>
      Text.not_isLineBreak_of_isPrintable (b.printable_summary c hc)⟩, fun d' h => ?_,
    Text.dropControl_of_not_mem hescape, fun c hc => isPrintable_of_mem_inspected hc⟩
  have hleveled := leveled_of_inspected_eq h
  have hdepths := congrArg (List.map (Prod.map id fun _ : String => ())) hleveled
  rw [List.map_map, List.map_map] at hdepths
  exact ⟨Block.labelledAll_eq_of_leveled hdepths, Block.labelledAll_eq_of_leveled hleveled⟩

def nested (line : String) : Document where
  attributes := []
  blocks := [.node ⟨"list\n", .compound, none, none, none, [], [], []⟩
    [.node ⟨"item", .simple, some "\u2028", none, none, [], [], [line]⟩ []]]

/-- Lines are counted and not shown; what is seen to be nested is so in either document. -/
theorem inspected_lines_nested : inspected (nested "one") = inspected (nested "two") ∧
    shapes (nested "one").blocks = shapes (nested "two").blocks := by
  have hsame : inspected (nested "one") = inspected (nested "two") := rfl
  obtain ⟨-, -, -, -, hshapes, -⟩ := inspected_lines (nested "two")
  exact ⟨hsame, (hshapes (nested "one") hsame).1⟩

example : inspected (nested "one") =
    "Block@ID \x7b context: 'list\\n', content_model: 'compound', style: None, blocks: 1 \x7d\n" ++
    "  Block@ID \x7b context: 'item', content_model: 'simple', style: '\\u2028', lines: 1 \x7d\n" :=
  by decide +kernel

end CommandLine

end BlockTree

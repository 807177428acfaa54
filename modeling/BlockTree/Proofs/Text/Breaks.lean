import BlockTree.Proofs.Text.Feeds
import BlockTree.Text.Rewriting

/-! The lines of a source text, told by what they join to. Its terminators come to line feeds by two
replacements, one line feed at the end is lost, and nothing else. -/
namespace BlockTree.Text

def feedsOnly (s : String) : String := replace "\r" "\n" (replace "\r\n" "\n" s)

def chopFeed (cs : List Char) : List Char := if cs.getLast? = some '\n' then cs.dropLast else cs

theorem replaceFrom_unifyBreaks (cs : List Char) :
    replaceFrom ['\r'] ['\n'] 0 (replaceFrom ['\r', '\n'] ['\n'] 0 cs) = unifyBreaks cs := by
  fun_induction unifyBreaks cs with
  | case1 => rfl
  | case2 cs ih => simpa [replaceFrom] using ih
  | case3 cs hfeed ih =>
    -- a carriage return without a line feed is left to the second replacement
    have hpair : ['\r', '\n'].isPrefixOf ('\r' :: cs) = false := by
      cases cs with
      | nil => rfl
      | cons c cs =>
        have hc : '\n' ≠ c := fun h => hfeed cs (h ▸ rfl)
        simp [List.isPrefixOf, hc]
    simpa [replaceFrom, hpair] using ih
  | case4 c cs hfeed hreturn ih =>
    have hc : '\r' ≠ c := fun h => hreturn h.symm
    simpa [replaceFrom, hc] using ih

theorem toList_feedsOnly (s : String) : (feedsOnly s).toList = unifyBreaks s.toList := by
  have hreturn : "\r".toList = ['\r'] := rfl
  have hpair : "\r\n".toList = ['\r', '\n'] := rfl
  have hfeed : "\n".toList = ['\n'] := rfl
  have h := replaceFrom_unifyBreaks s.toList
  simpa [feedsOnly, replace, hreturn, hpair, hfeed] using h

@[simp]
theorem unifyBreaks_eq_nil_iff {cs : List Char} : unifyBreaks cs = [] ↔ cs = [] := by
  fun_cases unifyBreaks cs <;> simp

theorem dropOpenEnd_concat_nil {ls : List (List Char)} (h : ls ≠ []) :
    dropOpenEnd (ls ++ [[]]) = ls := by
  induction ls with
  | nil => exact absurd rfl h
  | cons l ls ih =>
    cases ls with
    | nil => rfl
    | cons m ms => exact congrArg (l :: ·) (ih (List.cons_ne_nil m ms))

theorem cutFeeds_concat_feed (cs : List Char) : cutFeeds (cs ++ ['\n']) = cutFeeds cs ++ [[]] := by
  simp only [cutFeeds_eq_splitOn, List.splitOn_eq_splitOnP]
  exact List.splitOnP_append_cons cs [] (beq_self_eq_true '\n')

theorem cutFeeds_concat {c : Char} (cs : List Char) (hc : c ≠ '\n') :
    ∃ ls l, cutFeeds (cs ++ [c]) = ls ++ [l ++ [c]] := by
  induction cs with
  | nil => exact ⟨[], [], by simp [cutFeeds, hc]⟩
  | cons d cs ih =>
    obtain ⟨ls, l, hcut⟩ := ih
    rw [List.cons_append, cutFeeds, hcut]
    by_cases hd : d = '\n'
    · exact ⟨[] :: ls, l, by rw [if_pos hd]; rfl⟩
    · cases ls with
      | nil => exact ⟨[], d :: l, by rw [if_neg hd]; rfl⟩
      | cons k ks => exact ⟨(d :: k) :: ks, l, by rw [if_neg hd]; rfl⟩

theorem dropOpenEnd_cutFeeds {cs : List Char} (h : cs ≠ []) :
    dropOpenEnd (cutFeeds cs) = cutFeeds (chopFeed cs) := by
  obtain rfl | ⟨ds, c, rfl⟩ := cs.eq_nil_or_concat
  · exact absurd rfl h
  · rw [List.concat_eq_append, chopFeed, List.getLast?_concat]
    by_cases hc : c = '\n'
    · rw [hc, if_pos rfl, cutFeeds_concat_feed, List.dropLast_concat]
      exact dropOpenEnd_concat_nil (cutFeeds_ne_nil ds)
    · obtain ⟨ls, l, hcut⟩ := cutFeeds_concat ds hc
      rw [if_neg (by simpa using hc), dropOpenEnd_eq_self_iff, hcut, List.getLast?_concat]
      simp

/-- Lists of unbroken lines that join to the same text are equal, as far as they hold lines. -/
theorem eq_of_joinLines_eq {ks ls : List String} (hk : ks ≠ []) (hl : ls ≠ [])
    (hks : ∀ k ∈ ks, Unbroken k.toList) (hls : ∀ l ∈ ls, Unbroken l.toList)
    (h : joinLines ks = joinLines ls) : ks = ls := by
  have hfree {ms : List String} (hms : ∀ m ∈ ms, Unbroken m.toList) : ∀ m ∈ ms, '\n' ∉ m.toList :=
    fun m hm => (hms m hm).1
  rw [← splitFeeds_joinLines hk (hfree hks), h, splitFeeds_joinLines hl (hfree hls)]

theorem linesOf_eq_nil {s : String} (h : dropMark s.toList = []) : linesOf s = [] := by
  rw [linesOf, h]
  rfl

theorem linesOf_joins {s : String} (h : dropMark s.toList ≠ []) :
    linesOf s ≠ [] ∧ (joinLines (linesOf s)).toList =
      chopFeed (feedsOnly (String.ofList (dropMark s.toList))).toList := by
  have hcut : (linesOf s).map String.toList =
      cutFeeds (chopFeed (unifyBreaks (dropMark s.toList))) := by
    rw [linesOf, cutBreaks, dropOpenEnd_cutFeeds (mt unifyBreaks_eq_nil_iff.1 h), List.map_map]
    exact (List.map_congr_left fun _ _ => String.toList_ofList).trans (List.map_id _)
  constructor
  · intro hnil
    rw [hnil] at hcut
    exact cutFeeds_ne_nil _ hcut.symm
  · rw [toList_joinLines, hcut, cutFeeds_eq_splitOn, List.intercalate_splitOn, toList_feedsOnly,
      String.toList_ofList]

/-- The lines of a source text are none if nothing is left of it after one leading mark. Otherwise
they are the only lines that are some, hold no terminators, and join to what is left, with line
feeds for its terminators and without the last one of these at its end. -/
theorem linesOf_eq_iff (s : String) (ls : List String) : linesOf s = ls ↔
    if dropMark s.toList = [] then ls = []
    else ls ≠ [] ∧ (∀ l ∈ ls, '\n' ∉ l.toList ∧ '\r' ∉ l.toList) ∧
      (joinLines ls).toList = chopFeed (feedsOnly (String.ofList (dropMark s.toList))).toList := by
  by_cases h : dropMark s.toList = []
  · rw [if_pos h, linesOf_eq_nil h]
    exact eq_comm
  · obtain ⟨hne, hjoin⟩ := linesOf_joins h
    have hunbroken : ∀ l ∈ linesOf s, Unbroken l.toList := fun l => unbroken_of_mem_linesOf
    rw [if_neg h]
    constructor
    · rintro rfl
      exact ⟨hne, hunbroken, hjoin⟩
    · rintro ⟨hls, hall, hjoined⟩
      have hsame := String.toList_inj.1 (hjoin.trans hjoined.symm)
      exact eq_of_joinLines_eq hne hls hunbroken hall hsame

/-- All three terminators, a return before a pair, and only one of the last two of them lost. -/
example : linesOf "\ufeffa\r\r\nb\n\r" = ["a", "", "b", ""] := by decide

end BlockTree.Text

import BlockTree.Text.Lines

/-! Cutting and joining lines. Lines of a source text never hold a terminator, and joined lines are
cut into the same lines exactly if they hold none, the last one is not empty, and the first one does
not start with a byte order mark. -/
namespace BlockTree.Text

def Unbroken (cs : List Char) : Prop := '\n' ∉ cs ∧ '\r' ∉ cs

/-- Lines that joining and cutting leave as they are. No line at all is such a list. -/
structure Restorable (ls : List String) : Prop where
  unbroken : ∀ l ∈ ls, Unbroken l.toList
  closed : ls.getLast? ≠ some ""
  unmarked : ∀ l, ls.head? = some l → l.toList.head? ≠ some '\ufeff'

theorem cutFeeds_eq_splitOn (cs : List Char) : cutFeeds cs = cs.splitOn '\n' := by
  induction cs with
  | nil => rfl
  | cons c cs ih =>
    rw [List.splitOn_eq_splitOnP, List.splitOnP_cons_eq_if_modifyHead, ← List.splitOn_eq_splitOnP,
      ← ih, cutFeeds]
    have hne := cutFeeds_ne_nil cs
    by_cases hc : c = '\n'
    · simp [hc]
    · cases h : cutFeeds cs with
      | nil => exact absurd h hne
      | cons l ls => simp [hc]

@[simp]
theorem toList_joinLines (ls : List String) :
    (joinLines ls).toList = ['\n'].intercalate (ls.map String.toList) := by
  induction ls with
  | nil => rfl
  | cons l ls ih =>
    cases ls with
    | nil => simp [joinLines, List.intercalate]
    | cons m ls =>
      have ih' : (joinLines (m :: ls)).toList =
          ['\n'].intercalate (m.toList :: ls.map String.toList) := ih
      simp [joinLines, ih', List.intercalate]

theorem mem_of_mem_cutFeeds {cs l : List Char} (hl : l ∈ cutFeeds cs) {c : Char} (hc : c ∈ l) :
    c ∈ cs ∧ c ≠ '\n' := by
  induction cs generalizing l with
  | nil => simp_all [cutFeeds]
  | cons d cs ih =>
    rw [cutFeeds] at hl
    by_cases hd : d = '\n'
    · rw [if_pos hd] at hl
      obtain rfl | hl := List.mem_cons.1 hl
      · exact absurd hc List.not_mem_nil
      · have h := ih hl hc
        exact ⟨List.mem_cons_of_mem _ h.1, h.2⟩
    · rw [if_neg hd] at hl
      cases h : cutFeeds cs with
      | nil => exact absurd h (cutFeeds_ne_nil cs)
      | cons m ms =>
        simp only [h, List.mem_cons] at hl ih
        obtain rfl | hl := hl
        · obtain rfl | hc := List.mem_cons.1 hc
          · exact ⟨List.mem_cons_self, hd⟩
          · have h := ih (.inl rfl) hc
            exact ⟨List.mem_cons_of_mem _ h.1, h.2⟩
        · have h := ih (.inr hl) hc
          exact ⟨List.mem_cons_of_mem _ h.1, h.2⟩

@[simp]
theorem return_not_mem_unifyBreaks (cs : List Char) : '\r' ∉ unifyBreaks cs := by
  fun_induction unifyBreaks cs with
  | case1 => exact List.not_mem_nil
  | case2 cs ih | case3 cs _ ih => simpa using ih
  | case4 c cs hfeed hc ih =>
    have hne : '\r' ≠ c := fun h => hc h.symm
    simpa [hne] using ih

theorem unifyBreaks_of_not_mem {cs : List Char} (h : '\r' ∉ cs) : unifyBreaks cs = cs := by
  fun_induction unifyBreaks cs <;> simp_all

theorem unbroken_of_mem_cutBreaks {cs l : List Char} (h : l ∈ cutBreaks cs) : Unbroken l := by
  constructor
  · intro hc
    exact (mem_of_mem_cutFeeds h hc).2 rfl
  · intro hc
    exact return_not_mem_unifyBreaks cs (mem_of_mem_cutFeeds h hc).1

theorem mem_of_mem_dropOpenEnd {ls : List (List Char)} {l : List Char} (h : l ∈ dropOpenEnd ls) :
    l ∈ ls := by
  induction ls with
  | nil => exact h
  | cons k ks ih =>
    cases ks with
    | nil =>
      rw [dropOpenEnd] at h
      split at h
      · exact absurd h List.not_mem_nil
      · exact h
    | cons m ms =>
      rw [dropOpenEnd, List.mem_cons] at h
      exact List.mem_cons.2 (h.imp_right ih)

theorem unbroken_of_mem_linesOf {s l : String} (h : l ∈ linesOf s) : Unbroken l.toList := by
  obtain ⟨cs, hcs, rfl⟩ := List.mem_map.1 h
  rw [String.toList_ofList]
  exact unbroken_of_mem_cutBreaks (mem_of_mem_dropOpenEnd hcs)

theorem Unbroken.dropMark {l : List Char} (h : Unbroken l) : Unbroken (dropMark l) := by
  unfold Text.dropMark
  split
  next cs =>
    exact ⟨fun hc => h.1 (List.mem_cons_of_mem _ hc), fun hc => h.2 (List.mem_cons_of_mem _ hc)⟩
  next => exact h

theorem not_mem_intercalate {ls : List (List Char)} (h : ∀ l ∈ ls, Unbroken l) :
    '\r' ∉ ['\n'].intercalate ls := by
  induction ls with
  | nil => exact List.not_mem_nil
  | cons l ls ih =>
    rw [List.forall_mem_cons] at h
    have hl := h.1.2
    have hls := ih h.2
    cases ls with
    | nil => simpa [List.intercalate] using hl
    | cons m ms =>
      simp only [List.intercalate, List.intersperse_cons_cons, List.flatten_cons, List.mem_append,
        not_or] at hls ⊢
      exact ⟨hl, by decide, hls⟩

theorem cutBreaks_intercalate {ls : List (List Char)} (h : ∀ l ∈ ls, Unbroken l) (hne : ls ≠ []) :
    cutBreaks (['\n'].intercalate ls) = ls := by
  rw [cutBreaks, unifyBreaks_of_not_mem (not_mem_intercalate h), cutFeeds_eq_splitOn]
  exact List.splitOn_intercalate '\n' (fun l hl => (h l hl).1) hne

theorem dropMark_intercalate (l : List Char) (ls : List (List Char)) :
    dropMark (['\n'].intercalate (l :: ls)) = ['\n'].intercalate (dropMark l :: ls) := by
  cases l with
  | nil =>
    cases ls with
    | nil => rfl
    | cons m ms => rfl
  | cons c cs =>
    by_cases hc : c = '\ufeff'
    · subst hc
      cases ls <;> simp [List.intercalate, dropMark]
    · have hdrop (ds : List Char) : dropMark (c :: ds) = c :: ds := dropMark.eq_2 _ (by simp [hc])
      cases ls <;> simp [List.intercalate, hdrop]

theorem dropOpenEnd_eq_self_iff {ls : List (List Char)} :
    dropOpenEnd ls = ls ↔ ls.getLast? ≠ some [] := by
  induction ls with
  | nil => simp [dropOpenEnd]
  | cons l ls ih =>
    cases ls with
    | nil => by_cases hl : l = [] <;> simp [dropOpenEnd, hl]
    | cons m ms => simpa [dropOpenEnd] using ih

theorem dropMark_eq_self_iff {l : List Char} : dropMark l = l ↔ l.head? ≠ some '\ufeff' := by
  cases l with
  | nil => simp [dropMark]
  | cons c cs =>
    by_cases hc : c = '\ufeff'
    · subst hc
      simp [dropMark]
    · have hdrop : dropMark (c :: cs) = c :: cs := dropMark.eq_2 _ (by simp [hc])
      simp [hdrop, hc]

theorem eq_of_dropOpenEnd_cons {k l : List Char} {ks ls : List (List Char)}
    (h : dropOpenEnd (k :: ks) = l :: ls) : k = l := by
  cases ks with
  | nil =>
    rw [dropOpenEnd] at h
    split at h
    · cases h
    · exact (List.cons.inj h).1
  | cons m ms => exact (List.cons.inj h).1

/-- Of unbroken lines only a mark at the start and an empty line at the end are lost. -/
theorem linesOf_joinLines_cons {l : String} {ls : List String}
    (h : ∀ k ∈ l :: ls, Unbroken k.toList) :
    (linesOf (joinLines (l :: ls))).map String.toList =
      dropOpenEnd (dropMark l.toList :: ls.map String.toList) := by
  rw [List.forall_mem_cons] at h
  have hunbroken : ∀ k ∈ dropMark l.toList :: ls.map String.toList, Unbroken k :=
    List.forall_mem_cons.2 ⟨h.1.dropMark, by simpa using h.2⟩
  rw [linesOf, toList_joinLines, List.map_cons, dropMark_intercalate,
    cutBreaks_intercalate hunbroken (List.cons_ne_nil _ _), List.map_map]
  exact List.map_congr_left (fun k _ => String.toList_ofList) |>.trans (List.map_id _)

theorem map_toList_inj {ks ls : List String} :
    ks.map String.toList = ls.map String.toList ↔ ks = ls :=
  List.map_inj_right fun _ _ => String.toList_inj.1

theorem getLast?_map_toList {ls : List String} :
    (ls.map String.toList).getLast? = some [] ↔ ls.getLast? = some "" := by
  simp [List.getLast?_map, Option.map_eq_some_iff]

/-- Joined lines are cut into the same lines exactly if they are restorable. -/
theorem linesOf_joinLines_iff {ls : List String} : linesOf (joinLines ls) = ls ↔ Restorable ls := by
  cases ls with
  | nil => exact ⟨fun _ => ⟨by simp, by simp, by simp⟩, fun _ => rfl⟩
  | cons l ls =>
    constructor
    · intro h
      have hunbroken : ∀ k ∈ l :: ls, Unbroken k.toList := by
        intro k hk
        rw [← h] at hk
        exact unbroken_of_mem_linesOf hk
      have hcut := linesOf_joinLines_cons hunbroken
      rw [h, List.map_cons] at hcut
      have hmark : dropMark l.toList = l.toList := eq_of_dropOpenEnd_cons hcut.symm
      rw [hmark] at hcut
      have hlast := dropOpenEnd_eq_self_iff.1 hcut.symm
      refine ⟨hunbroken, fun hl => ?_, fun k hk => ?_⟩
      · have hl' := getLast?_map_toList.2 hl
        exact hlast hl'
      · obtain rfl := Option.some.inj hk
        exact dropMark_eq_self_iff.1 hmark
    · intro h
      have hmark : dropMark l.toList = l.toList := dropMark_eq_self_iff.2 (h.unmarked l rfl)
      have hlast : (l.toList :: ls.map String.toList).getLast? ≠ some [] := fun hl =>
        h.closed (getLast?_map_toList.1 hl)
      rw [← map_toList_inj, linesOf_joinLines_cons h.unbroken, hmark]
      exact dropOpenEnd_eq_self_iff.2 hlast

end BlockTree.Text

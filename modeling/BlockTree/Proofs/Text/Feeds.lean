import BlockTree.Proofs.Text.Lines

/-! Cutting at line feeds undoes joining with them. The pieces of a text are the only lines that are
some, hold no line feed, and join to it. -/
namespace BlockTree.Text

@[simp]
theorem map_toList_splitFeeds (s : String) :
    (splitFeeds s).map String.toList = cutFeeds s.toList := by
  rw [splitFeeds, List.map_map]
  exact (List.map_congr_left fun _ _ => String.toList_ofList).trans (List.map_id _)

@[simp]
theorem joinLines_splitFeeds (s : String) : joinLines (splitFeeds s) = s := by
  rw [← String.toList_inj, toList_joinLines, map_toList_splitFeeds, cutFeeds_eq_splitOn]
  exact List.intercalate_splitOn '\n'

theorem feed_not_mem_of_mem_splitFeeds {s l : String} (h : l ∈ splitFeeds s) : '\n' ∉ l.toList := by
  have hcut : l.toList ∈ cutFeeds s.toList := by
    rw [← map_toList_splitFeeds]
    exact List.mem_map_of_mem h
  exact fun hc => (mem_of_mem_cutFeeds hcut hc).2 rfl

theorem splitFeeds_joinLines {ls : List String} (hne : ls ≠ []) (h : ∀ l ∈ ls, '\n' ∉ l.toList) :
    splitFeeds (joinLines ls) = ls := by
  rw [← map_toList_inj, map_toList_splitFeeds, toList_joinLines, cutFeeds_eq_splitOn]
  exact List.splitOn_intercalate '\n' (by simpa using h) (by simpa using hne)

theorem splitFeeds_eq_iff {s : String} {ls : List String} :
    splitFeeds s = ls ↔ ls ≠ [] ∧ (∀ l ∈ ls, '\n' ∉ l.toList) ∧ joinLines ls = s := by
  constructor
  · rintro rfl
    exact ⟨splitFeeds_ne_nil s, fun l hl => feed_not_mem_of_mem_splitFeeds hl,
      joinLines_splitFeeds s⟩
  · rintro ⟨hne, hfree, rfl⟩
    exact splitFeeds_joinLines hne hfree

theorem splitFeeds_of_not_mem {s : String} (h : '\n' ∉ s.toList) : splitFeeds s = [s] :=
  splitFeeds_eq_iff.2 ⟨List.cons_ne_nil s [], by simpa using h, rfl⟩

theorem one_lt_length_splitFeeds {s : String} (h : '\n' ∈ s.toList) :
    1 < (splitFeeds s).length := by
  have hpos : 0 < (splitFeeds s).length := List.length_pos_iff.2 (splitFeeds_ne_nil s)
  refine Nat.lt_of_not_le fun hone => ?_
  obtain ⟨l, hl⟩ := List.length_eq_one_iff.1 (show (splitFeeds s).length = 1 by omega)
  obtain ⟨-, hfree, rfl⟩ := splitFeeds_eq_iff.1 hl
  exact hfree l (List.mem_singleton_self l) h

end BlockTree.Text

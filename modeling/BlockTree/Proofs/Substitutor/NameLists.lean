import BlockTree.Proofs.Text.Trimmed
import BlockTree.Substitutor.Plugin

/-! Lists of module names as texts. Names stand between commas, with white space around them and
with nothing at all between some commas; they may be spread over several texts. What is read are the
names that were written. -/
namespace BlockTree

open Text (isSpace isBlank strip trimEnds Margins)

structure IsModuleName (m : String) : Prop where
  ne_empty : m ≠ ""
  no_comma : ',' ∉ m.toList
  first : ∀ c ∈ m.toList.head?, ¬isSpace c
  last : ∀ c ∈ m.toList.getLast?, ¬isSpace c

/-- What stands between two commas: white space, in which there may be a name. -/
inductive ListItem : Option String → String → Prop
  | blank {s : String} : isBlank s → ListItem none s
  | name {before m after : String} : IsModuleName m → isBlank before → isBlank after →
      ListItem (some m) (before ++ m ++ after)

/-- Names in order, spread over comma separated lists. -/
inductive Spread : List String → List String → Prop
  | nil : Spread [] []
  | cons {row : List (Option String × String)} {ms lists : List String} :
      (∀ i ∈ row, ListItem i.1 i.2) → Spread ms lists →
      Spread (row.filterMap (·.1) ++ ms) (",".intercalate (row.map (·.2)) :: lists)

theorem comma_not_mem_of_isBlank {s : String} (h : isBlank s) : ',' ∉ s.toList := by
  intro hc
  have hspace : isSpace ',' = true := List.all_eq_true.1 h _ hc
  exact absurd hspace (by decide)

theorem IsModuleName.strip_eq {before m after : String} (h : IsModuleName m)
    (hbefore : isBlank before) (hafter : isBlank after) : strip (before ++ m ++ after) = m := by
  have hmargins : Margins (isSpace ·) before.toList m.toList after.toList :=
    ⟨List.all_eq_true.1 hbefore, List.all_eq_true.1 hafter, h.first, h.last⟩
  rw [strip, String.toList_append, String.toList_append, hmargins.trimEnds_eq, String.ofList_toList]

namespace ListItem

variable {o : Option String} {s : String}

theorem no_comma (h : ListItem o s) : ',' ∉ s.toList := by
  cases h with
  | blank hs => exact comma_not_mem_of_isBlank hs
  | name hm hbefore hafter =>
    simp only [String.toList_append, List.mem_append, not_or]
    exact ⟨⟨comma_not_mem_of_isBlank hbefore, hm.no_comma⟩, comma_not_mem_of_isBlank hafter⟩

theorem read (h : ListItem o s) : [strip s].filter (· ≠ "") = o.toList := by
  cases h with
  | blank hs => simp [(Text.isBlank_iff s).1 hs]
  | name hm hbefore hafter => simp [hm.strip_eq hbefore hafter, hm.ne_empty]

end ListItem

namespace Plugin

@[simp]
theorem splitNames_append (lists more : List String) :
    splitNames (lists ++ more) = splitNames lists ++ splitNames more := List.flatMap_append

theorem splitNames_cons (s : String) (lists : List String) :
    splitNames (s :: lists) = splitNames [s] ++ splitNames lists := splitNames_append [s] lists

theorem splitNames_intercalate {items : List String} (h : ∀ s ∈ items, ',' ∉ s.toList) :
    splitNames [",".intercalate items] = (items.map strip).filter (· ≠ "") := by
  cases items with
  | nil => decide
  | cons s items =>
    have hlist : (",".intercalate (s :: items)).toList =
        [','].intercalate ((s :: items).map String.toList) := String.toList_intercalate
    have hcut : (",".intercalate (s :: items)).toList.splitOn ',' =
        (s :: items).map String.toList := by
      rw [hlist]
      exact List.splitOn_intercalate ',' (List.forall_mem_map.2 h) (by simp)
    have hstrip : (fun cs => strip (String.ofList cs)) ∘ String.toList = strip :=
      funext fun s => congrArg strip String.ofList_toList
    rw [splitNames, List.flatMap_singleton, hcut, List.map_map, hstrip]

theorem splitNames_row {row : List (Option String × String)}
    (h : ∀ i ∈ row, ListItem i.1 i.2) :
    splitNames [",".intercalate (row.map (·.2))] = row.filterMap (·.1) := by
  rw [splitNames_intercalate (List.forall_mem_map.2 fun i hi => (h i hi).no_comma)]
  induction row with
  | nil => rfl
  | cons i row ih =>
    obtain ⟨hi, hrow⟩ := List.forall_mem_cons.1 h
    have hsplit : ((i :: row).map (·.2)).map strip = [strip i.2] ++ (row.map (·.2)).map strip := rfl
    rw [hsplit, List.filter_append, hi.read, ih hrow]
    cases hname : i.1 <;> simp [hname]

/-- However names are spread over lists, they are read as they were written. -/
theorem splitNames_of_spread {ms lists : List String} (h : Spread ms lists) :
    splitNames lists = ms := by
  induction h with
  | nil => rfl
  | cons hrow _ ih => rw [splitNames_cons, splitNames_row hrow, ih]

end Plugin

theorem IsModuleName.listItem {m : String} (h : IsModuleName m) : ListItem (some m) m := by
  have hitem : ListItem (some m) ("" ++ m ++ "") := .name h rfl rfl
  rwa [String.empty_append, String.append_empty] at hitem

theorem spread_self {ms : List String} (h : ∀ m ∈ ms, IsModuleName m) : Spread ms ms := by
  induction ms with
  | nil => exact .nil
  | cons m ms ih =>
    obtain ⟨hm, hms⟩ := List.forall_mem_cons.1 h
    have hitem : ∀ i ∈ [(some m, m)], ListItem i.1 i.2 := List.forall_mem_singleton.2 hm.listItem
    exact .cons hitem (ih hms)

theorem not_mem_of_mem_splitOn {x : Char} {cs piece : List Char} (h : piece ∈ cs.splitOn x) :
    x ∉ piece := by
  induction cs generalizing piece with
  | nil =>
    rw [List.splitOn_nil, List.mem_singleton] at h
    simp [h]
  | cons c cs ih =>
    rw [List.splitOn_cons_eq_if_modifyHead] at h
    split at h
    · obtain rfl | h := List.mem_cons.1 h
      · exact List.not_mem_nil
      · exact ih h
    next hc =>
      match hcut : cs.splitOn x with
      | [] => exact absurd hcut (List.splitOn_ne_nil x cs)
      | first :: rest =>
        rw [hcut, List.modifyHead_cons] at h
        rw [hcut] at ih
        obtain rfl | h := List.mem_cons.1 h
        · have hx : x ≠ c := fun heq => hc (by simp [heq])
          simp [hx, ih List.mem_cons_self]
        · exact ih (List.mem_cons_of_mem first h)

namespace Plugin

theorem isModuleName_of_mem_splitNames {m : String} {lists : List String}
    (h : m ∈ splitNames lists) : IsModuleName m := by
  obtain ⟨s, _, hm⟩ := List.mem_flatMap.1 h
  obtain ⟨hm, hne⟩ := List.mem_filter.1 hm
  obtain ⟨piece, hpiece, rfl⟩ := List.mem_map.1 hm
  obtain ⟨pre, post, -, hmargins⟩ := Text.margins_trimEnds isSpace piece
  have hlist : (strip (String.ofList piece)).toList = trimEnds isSpace piece := by
    rw [strip, String.toList_ofList, String.toList_ofList]
  constructor
  · simpa using hne
  · rw [hlist]
    exact fun hc => not_mem_of_mem_splitOn hpiece (Text.mem_of_mem_trimEnds hc)
  · rw [hlist]
    exact hmargins.first
  · rw [hlist]
    exact hmargins.last

theorem splitNames_splitNames (lists : List String) :
    splitNames (splitNames lists) = splitNames lists :=
  splitNames_of_spread (spread_self fun _ hm => isModuleName_of_mem_splitNames hm)

end Plugin

end BlockTree

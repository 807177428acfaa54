import BlockTree.Proofs.Json.Numeral

/-! The texts of values: texts that differ in nothing but the gaps between tokens spell the same
value. -/
namespace BlockTree.Json

open Decimal (isDigit)

def Gap (g : List Char) : Prop := ∀ c ∈ g, isGap c = true

instance (g : List Char) : Decidable (Gap g) := List.decidableBAll _ g

theorem gap_nil : Gap [] := List.forall_mem_nil _

theorem gap_append {g g' : List Char} (hg : Gap g) (hg' : Gap g') : Gap (g ++ g') :=
  List.forall_mem_append.2 ⟨hg, hg'⟩

mutual
/-- A value and a text that spells it. -/
inductive Spells : Value → List Char → Prop
  | null : Spells .null "null".toList
  | bool (b : Bool) : Spells (.bool b) (if b then "true" else "false").toList
  | int (n : Int) : Spells (.int n) (Decimal.intText n).toList
  | str (s : String) : Spells (.str s) (quoted s)
  | emptyList : Spells (.list []) ['[', ']']
  | list {vs t} : SpellsItems vs t → Spells (.list vs) ('[' :: t)
  | emptyMap : Spells (.map []) ['\x7b', '\x7d']
  | map {es t} : SpellsEntries es t → Spells (.map es) ('\x7b' :: t)
  | between {v t g g'} : Gap g → Spells v t → Gap g' → Spells v (g ++ t ++ g')

inductive SpellsItems : List Value → List Char → Prop
  | last {v t} : Spells v t → SpellsItems [v] (t ++ [']'])
  | more {v t vs u} : Spells v t → SpellsItems vs u → SpellsItems (v :: vs) (t ++ ',' :: u)

inductive SpellsEntries : Entries → List Char → Prop
  | last {g k v t} : Gap g → Spells v t →
      SpellsEntries [(.str k, v)] (g ++ quoted k ++ ':' :: t ++ ['\x7d'])
  | more {g k v t es u} : Gap g → Spells v t → SpellsEntries es u →
      SpellsEntries ((.str k, v) :: es) (g ++ quoted k ++ ':' :: t ++ ',' :: u)
end

theorem skip_gap {g : List Char} (hg : Gap g) (cs : List Char) : skip (g ++ cs) = skip cs :=
  List.dropWhile_append_of_pos hg

theorem ends_gap {g cs : List Char} (hg : Gap g) (h : Ends cs) : Ends (g ++ cs) := by
  cases g with
  | nil => exact h
  | cons c g => exact .inl (hg c List.mem_cons_self)

theorem skip_token {c : Char} (hc : isGap c = false) (cs : List Char) :
    skip (c :: cs) = c :: cs := List.dropWhile_cons_of_neg (by simp [hc])

theorem intText_starts (n : Int) : ∃ c cs, (Decimal.intText n).toList = c :: cs ∧
    isGap c = false ∧ c ∉ ['"', '[', ']', '\x7b'] := by
  obtain ⟨c, cs, hc, -, ⟨-, htext⟩ | ⟨-, htext⟩⟩ := intText_cases n
  · exact ⟨'-', c :: cs, htext, by decide, by decide⟩
  · have hnone : ∀ x ∈ [' ', '\t', '\n', '\r', '"', '[', ']', '\x7b'], c ≠ x := by
      rintro x hx rfl
      have hdigit : ∀ x ∈ [' ', '\t', '\n', '\r', '"', '[', ']', '\x7b'], isDigit x = false := by
        simp only [List.forall_mem_cons, List.not_mem_nil, false_implies, implies_true]
        decide
      cases hc.symm.trans (hdigit c hx)
    refine ⟨c, cs, htext, ?_, ?_⟩
    · simp [isGap, hnone]
    · simp [hnone]

/-- A text that spells a value starts, after a gap, with a character that closes nothing. -/
theorem Spells.starts : ∀ {v t}, Spells v t →
    ∃ g c u, Gap g ∧ t = g ++ c :: u ∧ isGap c = false ∧ c ≠ ']'
  | _, _, .null => ⟨[], 'n', _, gap_nil, rfl, by decide⟩
  | _, _, .bool b => by
    cases b
    · exact ⟨[], 'f', _, gap_nil, rfl, by decide⟩
    · exact ⟨[], 't', _, gap_nil, rfl, by decide⟩
  | _, _, .int n => by
    obtain ⟨c, cs, htext, hgap, hc⟩ := intText_starts n
    exact ⟨[], c, cs, gap_nil, htext, hgap, fun h => hc (by simp [h])⟩
  | _, _, .str s => ⟨[], '"', _, gap_nil, rfl, by decide⟩
  | _, _, .emptyList | _, _, .list _ => ⟨[], '[', _, gap_nil, rfl, by decide⟩
  | _, _, .emptyMap | _, _, .map _ => ⟨[], '\x7b', _, gap_nil, rfl, by decide⟩
  | _, _, @Spells.between _ _ g g' hg h _ => by
    obtain ⟨g₁, c, u, hg₁, rfl, hc⟩ := h.starts
    exact ⟨g ++ g₁, c, u ++ g', gap_append hg hg₁, by simp, hc⟩

theorem Spells.length_pos {v : Value} {t : List Char} (h : Spells v t) : 0 < t.length := by
  obtain ⟨g, c, u, -, rfl, -⟩ := h.starts
  simp only [List.length_append, List.length_cons]
  omega

theorem Spells.not_closed {v : Value} {t : List Char} (h : Spells v t) (cs u : List Char) :
    skip (t ++ cs) ≠ ']' :: u := by
  obtain ⟨g, c, w, hg, rfl, hgap, hc⟩ := h.starts
  rw [List.append_assoc, skip_gap hg, List.cons_append, skip_token hgap]
  exact fun heq => hc (List.cons.inj heq).1

theorem SpellsItems.not_closed {vs : List Value} {t : List Char} (h : SpellsItems vs t)
    (cs u : List Char) : skip (t ++ cs) ≠ ']' :: u := by
  cases h with
  | last h => rw [List.append_assoc]; exact h.not_closed _ u
  | more h _ => rw [List.append_assoc]; exact h.not_closed _ u

theorem SpellsEntries.not_closed {es : Entries} {t : List Char} (h : SpellsEntries es t)
    (cs u : List Char) : skip (t ++ cs) ≠ '\x7d' :: u := by
  have hquote (s : String) (cs : List Char) : skip (quoted s ++ cs) ≠ '\x7d' :: u := by
    intro h
    cases h
  cases h with
  | last hg _ => simpa only [List.append_assoc, skip_gap hg] using hquote _ _
  | more hg _ _ => simpa only [List.append_assoc, skip_gap hg] using hquote _ _

end BlockTree.Json

import BlockTree.Definition
import BlockTree.Proofs.Value.Marked

/-! The texts of values. Only the empty text is written as the empty text, so that what counts as
true has a text to show. -/
namespace BlockTree

namespace Decimal

@[simp]
theorem natText_ne_empty (n : Nat) : natText n ≠ "" := by
  rw [natText, Ne, String.ofList_eq_empty_iff]
  exact Nat.toDigits_ne_nil

@[simp]
theorem intText_ne_empty (n : Int) : intText n ≠ "" := by
  unfold intText
  split
  all_goals simp

namespace Layout

@[simp]
theorem plain_ne_nil (digits : List Char) (point : Int) : plain digits point ≠ [] := by
  unfold plain
  split
  · simp
  · dsimp only
    split <;> simp

@[simp]
theorem magnitude_ne_nil (l : Layout) (m : Nat) (q : Int) : l.magnitude m q ≠ [] := by
  unfold magnitude
  split
  · simp
  · dsimp only
    split
    all_goals simp [scientific]

@[simp]
theorem text_standard_ne_empty (x : Binary64) : standard.text x ≠ "" := by
  cases x with
  | nan p => simp [text, standard]
  | inf negative => cases negative <;> simp [text, standard]
  | finite negative m q =>
    rw [text, Ne, String.ofList_eq_empty_iff]
    cases negative <;> simp

end Layout

end Decimal

@[simp]
theorem Date.literal_ne_empty (d : Date) : d.literal ≠ "" := by
  unfold literal
  simp only [ne_eq, String.append_eq_empty_iff]
  exact fun h => absurd h.2 (by decide)

@[simp]
theorem DateTime.literal_ne_empty (t : DateTime) : t.literal ≠ "" := by
  unfold literal
  simp only [ne_eq, String.append_eq_empty_iff]
  exact fun h => absurd h.2 (by decide)

@[simp]
theorem Date.text_ne_empty (d : Date) : d.text ≠ "" := by
  unfold text
  simp only [ne_eq, String.append_eq_empty_iff]
  exact fun h => absurd h.1.2 (by decide)

@[simp]
theorem DateTime.text_ne_empty (sep : String) (t : DateTime) : t.text sep ≠ "" := by
  unfold text
  simp

@[simp]
theorem Text.Ragged.text_ne_empty (t : Ragged) : t.text ≠ "" := by
  obtain ⟨c, hc, -⟩ := t.marked_text
  rintro heq
  rw [heq] at hc
  cases hc

namespace Value

@[simp]
theorem literal_ne_empty (v : Value) : v.literal ≠ "" := by
  unfold literal
  split
  case h_2 b => cases b <;> simp
  case h_5 s => simp [Text.quote, Text.quoteChars]
  case h_6 t => simp [Text.Ragged.quote]
  case h_7 bs => simp [Text.quoteBytes]
  case h_11 isMap => cases isMap <;> simp
  all_goals simp

theorem text_ne_empty {v : Value} (h : v.truthy = true) : v.text ≠ "" := by
  cases v with
  | str s => simpa [truthy, text] using h
  | _ => simp [text]

theorem form_ne_empty {v : Value} {s : String} (h : v.truthy = true) (hs : v.form = .ok s) :
    s ≠ "" := by
  unfold form at hs
  split at hs
  · cases hs
    exact text_ne_empty h
  · cases hs

end Value

end BlockTree

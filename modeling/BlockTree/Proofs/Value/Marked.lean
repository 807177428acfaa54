import BlockTree.Proofs.Text.Trimmed
import BlockTree.Value

/-! Texts with a mark: a character that is neither a letter nor white space. The texts of all values
but texts have one, five words apart. -/
namespace BlockTree

/-- Some character is neither white space nor a letter of ASCII. -/
def Text.Marked (s : String) : Prop := ∃ c ∈ s.toList, isSpace c = false ∧ c.isAlpha = false

namespace Decimal

open Text (Marked isSpace)

theorem unspaced_of_isDigit {c : Char} (h : c.isDigit = true) :
    isSpace c = false ∧ c.isAlpha = false := by
  have hrange : 48 ≤ c.toNat ∧ c.toNat ≤ 57 := by
    simpa [Char.isDigit, UInt32.le_iff_toNat_le] using h
  constructor
  · simp [isSpace]
    omega
  · have hdigits : ∀ n < 58, 48 ≤ n → (Char.ofNat n).isAlpha = false := by decide
    have halpha := hdigits c.toNat (by omega) hrange.1
    rwa [Char.ofNat_toNat] at halpha

theorem marked_natText (n : Nat) : Marked (natText n) := by
  obtain ⟨c, hc⟩ := List.exists_mem_of_ne_nil _ (Nat.toDigits_ne_nil (b := 10) (n := n))
  rw [natText, Marked, String.toList_ofList]
  exact ⟨c, hc, unspaced_of_isDigit (Nat.isDigit_of_mem_toDigits (by decide) (by decide) hc)⟩

theorem marked_intText (n : Int) : Marked (intText n) := by
  unfold intText
  split
  · exact ⟨'-', by simp, by decide⟩
  · exact marked_natText _

namespace Layout

@[simp]
theorem point_mem_plain (digits : List Char) (point : Int) : '.' ∈ plain digits point := by
  unfold plain
  split
  · simp
  · dsimp only
    split <;> simp

theorem sign_mem_scientific (l : Layout) (digits : List Char) (point : Int) :
    '-' ∈ l.scientific digits point ∨ '+' ∈ l.scientific digits point := by
  unfold scientific
  dsimp only
  by_cases hneg : point - 1 < 0
  · exact .inl (by simp [hneg])
  · exact .inr (by simp [hneg])

theorem mark_mem_magnitude (l : Layout) (m : Nat) (q : Int) :
    ∃ c ∈ l.magnitude m q, c = '.' ∨ c = '-' ∨ c = '+' := by
  unfold magnitude
  split
  · exact ⟨'.', by simp, .inl rfl⟩
  dsimp only
  split
  · exact ⟨'.', point_mem_plain _ _, .inl rfl⟩
  · cases l.sign_mem_scientific _ _ with
    | inl h => exact ⟨'-', h, .inr (.inl rfl)⟩
    | inr h => exact ⟨'+', h, .inr (.inr rfl)⟩

theorem marked_text_finite (l : Layout) (negative : Bool) (m : Nat) (q : Int) :
    Marked (l.text (.finite negative m q)) := by
  obtain ⟨c, hc, hmark⟩ := l.mark_mem_magnitude m q
  refine ⟨c, ?_, ?_⟩
  · rw [text, String.toList_ofList]
    split
    · exact List.mem_cons_of_mem _ hc
    · exact hc
  · obtain rfl | rfl | rfl := hmark <;> decide

theorem marked_text_standard (x : Binary64) :
    Marked (standard.text x) ∨ standard.text x = "nan" ∨ standard.text x = "inf" := by
  cases x with
  | nan p => exact .inr (.inl rfl)
  | inf negative =>
    cases negative with
    | false => exact .inr (.inr rfl)
    | true => exact .inl ⟨'-', by simp [text], by decide⟩
  | finite negative m q => exact .inl (standard.marked_text_finite negative m q)

end Layout

end Decimal

open Text (Marked)

theorem Text.marked_quoteFor {s : String} (cs : List Char) (h : quoteFor cs ∈ s.toList) :
    Marked s := by
  refine ⟨_, h, ?_⟩
  unfold quoteFor
  split <;> decide

theorem Text.marked_quote (s : String) : Marked (quote s) :=
  marked_quoteFor s.toList (by simp [quote, quoteChars])

theorem Text.marked_quoteBytes (bs : List UInt8) : Marked (quoteBytes bs) := by
  refine marked_quoteFor (bs.map fun b => Char.ofNat b.toNat) ?_
  rw [quoteBytes, String.toList_ofList]
  simp

theorem Text.Ragged.marked_quote (t : Ragged) : Marked t.quote := by
  refine marked_quoteFor (t.codes.filterMap Code.char?) ?_
  rw [quote, String.toList_ofList]
  simp

theorem Text.Ragged.marked_text (t : Ragged) : Marked t.text := by
  obtain ⟨c, hc, hhalf⟩ := List.any_eq_true.1 t.ragged
  cases c with
  | char c => cases hhalf
  | half n =>
    refine ⟨'\\', ?_, by decide⟩
    rw [text, String.toList_ofList, List.mem_flatMap]
    exact ⟨.half n, hc, List.mem_cons_self⟩

theorem Date.marked_literal (d : Date) : Marked d.literal := by
  unfold literal
  exact ⟨'(', by simp, by decide⟩

theorem DateTime.marked_literal (t : DateTime) : Marked t.literal := by
  unfold literal
  exact ⟨'(', by simp, by decide⟩

theorem Date.marked_text (d : Date) : Marked d.text := by
  unfold text
  exact ⟨'-', by simp, by decide⟩

theorem DateTime.marked_text (sep : String) (t : DateTime) : Marked (t.text sep) := by
  unfold text
  exact ⟨':', by simp, by decide⟩

namespace Value

def words : List String := ["None", "True", "False", "nan", "inf"]

theorem marked_literal (v : Value) : Marked v.literal ∨ v.literal ∈ words := by
  unfold literal
  split
  case h_1 => exact .inr (by simp [words])
  case h_2 b => exact .inr (by cases b <;> simp [words])
  case h_3 n => exact .inl (Decimal.marked_intText n)
  case h_4 x =>
    obtain h | h | h := Decimal.Layout.marked_text_standard x
    · exact .inl h
    · exact .inr (by simp [h, words])
    · exact .inr (by simp [h, words])
  case h_5 s => exact .inl (Text.marked_quote s)
  case h_6 t => exact .inl t.marked_quote
  case h_7 bs => exact .inl (Text.marked_quoteBytes bs)
  case h_8 a b => exact .inl ⟨'(', by simp, by decide⟩
  case h_9 => exact .inl ⟨'(', by simp, by decide⟩
  case h_10 items _ => exact .inl ⟨'\x7b', by simp, by decide⟩
  case h_11 isMap => cases isMap <;> exact .inl ⟨'.', by simp, by decide⟩
  case h_12 items => exact .inl ⟨'[', by simp, by decide⟩
  case h_13 entries => exact .inl ⟨'\x7b', by simp, by decide⟩
  case h_14 d => exact .inl d.marked_literal
  case h_15 t => exact .inl t.marked_literal
  case h_16 m => exact .inl ⟨'<', by simp, by decide⟩

theorem marked_text {v : Value} (h : ∀ s, v ≠ .str s) : Marked v.text ∨ v.text ∈ words := by
  unfold text
  split
  case h_1 s => exact absurd rfl (h s)
  case h_2 t => exact .inl t.marked_text
  case h_3 d => exact .inl d.marked_text
  case h_4 t => exact .inl (t.marked_text " ")
  case h_5 m => exact .inl ⟨'.', by simp, by decide⟩
  case h_6 => exact v.marked_literal

end Value

end BlockTree

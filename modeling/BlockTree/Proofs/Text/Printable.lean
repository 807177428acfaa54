import BlockTree.Decimal.Numeral
import BlockTree.Text.Quoted

/-! Printable texts. They hold no character that ends a line, so that a quoted text stays on one
line whatever it is the form of. -/
namespace BlockTree.Text

/-- A character that ends a line: a feed or tabulation of lines, a carriage return, a separator of
files, groups or records, the next line, and the separators of lines and paragraphs. -/
def isLineBreak (c : Char) : Bool :=
  c ∈ ['\n', '\x0b', '\x0c', '\r', '\x1c', '\x1d', '\x1e', '\x85', '\u2028', '\u2029']

def Printable (s : String) : Prop := ∀ c ∈ s.toList, isPrintable c = true

instance : DecidablePred Printable := fun s =>
  decidable_of_iff (s.toList.all isPrintable = true) List.all_eq_true

theorem isPrintable_of_ascii {c : Char} (h : 0x20 ≤ c.toNat ∧ c.toNat ≤ 0x7e) :
    isPrintable c = true := by
  simp [isPrintable, h.1, h.2]

theorem not_isLineBreak_of_isPrintable {c : Char} (h : isPrintable c = true) :
    isLineBreak c = false := by
  have hbreaks : ['\n', '\x0b', '\x0c', '\r', '\x1c', '\x1d', '\x1e', '\x85', '\u2028',
      '\u2029'].all (!isPrintable ·) = true := by decide +kernel
  refine Bool.eq_false_iff.2 fun hc => ?_
  have hnot := List.all_eq_true.1 hbreaks c (of_decide_eq_true hc)
  rw [h] at hnot
  cases hnot

theorem Printable.append {s t : String} (hs : Printable s) (ht : Printable t) :
    Printable (s ++ t) := by
  intro c hc
  rw [String.toList_append, List.mem_append] at hc
  exact hc.elim (hs c) (ht c)

theorem isPrintable_of_mem_hexDigits {c : Char} {n width : Nat} (h : c ∈ hexDigits n width) :
    isPrintable c = true := by
  have hdigits : ∀ k < 16, isPrintable (hexDigit k) = true := by decide
  induction width generalizing n with
  | zero => exact absurd h List.not_mem_nil
  | succ width ih =>
    rw [hexDigits, List.mem_append, List.mem_singleton] at h
    obtain h | rfl := h
    · exact ih h
    · exact hdigits _ (Nat.mod_lt _ (by decide))

theorem isPrintable_of_mem_escapeChar {q c x : Char} (hq : isPrintable q = true)
    (h : x ∈ escapeChar q c) : isPrintable x = true := by
  have hletter : ∀ b ∈ ['\\', 'n', 'r', 't', 'x', 'u', 'U'], isPrintable b = true :=
    List.all_eq_true.1 (by decide)
  have hpair {b : Char} (hb : isPrintable b = true) (hx : x ∈ ['\\', b]) :
      isPrintable x = true := by
    rw [List.mem_cons, List.mem_singleton] at hx
    obtain rfl | rfl := hx
    · exact hletter _ (by simp)
    · exact hb
  have hcode {b : Char} {n width : Nat} (hb : isPrintable b = true)
      (hx : x ∈ '\\' :: b :: hexDigits n width) : isPrintable x = true := by
    rw [List.mem_cons, List.mem_cons] at hx
    obtain rfl | rfl | hx := hx
    · exact hletter _ (by simp)
    · exact hb
    · exact isPrintable_of_mem_hexDigits hx
  unfold escapeChar at h
  by_cases hcq : c = q
  · rw [if_pos hcq] at h
    exact hpair (hcq ▸ hq) h
  rw [if_neg hcq] at h
  split at h
  · exact hpair (hletter _ (by simp)) h
  split at h
  · exact hpair (hletter _ (by simp)) h
  split at h
  · exact hpair (hletter _ (by simp)) h
  split at h
  · exact hpair (hletter _ (by simp)) h
  split at h
  next hc =>
    rw [List.mem_singleton] at h
    rwa [h]
  dsimp only at h
  split at h
  · exact hcode (hletter _ (by simp)) h
  split at h
  · exact hcode (hletter _ (by simp)) h
  · exact hcode (hletter _ (by simp)) h

theorem printable_quote (s : String) : Printable (quote s) := by
  have hquote : isPrintable (quoteFor s.toList) = true := by
    unfold quoteFor
    split <;> decide
  intro c hc
  rw [quote, String.toList_ofList, quoteChars] at hc
  rw [List.cons_append, List.mem_cons, List.mem_append, List.mem_flatMap, List.mem_singleton] at hc
  obtain rfl | ⟨b, -, hb⟩ | rfl := hc
  · exact hquote
  · exact isPrintable_of_mem_escapeChar hquote hb
  · exact hquote

end BlockTree.Text

namespace BlockTree.Decimal

theorem printable_natText (n : Nat) : Text.Printable (natText n) := by
  intro c hc
  rw [natText, String.toList_ofList] at hc
  have hdigit : c.isDigit = true := Nat.isDigit_of_mem_toDigits (by decide) (by decide) hc
  have hrange : 48 ≤ c.toNat ∧ c.toNat ≤ 57 := by
    simpa [Char.isDigit, UInt32.le_iff_toNat_le] using hdigit
  exact Text.isPrintable_of_ascii (by omega)

end BlockTree.Decimal

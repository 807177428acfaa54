import BlockTree.Json.Reader
import BlockTree.Json.Writer
import BlockTree.Proofs.Failure

/-! Quoted texts. Each character is written by name, by its digits or as it is, and is read back
from any of the three. -/
namespace BlockTree.Json

open Text (hexDigit hexDigits)

theorem hexValue?_hexDigit : ∀ n < 16, hexValue? (hexDigit n) = some n := by decide

theorem hexDigits_four {n : Nat} (hn : n < 65536) :
    ∃ a b c d, hexDigits n 4 = [a, b, c, d] ∧ unit? a b c d = some n := by
  have hdigit (k : Nat) : hexValue? (hexDigit (k % 16)) = some (k % 16) :=
    hexValue?_hexDigit _ (Nat.mod_lt k (by decide))
  refine ⟨_, _, _, _, rfl, ?_⟩
  have hsum : ((n / 16 / 16 / 16 % 16 * 16 + n / 16 / 16 % 16) * 16 + n / 16 % 16) * 16 + n % 16 =
      n := by omega
  simp only [unit?, hdigit, Option.bind_eq_bind, Option.bind_some, hsum, pure]

/-- No two characters share a name, and no name starts a number. -/
theorem escapes_named : ∀ e ∈ escapes,
    e.2 ≠ 'u' ∧ (('/', '/') :: escapes).find? (·.2 == e.2) = some e := by
  simp only [escapes, List.forall_mem_cons, List.not_mem_nil, false_implies, implies_true]
  decide

variable {d : Dialect} {cs : List Char}

theorem text?_named {c name : Char} (h : (c, name) ∈ escapes) :
    text? d ('\\' :: name :: cs) = ahead (.char c) (text? d cs) := by
  obtain ⟨hu, hfind⟩ := escapes_named (c, name) h
  simp only at hu hfind
  simp [text?, hu, hfind]

theorem text?_numbered {c : Char} (h : c.toNat < 0x20) :
    text? d ('\\' :: 'u' :: hexDigits c.toNat 4 ++ cs) =
      ahead (.char c) (text? d cs) := by
  obtain ⟨w, x, y, z, hdigits, hunit⟩ := hexDigits_four (n := c.toNat) (by omega)
  have hfirst : Text.isFirstHalf c.toNat = false := by simp [Text.isFirstHalf]; omega
  have hsecond : Text.isSecondHalf c.toNat = false := by simp [Text.isSecondHalf]; omega
  rw [hdigits]
  change text? d ('\\' :: 'u' :: w :: x :: y :: z :: cs) = _
  simp only [text?, hunit, hfirst, hsecond, Bool.false_eq_true, if_false, Char.ofNat_toNat]

theorem text?_plain {c : Char} (hquote : c ≠ '"') (hslash : c ≠ '\\') (h : ¬ c.toNat < 0x20) :
    text? d (c :: cs) = ahead (.char c) (text? d cs) := by
  simp [text?, hslash, h]

theorem text?_escapeChar (c : Char) :
    text? d (escapeChar c ++ cs) = ahead (.char c) (text? d cs) := by
  unfold escapeChar
  cases hlookup : escapes.lookup c with
  | some name => exact text?_named (mem_of_lookup hlookup)
  | none =>
    by_cases hc : c.toNat < 0x20
    · rw [if_pos hc]
      exact text?_numbered hc
    · rw [if_neg hc]
      have hquote : c ≠ '"' := by rintro rfl; cases hlookup
      have hslash : c ≠ '\\' := by rintro rfl; cases hlookup
      exact text?_plain hquote hslash hc

theorem text?_quoted (s : String) (rest : List Char) :
    ∃ u, quoted s ++ rest = '"' :: u ∧ text? d u = some (s.toList.map .char, rest) := by
  refine ⟨s.toList.flatMap escapeChar ++ '"' :: rest, ?_, ?_⟩
  · simp [quoted]
  · induction s.toList with
    | nil => rfl
    | cons c cs ih => rw [List.flatMap_cons, List.append_assoc, text?_escapeChar, ih]; rfl

end BlockTree.Json

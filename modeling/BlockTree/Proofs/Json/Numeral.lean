import BlockTree.Json.Reader
import BlockTree.Json.Writer

/-! Integers. Their digits have no leading zero and are read back as the number, if nothing follows
that would carry a number on. -/
namespace BlockTree.Json

open Decimal (isDigit digitsValue intText)

theorem digitsValue_toDigits (n : Nat) : digitsValue 0 (Nat.toDigits 10 n) = n :=
  Nat.ofDigitChars_ten_toDigits

theorem isDigit_of_mem_toDigits {n : Nat} {c : Char} (h : c ∈ Nat.toDigits 10 n) :
    isDigit c = true := Nat.isDigit_of_mem_toDigits (by decide) (by decide) h

theorem toDigits_ne_zero_cons {n : Nat} (hn : 0 < n) (ds : List Char) :
    Nat.toDigits 10 n ≠ '0' :: ds := by
  induction n using Nat.strongRecOn generalizing ds with
  | ind n ih =>
    by_cases hlt : n < 10
    · have hdigit : ∀ k < 10, 0 < k → Nat.digitChar k ≠ '0' := by decide
      rw [Nat.toDigits_of_lt_base hlt]
      intro h
      exact hdigit n hlt hn (List.cons.inj h).1
    · have hdiv : 0 < n / 10 := by omega
      rw [Nat.toDigits_of_base_le (by decide) (by omega)]
      intro h
      obtain ⟨c, cs, hcs⟩ :=
        List.exists_cons_of_ne_nil (Nat.toDigits_ne_nil (b := 10) (n := n / 10))
      rw [hcs, List.cons_append] at h
      have hzero : Nat.toDigits 10 (n / 10) = '0' :: cs := by rw [hcs, (List.cons.inj h).1]
      exact ih (n / 10) (by omega) hdiv cs hzero

/-- What can follow a value: a gap, a comma, a closing bracket or nothing. -/
def Ends : List Char → Prop
  | [] => True
  | c :: _ => isGap c = true ∨ c ∈ [',', ']', '\x7d']

theorem Ends.stops {c : Char} {cs : List Char} (h : Ends (c :: cs)) :
    isDigit c = false ∧ c ∉ ['.', 'e', 'E'] := by
  have hall : ∀ c ∈ [' ', '\t', '\n', '\r', ',', ']', '\x7d'],
      isDigit c = false ∧ c ∉ ['.', 'e', 'E'] := by
    simp only [List.forall_mem_cons, List.not_mem_nil, false_implies, implies_true]
    decide
  apply hall
  simpa [Ends, isGap, or_assoc] using h

variable {d : Dialect} {rest : List Char}

theorem takeWhile_of_ends (hrest : Ends rest) : rest.takeWhile isDigit = [] := by
  cases rest with
  | nil => rfl
  | cons c cs => rw [List.takeWhile_cons, hrest.stops.1]; rfl

theorem dropWhile_of_ends (hrest : Ends rest) : rest.dropWhile isDigit = rest := by
  cases rest with
  | nil => rfl
  | cons c cs => rw [List.dropWhile_cons, hrest.stops.1]; rfl

theorem whole?_toDigits (n : Nat) (hrest : Ends rest) :
    whole? (Nat.toDigits 10 n ++ rest) = some (Nat.toDigits 10 n, rest) := by
  have hdigits : ∀ c ∈ Nat.toDigits 10 n, isDigit c = true := fun c => isDigit_of_mem_toDigits
  unfold whole?
  rw [List.takeWhile_append_of_pos hdigits, List.dropWhile_append_of_pos hdigits,
    takeWhile_of_ends hrest, dropWhile_of_ends hrest, List.append_nil]
  split
  next hnil => exact absurd hnil Nat.toDigits_ne_nil
  next c cs hzero =>
    obtain rfl | hn := n.eq_zero_or_pos
    · cases hzero
    · exact absurd hzero (toDigits_ne_zero_cons hn _)
  next => rfl

theorem fraction?_of_ends (hrest : Ends rest) : fraction? rest = some ([], rest) := by
  unfold fraction?
  split
  next cs => exact absurd hrest.stops.2 (by simp)
  next => rfl

theorem exponent?_of_ends (hrest : Ends rest) : exponent? rest = some (none, rest) := by
  cases rest with
  | nil => rfl
  | cons c cs =>
    have hc := hrest.stops.2
    simp only [List.mem_cons, List.not_mem_nil, or_false, not_or] at hc
    simp [exponent?, hc]

theorem length_toDigits_le {n k : Nat} (hk : 0 < k) (hn : n < Nat.pow 10 k) :
    (Nat.toDigits 10 n).length ≤ k := (Nat.length_toDigits_le_iff (by decide) hk).2 hn

theorem magnitude_toDigits (negative : Bool) {n : Nat} (hn : n < Nat.pow 10 digitLimit)
    (hd : d.admitsInt (if negative then -n else n) = true) (hrest : Ends rest) :
    magnitude d negative (Nat.toDigits 10 n ++ rest) =
      .ok (.int (if negative then -n else n), rest) := by
  have hlength : ¬ digitLimit < (Nat.toDigits 10 n).length :=
    Nat.not_lt.2 (length_toDigits_le (by decide) hn)
  simp [magnitude, orJson, whole?_toDigits n hrest, fraction?_of_ends hrest,
    exponent?_of_ends hrest, digitsValue_toDigits, hd, hlength, bind, Except.bind, pure,
    Except.pure]

theorem intText_cases (n : Int) : ∃ c cs, isDigit c = true ∧ Nat.toDigits 10 n.natAbs = c :: cs ∧
    ((n < 0 ∧ (intText n).toList = '-' :: c :: cs) ∨ (0 ≤ n ∧ (intText n).toList = c :: cs)) := by
  obtain ⟨c, cs, hcs⟩ :=
    List.exists_cons_of_ne_nil (Nat.toDigits_ne_nil (b := 10) (n := n.natAbs))
  have hc : isDigit c = true := isDigit_of_mem_toDigits (hcs ▸ List.mem_cons_self)
  refine ⟨c, cs, hc, hcs, ?_⟩
  by_cases hn : n < 0
  · left
    simp [intText, Decimal.natText, hn, hcs]
  · right
    simp [intText, Decimal.natText, hn, hcs, Int.not_lt.1 hn]

theorem names_not_digits (d : Dialect) :
    ∀ n ∈ names d, 2 ≤ n.1.length ∧ (n.1.take 2).any isDigit = false := by
  cases d <;> decide

theorem name_not_start {n : List Char × Value} (hn : n ∈ names d) {c : Char}
    (hc : isDigit c = true) (cs : List Char) :
    ¬ n.1.isPrefixOf (c :: cs) = true ∧ ¬ n.1.isPrefixOf ('-' :: c :: cs) = true := by
  obtain ⟨hlength, hdigits⟩ := names_not_digits d n hn
  match n, hlength, hdigits with
  | (x :: y :: zs, v), _, hdigits =>
    have hx : x ≠ c := fun h => by simp [h, hc] at hdigits
    have hy : y ≠ c := fun h => by simp [h, hc] at hdigits
    simp [List.isPrefixOf, hx, hy]

theorem scalar_digit {c : Char} (hc : isDigit c = true) (cs : List Char) :
    scalar d (c :: cs) = magnitude d false (c :: cs) ∧
      scalar d ('-' :: c :: cs) = magnitude d true (c :: cs) := by
  have hplain := List.find?_eq_none.2 fun n hn => (name_not_start (d := d) (n := n) hn hc cs).1
  have hsigned := List.find?_eq_none.2 fun n hn => (name_not_start (d := d) (n := n) hn hc cs).2
  have hsign : c ≠ '-' := by rintro rfl; cases hc
  constructor
  · rw [scalar, hplain]
    simp [number, hsign]
  · rw [scalar, hsigned]
    rfl

theorem scalar_intText {n : Int} (hn : n.natAbs < Nat.pow 10 digitLimit) (hd : d.admitsInt n = true)
    (hrest : Ends rest) : scalar d ((intText n).toList ++ rest) = .ok (.int n, rest) := by
  obtain ⟨c, cs, hc, hcs, ⟨hneg, htext⟩ | ⟨hpos, htext⟩⟩ := intText_cases n
  · have habs : -(n.natAbs : Int) = n := by omega
    have hmagnitude := magnitude_toDigits (d := d) true hn (by rwa [if_pos rfl, habs]) hrest
    rw [if_pos rfl, habs, hcs] at hmagnitude
    rw [htext, List.cons_append, List.cons_append, (scalar_digit hc _).2]
    exact hmagnitude
  · have habs : (n.natAbs : Int) = n := by omega
    have hmagnitude :=
      magnitude_toDigits (d := d) false hn (by rwa [if_neg (by decide), habs]) hrest
    rw [if_neg (by decide), habs, hcs] at hmagnitude
    rw [htext, List.cons_append, (scalar_digit hc _).1]
    exact hmagnitude

end BlockTree.Json

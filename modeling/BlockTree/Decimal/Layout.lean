import BlockTree.Decimal.Numeral
import BlockTree.Decimal.Shortest

/-! Texts of binary64 numbers. The digits are always the shortest; a layout fixes how they are set.
-/
namespace BlockTree.Decimal

/-- `low < p ≤ high` are the point positions `p` (the value being `0.d₁d₂… · 10^p`) written without
an exponent. -/
structure Layout where
  low : Int
  high : Int
  exponentWidth : Nat
  pointed : Bool
  nan : String
  infinity : String

namespace Layout

def standard : Layout := ⟨-4, 16, 2, false, "nan", "inf"⟩

/-- Digits without an exponent: a whole number keeps one zero after its point. -/
def plain (digits : List Char) (point : Int) : List Char :=
  if point ≤ 0 then '0' :: '.' :: List.replicate (-point).toNat '0' ++ digits
  else
    let p := point.toNat
    if digits.length ≤ p then digits ++ List.replicate (p - digits.length) '0' ++ ['.', '0']
    else digits.take p ++ '.' :: digits.drop p

def scientific (l : Layout) (digits : List Char) (point : Int) : List Char :=
  let e := point - 1
  let ds := Nat.toDigits 10 e.natAbs
  let mantissa := match digits with
    | [d] => if l.pointed then [d, '.', '0'] else [d]
    | d :: ds => d :: '.' :: ds
    | [] => []
  mantissa ++ 'e' :: (if e < 0 then '-' else '+') ::
    (List.replicate (l.exponentWidth - ds.length) '0' ++ ds)

def magnitude (l : Layout) (m : Nat) (q : Int) : List Char :=
  if m = 0 then ['0', '.', '0'] else
    let (d, e) := shortest m q
    let digits := Nat.toDigits 10 d
    let point := digits.length + e
    if l.low < point ∧ point ≤ l.high then plain digits point else l.scientific digits point

def text (l : Layout) : Binary64 → String
  | .nan _ => l.nan
  | .inf negative => if negative then "-" ++ l.infinity else l.infinity
  | .finite negative m q =>
    String.ofList (if negative then '-' :: l.magnitude m q else l.magnitude m q)

end Layout

def Binary64.ofText? (s : String) : Option Binary64 :=
  let (negative, cs) := Numeral.takeSign s.toList
  if cs = Layout.standard.nan.toList then some (.nan 0)
  else if cs = Layout.standard.infinity.toList then some (.inf negative)
  else (Numeral.ofChars? cs).map (·.toBinary64 negative)

end BlockTree.Decimal

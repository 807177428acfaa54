import BlockTree.Decimal.Binary64

/-! Decimal numerals: digits with an optional point and an optional power of ten. -/
namespace BlockTree.Decimal

def isDigit (c : Char) : Bool := '0' ≤ c && c ≤ '9'

/-- The number that a string of digits continues, `acc` being the digits before it. -/
def digitsValue (acc : Nat) (cs : List Char) : Nat :=
  cs.foldl (fun n c => 10 * n + (c.toNat - 48)) acc

def natText (n : Nat) : String := String.ofList (Nat.toDigits 10 n)

def intText (n : Int) : String := if n < 0 then "-" ++ natText n.natAbs else natText n.natAbs

structure Numeral where
  whole : List Char
  fraction : List Char
  exponent : Int

namespace Numeral

def toBinary64 (negative : Bool) (n : Numeral) : Binary64 :=
  .ofDecimal negative (digitsValue 0 (n.whole ++ n.fraction)) (n.exponent - n.fraction.length)

def takeSign : List Char → Bool × List Char
  | '-' :: cs => (true, cs)
  | '+' :: cs => (false, cs)
  | cs => (false, cs)

def exponent? : List Char → Option Int
  | [] => some 0
  | c :: cs =>
    let (negative, ds) := takeSign cs
    if (c = 'e' || c = 'E') && !ds.isEmpty && ds.all isDigit then
      let n : Int := digitsValue 0 ds
      some (if negative then -n else n)
    else none

def ofChars? (cs : List Char) : Option Numeral :=
  let whole := cs.takeWhile isDigit
  let rest := cs.dropWhile isDigit
  let (fraction, rest) := match rest with
    | '.' :: ds => (ds.takeWhile isDigit, ds.dropWhile isDigit)
    | _ => ([], rest)
  if whole.isEmpty && fraction.isEmpty then none else
    (exponent? rest).map fun e => ⟨whole, fraction, e⟩

end Numeral

end BlockTree.Decimal

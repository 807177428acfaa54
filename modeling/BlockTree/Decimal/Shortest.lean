import BlockTree.Decimal.Binary64

/-! The shortest decimal that reads back as a given binary64 number, and of those the nearest. -/
namespace BlockTree.Decimal

/-- The reals that round to `m·2^q`, over the common denominator `den`; the ends belong to the
interval if `m` is even. -/
structure Interval where
  low : Nat
  value : Nat
  high : Nat
  den : Nat
  closed : Bool

/-- Below a power of two the neighbours lie half as far apart. -/
def Interval.of (m : Nat) (q : Int) : Interval :=
  let tight := m = Nat.pow 2 52 ∧ -1074 < q
  let (scale, den) := Binary64.ratio 1 q
  ⟨(4 * m - if tight then 1 else 2) * scale, 4 * m * scale, (4 * m + 2) * scale, 4 * den,
    m % 2 = 0⟩

def Interval.holds (i : Interval) (d : Nat) (e : Int) : Bool :=
  let (num, den) := match e with
    | .ofNat k => (d * Nat.pow 10 k * i.den, 1)
    | .negSucc k => (d * i.den, Nat.pow 10 (k + 1))
  if i.closed then i.low * den ≤ num && num ≤ i.high * den
  else i.low * den < num && num < i.high * den

/-- The nearer neighbour of the value on the grid `10^e` that lies in the interval; the even one
of two equally near. -/
def Interval.onGrid (i : Interval) (e : Int) : Option Nat :=
  let (num, den) := match e with
    | .ofNat k => (i.value, i.den * Nat.pow 10 k)
    | .negSucc k => (i.value * Nat.pow 10 (k + 1), i.den)
  let d := num / den
  let nearest := Binary64.roundDiv num den
  let other := if nearest = d then d + 1 else d
  if i.holds nearest e then some nearest else if i.holds other e then some other else none

/-- The first hit on the grids of `fuel` further digits, from coarse to fine. -/
def Interval.search (i : Interval) : Nat → Int → Option (Nat × Int)
  | 0, _ => none
  | fuel + 1, e => match i.onGrid e with
    | some d => if d = 0 then i.search fuel (e - 1) else some (d, e)
    | none => i.search fuel (e - 1)

def dropZeros : Nat → Nat → Int → Nat × Int
  | 0, d, e => (d, e)
  | fuel + 1, d, e => if d % 10 = 0 ∧ d ≠ 0 then dropZeros fuel (d / 10) (e + 1) else (d, e)

/-- Digits and exponent of the shortest decimal for `m·2^q` with `0 < m`. -/
def shortest (m : Nat) (q : Int) : Nat × Int :=
  let i := Interval.of m q
  let size : Int := Nat.log2 m + q
  let top : Int := size * 30103 / 100000 + 1
  match i.search 20 top with
  | some (d, e) => dropZeros 20 d e
  | none => (m, q)

end BlockTree.Decimal

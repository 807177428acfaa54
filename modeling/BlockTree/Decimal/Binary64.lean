/-! Numbers of the binary64 format as exact dyadic fractions, and rounding of a ratio to the nearest
of them. All arithmetic is on natural numbers. -/
namespace BlockTree.Decimal

/-- Not a number, with a payload that tells such values apart, an infinity, or `±m·2^q` with
`m < 2^53` and `-1074 ≤ q ≤ 971`, where `2^52 ≤ m` unless `q = -1074`. -/
inductive Binary64
  | nan (payload : Nat)
  | inf (negative : Bool)
  | finite (negative : Bool) (m : Nat) (q : Int)
deriving DecidableEq, Repr, Inhabited

namespace Binary64

def zero (negative : Bool) : Binary64 := .finite negative 0 (-1074)

def isZero : Binary64 → Bool
  | .finite _ 0 _ => true
  | _ => false

def neg : Binary64 → Binary64
  | .nan payload => .nan payload
  | .inf s => .inf (!s)
  | .finite s m q => .finite (!s) m q

/-- The quotient rounded to the nearest integer, a tie going to the even one. -/
def roundDiv (num den : Nat) : Nat :=
  let d := num / den
  let twice := 2 * (num % den)
  if twice < den then d else if den < twice then d + 1 else if d % 2 = 0 then d else d + 1

def scaled (num den : Nat) (q : Int) : Nat :=
  match q with
  | .ofNat k => roundDiv num (den * Nat.pow 2 k)
  | .negSucc k => roundDiv (num * Nat.pow 2 (k + 1)) den

def pack (negative : Bool) (m : Nat) (q : Int) : Binary64 :=
  let (m, q) := if m = Nat.pow 2 53 then (Nat.pow 2 52, q + 1) else (m, q)
  if 971 < q then .inf negative else .finite negative m q

def ofRatio (negative : Bool) (num den : Nat) : Binary64 :=
  if num = 0 then zero negative else
    let q : Int := (Nat.log2 num : Int) - Nat.log2 den - 52
    let fine := max (q - 1) (-1074)
    let m := scaled num den fine
    if m ≤ Nat.pow 2 53 then pack negative m fine else
      pack negative (scaled num den (max q (-1074))) (max q (-1074))

/-- The nearest number to `±digits·10^exponent`; beyond `10^±400` the answer is known without the
power. -/
def ofDecimal (negative : Bool) (digits : Nat) (exponent : Int) : Binary64 :=
  if digits = 0 then zero negative else
    let top : Int := Nat.log2 digits / 3 + exponent
    let low : Int := Nat.log2 digits / 4 + exponent
    if top < -400 then zero negative else if 400 < low then .inf negative else
      match exponent with
      | .ofNat k => ofRatio negative (digits * Nat.pow 10 k) 1
      | .negSucc k => ofRatio negative digits (Nat.pow 10 (k + 1))

def ratio (m : Nat) : Int → Nat × Nat
  | .ofNat k => (m * Nat.pow 2 k, 1)
  | .negSucc k => (m, Nat.pow 2 (k + 1))

def toInt? : Binary64 → Option Int
  | .finite s m q =>
    let (num, den) := ratio m q
    if num % den = 0 then some (if s then -(num / den : Nat) else (num / den : Nat)) else none
  | _ => none

/-- Equality of values: the zeros are equal and not-a-number equals nothing. -/
def eqv : Binary64 → Binary64 → Bool
  | .nan _, _ | _, .nan _ => false
  | .inf s, .inf t => s == t
  | .finite s m q, .finite t n r => (m == 0 && n == 0) || (s == t && m == n && q == r)
  | _, _ => false

def identical : Binary64 → Binary64 → Bool
  | .nan i, .nan j => i == j
  | _, _ => false

def add : Binary64 → Binary64 → Binary64
  | .finite s m q, .finite t n r =>
    let low := min q r
    let a : Int := (if s then -1 else 1) * (m * Nat.pow 2 (q - low).toNat : Nat)
    let b : Int := (if t then -1 else 1) * (n * Nat.pow 2 (r - low).toNat : Nat)
    if a + b = 0 then zero (s && t) else
      let (num, den) := ratio (a + b).natAbs low
      ofRatio (a + b < 0) num den
  | .nan i, _ | _, .nan i => .nan i
  | .inf s, .inf t => if s = t then .inf s else .nan 0
  | .inf s, _ | _, .inf s => .inf s

def isInfinite : Binary64 → Bool
  | .inf _ => true
  | _ => false

def ofNat (k : Nat) : Binary64 := ofRatio false k 1

def scale (x : Binary64) : Binary64 → Binary64
  | .finite _ n r => match x with
    | .finite s m q =>
      let (a, b) := ratio m q
      let (c, d) := ratio n r
      ofRatio s (a * c) (b * d)
    | x => x
  | y => y

end Binary64

end BlockTree.Decimal

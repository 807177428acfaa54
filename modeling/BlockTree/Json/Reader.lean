import BlockTree.Failure
import BlockTree.Json.Dialect
import BlockTree.Text.Quoted

/-! Reading JSON. Each reader takes what it understands from the front of the characters and returns
the rest. -/
namespace BlockTree.Json

def isGap (c : Char) : Bool := c = ' ' || c = '\t' || c = '\n' || c = '\r'

def skip (cs : List Char) : List Char := cs.dropWhile isGap

def hexValue? (c : Char) : Option Nat :=
  if '0' ≤ c ∧ c ≤ '9' then some (c.toNat - 48)
  else if 'a' ≤ c ∧ c ≤ 'f' then some (c.toNat - 87)
  else if 'A' ≤ c ∧ c ≤ 'F' then some (c.toNat - 55)
  else none

def unit? (a b c d : Char) : Option Nat := do
  let a ← hexValue? a
  let b ← hexValue? b
  let c ← hexValue? c
  let d ← hexValue? d
  return ((a * 16 + b) * 16 + c) * 16 + d

def ahead (c : Text.Code) (r : Option (List Text.Code × List Char)) :
    Option (List Text.Code × List Char) :=
  r.map fun r => (c :: r.1, r.2)

/-- The codes of a text up to its closing quote. A character beyond 16 bits is given as two units;
only the wide dialect takes one of them alone. -/
def text? (dialect : Dialect) : List Char → Option (List Text.Code × List Char)
  | [] => none
  | '"' :: cs => some ([], cs)
  | '\\' :: 'u' :: a :: b :: c :: d :: cs =>
    match unit? a b c d with
    | none => none
    | some n =>
      let alone (_ : Unit) := if dialect = .wide then ahead (.half n) (text? dialect cs) else none
      if Text.isFirstHalf n then
        match cs with
        | '\\' :: 'u' :: e :: f :: g :: h :: rest =>
          match unit? e f g h with
          | some l =>
            if Text.isSecondHalf l then ahead (.char (Text.joined n l)) (text? dialect rest)
            else alone ()
          | none => none
        | _ => alone ()
      else if Text.isSecondHalf n then alone ()
      else ahead (.char (Char.ofNat n)) (text? dialect cs)
  | '\\' :: c :: cs =>
    match (('/', '/') :: escapes).find? (·.2 == c) with
    | some e => ahead (.char e.1) (text? dialect cs)
    | none => none
  | c :: cs => if c.toNat < 0x20 || c = '\\' then none else ahead (.char c) (text? dialect cs)

def whole? (cs : List Char) : Option (List Char × List Char) :=
  match cs.takeWhile Decimal.isDigit with
  | [] => none
  | '0' :: _ :: _ => none
  | ds => some (ds, cs.dropWhile Decimal.isDigit)

def fraction? : List Char → Option (List Char × List Char)
  | '.' :: cs =>
    let ds := cs.takeWhile Decimal.isDigit
    if ds.isEmpty then none else some (ds, cs.dropWhile Decimal.isDigit)
  | cs => some ([], cs)

def exponent? : List Char → Option (Option Int × List Char)
  | [] => some (none, [])
  | c :: cs =>
    if c = 'e' || c = 'E' then
      let (negative, rest) := Decimal.Numeral.takeSign cs
      let ds := rest.takeWhile Decimal.isDigit
      let n : Int := Decimal.digitsValue 0 ds
      if ds.isEmpty then none
      else some (some (if negative then -n else n), rest.dropWhile Decimal.isDigit)
    else some (none, c :: cs)

abbrev Reader (α : Type) := List Char → Except Failure (α × List Char)

def orJson {α : Type} : Option α → Except Failure α
  | some a => .ok a
  | none => .error .json

def digitLimit : Nat := 4300

/-- A number without its sign. It is an integer unless it has a fraction or an exponent; in the
narrow dialect a wide integer is a float and an infinite float is refused. -/
def magnitude (dialect : Dialect) (negative : Bool) : Reader Value := fun cs => do
  let (ds, cs) ← orJson (whole? cs)
  let (fs, cs) ← orJson (fraction? cs)
  let (e, cs) ← orJson (exponent? cs)
  let isWhole := fs.isEmpty && e.isNone
  if isWhole && dialect = .wide && digitLimit < ds.length then throw (.longNumeral ds.length)
  let n : Int := Decimal.digitsValue 0 ds
  let n := if negative then -n else n
  if isWhole && dialect.admitsInt n then
    return (.int n, cs)
  else
    match Decimal.Numeral.toBinary64 negative ⟨ds, fs, e.getD 0⟩, dialect with
    | .inf _, .narrow => throw .json
    | x, _ => return (.float x, cs)

def number (dialect : Dialect) : Reader Value
  | '-' :: cs => magnitude dialect true cs
  | cs => magnitude dialect false cs

def names (dialect : Dialect) : List (List Char × Value) :=
  [("null".toList, .null), ("true".toList, .bool true), ("false".toList, .bool false)] ++
  match dialect with
  | .narrow => []
  | .wide => [("NaN".toList, .float (.nan 0)), ("Infinity".toList, .float (.inf false)),
      ("-Infinity".toList, .float (.inf true))]

def scalar (dialect : Dialect) : Reader Value := fun cs =>
  match (names dialect).find? fun n => n.1.isPrefixOf cs with
  | some n => .ok (n.2, cs.drop n.1.length)
  | none => number dialect cs

def depthLimit : Dialect → Nat
  | .narrow => 1024
  | .wide => 985

def tooDeep : Dialect → Failure
  | .narrow => .json
  | .wide => .endless

mutual
def value (dialect : Dialect) (depth : Nat) : Nat → Reader Value
  | 0, _ => .error .json
  | fuel + 1, cs =>
    match skip cs with
    | '"' :: cs => do
      let (t, cs) ← orJson (text? dialect cs)
      return (.ofCodes t, cs)
    | '[' :: cs => do
      if depthLimit dialect ≤ depth then throw (tooDeep dialect)
      match skip cs with
      | ']' :: rest => return (.list [], rest)
      | _ =>
        let (vs, cs) ← items dialect (depth + 1) fuel cs
        return (.list vs, cs)
    | '\x7b' :: cs => do
      if depthLimit dialect ≤ depth then throw (tooDeep dialect)
      match skip cs with
      | '\x7d' :: rest => return (.map [], rest)
      | _ =>
        let (es, cs) ← entries dialect (depth + 1) fuel [] cs
        return (.map es, cs)
    | cs => scalar dialect cs

def items (dialect : Dialect) (depth : Nat) : Nat → Reader (List Value)
  | 0, _ => .error .json
  | fuel + 1, cs => do
    let (v, cs) ← value dialect depth fuel cs
    match skip cs with
    | ',' :: cs =>
      let (vs, cs) ← items dialect depth fuel cs
      return (v :: vs, cs)
    | ']' :: cs => return ([v], cs)
    | _ => throw .json

def entries (dialect : Dialect) (depth : Nat) : Nat → Entries → Reader Entries
  | 0, _, _ => .error .json
  | fuel + 1, es, cs =>
    match skip cs with
    | '"' :: cs => do
      let (k, cs) ← orJson (text? dialect cs)
      let ':' :: cs := skip cs | throw .json
      let (v, cs) ← value dialect depth fuel cs
      let es := Entries.put (.ofCodes k) v es
      match skip cs with
      | ',' :: cs => entries dialect depth fuel es cs
      | '\x7d' :: cs => return (es, cs)
      | _ => throw .json
    | _ => throw .json
end

/-- Reads a text that is one value between gaps. Every step takes a character, so twice the length
bounds the steps. -/
def read (dialect : Dialect) (s : String) : Except Failure Value := do
  let cs := s.toList
  let (v, rest) ← value dialect 0 (2 * cs.length + 2) cs
  if (skip rest).isEmpty then return v else throw .json

/-- Reads bytes; the wide dialect tells bad bytes from bad JSON. -/
def readBytes (dialect : Dialect) (bytes : ByteArray) : Except Failure Value :=
  match String.fromUTF8? bytes with
  | some s => read dialect s
  | none => .error (if dialect = .narrow then .json else .encoding)

end BlockTree.Json

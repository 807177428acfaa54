import BlockTree.Json.Reader
import BlockTree.Text.Base64
import BlockTree.Text.Characters
import BlockTree.Text.LowerCase
import BlockTree.Yaml.Timestamp

/-! Tags of nodes, the tag that a plain scalar shows by its text, and the value of a scalar under
its tag. -/
namespace BlockTree.Yaml

open Decimal (Binary64 Numeral isDigit)

inductive Tag
  | null | bool | int | float | timestamp | str | binary
  | seq | map | set | omap | pairs
  | merge | value | foreign
deriving DecidableEq, Repr, Inhabited

namespace Tag

abbrev Chars := List Char

def core : String := "tag:yaml.org,2002:"

def named (name : String) : Tag :=
  let known : List (String × Tag) := [("null", null), ("bool", bool), ("int", int),
    ("float", float), ("timestamp", timestamp), ("str", str), ("binary", binary), ("seq", seq),
    ("map", map), ("set", set), ("omap", omap), ("pairs", pairs), ("merge", merge),
    ("value", value)]
  ((known.map fun k => (core ++ k.1, k.2)).lookup name).getD foreign

def isCollection : Tag → Bool
  | seq | map | set | omap | pairs => true
  | _ => false

def dropSign (cs : Chars) : Chars := (Numeral.takeSign cs).2

def isBoolean (s : String) : Bool :=
  ["yes", "Yes", "YES", "no", "No", "NO", "true", "True", "TRUE", "false", "False", "FALSE", "on",
    "On", "ON", "off", "Off", "OFF"].contains s

def isGrouped (c : Char) : Bool := isDigit c || c = '_'

def areSixtieths (parts : List Chars) : Bool :=
  !parts.isEmpty && parts.all fun
    | [a] => isDigit a
    | [a, b] => '0' ≤ a && a ≤ '5' && isDigit b
    | _ => false

def startsNonzero (cs : Chars) : Bool := cs.head?.any fun c => '1' ≤ c && c ≤ '9'

/-- Integers are written to the bases 2, 8, 10, 16 and 60, and digits may be grouped. -/
def isInteger (cs : Chars) : Bool :=
  match dropSign cs with
  | ['0'] => true
  | '0' :: 'b' :: ds => !ds.isEmpty && ds.all fun c => c = '0' || c = '1' || c = '_'
  | '0' :: 'x' :: ds => !ds.isEmpty && ds.all fun c => (Json.hexValue? c).isSome || c = '_'
  | '0' :: ds => ds.all fun c => ('0' ≤ c && c ≤ '7') || c = '_'
  | ds =>
    match ds.splitOn ':' with
    | [w] => startsNonzero w && w.all isGrouped
    | w :: parts => startsNonzero w && w.all isGrouped && areSixtieths parts
    | [] => false

def isExponent : Chars → Bool
  | [] => true
  | e :: s :: ds => (e = 'e' || e = 'E') && (s = '+' || s = '-') && !ds.isEmpty && ds.all isDigit
  | _ => false

def startsDigit (cs : Chars) : Bool := cs.head?.any isDigit

/-- Floats have a point; a part before it may be to the base sixty. -/
def isFloat (cs : Chars) : Bool :=
  match cs with
  | '.' :: ds =>
    if startsDigit ds then isExponent (ds.dropWhile isGrouped)
    else [".inf", ".Inf", ".INF", ".nan", ".NaN", ".NAN"].contains (String.ofList cs)
  | cs =>
    match dropSign cs with
    | '.' :: ds => ["inf", "Inf", "INF"].contains (String.ofList ds)
    | ds =>
      startsDigit ds &&
      match ds.dropWhile (· ≠ '.') with
      | [] => false
      | _ :: fraction =>
        match (ds.takeWhile (· ≠ '.')).splitOn ':' with
        | [w] => w.all isGrouped && isExponent (fraction.dropWhile isGrouped)
        | w :: parts => w.all isGrouped && areSixtieths parts && fraction.all isGrouped
        | [] => false

/-- Without time of day, month and day are written with two digits. -/
def isTimestamp (cs : Chars) : Bool :=
  match Timestamp.ofChars? cs with
  | some t => t.full || t.clock.isSome
  | none => false

/-- One line feed at the end does not count, unless it is all there is. -/
def dropFeed (cs : Chars) : Chars :=
  if 1 < cs.length && cs.getLast? = some '\n' then cs.dropLast else cs

def implicit (text : String) : Tag :=
  let cs := dropFeed text.toList
  let s := String.ofList cs
  if isBoolean s then bool
  else if isFloat cs then float
  else if isInteger cs then int
  else if s = "<<" then merge
  else if ["~", "null", "Null", "NULL", ""].contains s then null
  else if isTimestamp cs then timestamp
  else if s = "=" then value
  else if ["!", "&", "*"].contains s then foreign
  else str

def digit? (c : Char) : Option Nat :=
  if isDigit c then some (c.toNat - 48)
  else if 'a' ≤ c && c ≤ 'z' then some (c.toNat - 87)
  else if 'A' ≤ c && c ≤ 'Z' then some (c.toNat - 55)
  else none

def dropBase (base : Nat) (cs : Chars) : Chars :=
  match cs with
  | '0' :: c :: ds =>
    if [(2, 'b'), (2, 'B'), (8, 'o'), (8, 'O'), (16, 'x'), (16, 'X')].contains (base, c) then ds
    else cs
  | cs => cs

def digitLimit : Nat := 4300

def based (base : Nat) (cs : Chars) : Except Failure Int :=
  let (negative, ds) := Numeral.takeSign (Text.trimEnds Text.isMargin (Text.plainNumeral cs))
  let ds := dropBase base ds
  let digits := ds.takeWhile fun c => (digit? c).any (· < base)
  if base = 10 && digitLimit < digits.length then .error (.longNumeral digits.length)
  else if ds.isEmpty || digits.length < ds.length then
    .error (.badInteger base (String.ofList cs))
  else
    let n : Nat := digits.foldl (fun m c => base * m + (digit? c).getD 0) 0
    .ok (if negative then -n else n)

def sixty (parts : List Int) : Int := parts.foldl (fun n d => 60 * n + d) 0

def integer (text : String) : Except Failure Int := do
  let cs := text.toList.filter (· ≠ '_')
  if cs.isEmpty then throw .emptyNumber
  let (negative, cs) := Numeral.takeSign cs
  let n ← match cs with
    | [] => throw .emptyNumber
    | ['0'] => pure 0
    | '0' :: 'b' :: ds => based 2 ds
    | '0' :: 'x' :: ds => based 16 ds
    | '0' :: _ => based 8 cs
    | cs => ((cs.splitOn ':').mapM (based 10)).map sixty
  return if negative then -n else n

def binary64 (cs : Chars) : Except Failure Binary64 :=
  let (negative, ds) := Numeral.takeSign (Text.trimEnds Text.isMargin (Text.plainNumeral cs))
  let s := String.ofList ds
  if s = "inf" || s = "infinity" then .ok (.inf negative)
  else if s = "nan" then .ok (.nan 0)
  else match Numeral.ofChars? ds with
    | some n => .ok (n.toBinary64 negative)
    | none => .error (.badFloat (String.ofList cs))

/-- Adds parts, the last one first, to a sum to the base sixty; `weight` is that of the next part.
Every step rounds. -/
def sixtyFloat (sum : Binary64) (weight : Nat) : List Binary64 → Except Failure Binary64
  | [] => .ok sum
  | d :: ds =>
    let w := Binary64.ofNat weight
    if w.isInfinite then .error .hugeFloat else sixtyFloat (sum.add (d.scale w)) (60 * weight) ds

/-- A float; not-a-number is one of its own with the payload `id`, except where it is written with a
point. -/
def float64 (id : Nat) (text : String) : Except Failure Binary64 := do
  let cs := (Text.lower (String.ofList (text.toList.filter (· ≠ '_')))).toList
  if cs.isEmpty then throw .emptyNumber
  let (negative, cs) := Numeral.takeSign cs
  if cs = ".nan".toList then return .nan 0
  let x ← if cs = ".inf".toList then pure (Binary64.inf false)
    else if cs.contains ':' then do
      sixtyFloat (Binary64.zero false) 1 (← (cs.splitOn ':').mapM binary64).reverse
    else binary64 cs
  match x with
  | .nan _ => return .nan id
  | x => return if negative then x.neg else x

def boolean (text : String) : Except Failure Bool :=
  let s := Text.lower text
  if ["yes", "true", "on"].contains s then .ok true
  else if ["no", "false", "off"].contains s then .ok false
  else .error (.noKey (.str s))

def bytes (text : String) : Except Failure (List UInt8) :=
  let cs := text.toList
  match if cs.all (·.toNat < 0x80) then Text.Base64.decode? cs else none with
  | some bs => .ok bs
  | none => .error .yaml

/-- The value of a scalar; `id` tells it apart. Merge and value marks are none. -/
def scalar (id : Nat) (text : String) : Tag → Except Failure Value
  | .null => .ok .null
  | .bool => (boolean text).map .bool
  | .int => (integer text).map .int
  | .float => (float64 id text).map .float
  | .timestamp => match Timestamp.ofChars? (dropFeed text.toList) with
    | some t => t.value
    | none => .error .notTimestamp
  | .str => .ok (.str text)
  | .binary => (bytes text).map .bytes
  | .seq | .map | .set | .omap | .pairs | .merge | .value | .foreign => .error .yaml

end Tag

end BlockTree.Yaml

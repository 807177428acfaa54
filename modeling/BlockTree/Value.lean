import BlockTree.Calendar
import BlockTree.ContentModel
import BlockTree.Decimal.Layout
import BlockTree.Text.Quoted

/-! Values of definitions: scalars, lists, and mappings in order. Equality of keys, truth, and the
two texts of a value are defined here. -/
namespace BlockTree

open Decimal (Binary64)

inductive Value
  | null
  | bool (b : Bool)
  | int (n : Int)
  | float (x : Binary64)
  | str (s : String)
  /-- A text that is no sequence of characters. -/
  | ragged (t : Text.Ragged)
  | bytes (bs : List UInt8)
  | list (items : List Value)
  | map (entries : List (Value × Value))
  | pair (first second : Value)
  | set (items : List Value)
  | date (d : Date)
  | datetime (t : DateTime)
  | model (m : ContentModel)
  /-- A list or a mapping, at a place inside itself. -/
  | again (isMap : Bool)
deriving Repr, Inhabited

/-- Entries of a mapping, in order and with distinct keys. -/
abbrev Entries := List (Value × Value)

namespace Value

def ofCodes (cs : List Text.Code) : Value :=
  if h : cs.any Text.Code.isHalf = true then .ragged ⟨cs, h⟩
  else .str (String.ofList (cs.filterMap Text.Code.char?))

def kind : Value → String
  | .null => "NoneType"
  | .bool _ => "bool"
  | .int _ => "int"
  | .float _ => "float"
  | .str _ | .ragged _ => "str"
  | .bytes _ => "bytes"
  | .list _ => "list"
  | .map _ => "dict"
  | .pair .. => "tuple"
  | .set _ => "set"
  | .date _ => "datetime.date"
  | .datetime _ => "datetime.datetime"
  | .model _ => "ContentModel"
  | .again isMap => if isMap then "dict" else "list"

def truthy : Value → Bool
  | .null => false
  | .bool b => b
  | .int n => n ≠ 0
  | .float x => !x.isZero
  | .str s => s ≠ ""
  | .bytes bs => !bs.isEmpty
  | .list items | .set items => !items.isEmpty
  | .map entries => !entries.isEmpty
  | .ragged _ | .pair .. | .date _ | .datetime _ | .model _ | .again _ => true

/-- The kind of the first part that keeps a value from being a key. -/
def keyFault? : Value → Option String
  | .pair a b => a.keyFault?.or b.keyFault?
  | .list _ => some "list"
  | .map _ => some "dict"
  | .set _ => some "set"
  | .again isMap => some (if isMap then "dict" else "list")
  | _ => none

def hashable (v : Value) : Bool := v.keyFault?.isNone

def integer? : Value → Option Int
  | .bool b => some (if b then 1 else 0)
  | .int n => some n
  | _ => none

/-- Equality of scalars; numbers of all kinds compare by value. -/
def eqvScalar (a b : Value) : Bool :=
  match a, b with
  | .null, .null => true
  | .str s, .str t => s == t
  | .ragged s, .ragged t => s == t
  | .bytes s, .bytes t => s == t
  | .date d, .date e => d == e
  | .datetime s, .datetime t => s.eqv t
  | .model m, .model n => m == n
  | .float x, .float y => x.eqv y
  | .float x, b => b.integer?.isSome && x.toInt? == b.integer?
  | a, .float y => a.integer?.isSome && y.toInt? == a.integer?
  | a, b => a.integer?.isSome && a.integer? == b.integer?

/-- Whether two values are one and the same although they may equal nothing. -/
def identical : Value → Value → Bool
  | .float x, .float y => x.identical y
  | _, _ => false

mutual
def eqv : Value → Value → Bool
  | .list xs, .list ys => eqvItems xs ys
  | .map es, .map fs => es.length == fs.length && eqvEntries es fs
  | .pair a b, .pair c d => (a.identical c || a.eqv c) && (b.identical d || b.eqv d)
  | .set xs, .set ys => xs.length == ys.length && eqvMembers xs ys
  | a, b => eqvScalar a b

def eqvItems : List Value → List Value → Bool
  | [], [] => true
  | x :: xs, y :: ys => (x.identical y || x.eqv y) && eqvItems xs ys
  | _, _ => false

def eqvMembers : List Value → List Value → Bool
  | [], _ => true
  | x :: xs, ys => ys.any (fun y => x.identical y || x.eqv y) && eqvMembers xs ys

def eqvEntries : List (Value × Value) → List (Value × Value) → Bool
  | [], _ => true
  | (k, v) :: es, fs =>
    fs.any (fun f => (k.identical f.1 || k.eqv f.1) && (v.identical f.2 || v.eqv f.2)) &&
      eqvEntries es fs
end

/-- Whether two keys, or two parts of collections, count as the same. -/
def same (a b : Value) : Bool := a.identical b || a.eqv b

mutual
def literal : Value → String
  | .null => "None"
  | .bool b => if b then "True" else "False"
  | .int n => Decimal.intText n
  | .float x => Decimal.Layout.standard.text x
  | .str s => Text.quote s
  | .ragged t => t.quote
  | .bytes bs => Text.quoteBytes bs
  | .pair a b => "(" ++ a.literal ++ ", " ++ b.literal ++ ")"
  | .set [] => "set()"
  | .set items => "\x7b" ++ literalItems items ++ "\x7d"
  | .again isMap => if isMap then "\x7b...\x7d" else "[...]"
  | .list items => "[" ++ literalItems items ++ "]"
  | .map entries => "\x7b" ++ literalEntries entries ++ "\x7d"
  | .date d => d.literal
  | .datetime t => t.literal
  | .model m => "<ContentModel." ++ m.symbol ++ ": " ++ Text.quote m.name ++ ">"

def literalItems : List Value → String
  | [] => ""
  | [v] => v.literal
  | v :: w :: vs => v.literal ++ ", " ++ literalItems (w :: vs)

def literalEntries : List (Value × Value) → String
  | [] => ""
  | [(k, v)] => k.literal ++ ": " ++ v.literal
  | (k, v) :: e :: es => k.literal ++ ": " ++ v.literal ++ ", " ++ literalEntries (e :: es)
end

def largest : Nat := Nat.pow 10 4300

mutual
/-- Whether the texts of a value exist: no integer in it is too long. -/
def writable : Value → Bool
  | .int n => n.natAbs < largest
  | .list items | .set items => writableItems items
  | .map entries => writableEntries entries
  | .pair a b => a.writable && b.writable
  | _ => true

def writableItems : List Value → Bool
  | [] => true
  | v :: vs => v.writable && writableItems vs

def writableEntries : List (Value × Value) → Bool
  | [] => true
  | (k, v) :: es => k.writable && v.writable && writableEntries es
end

mutual
/-- Whether nothing in a value is cut off. -/
def isWhole : Value → Bool
  | .again _ => false
  | .list items | .set items => areWhole items
  | .map entries => entriesWhole entries
  | .pair a b => a.isWhole && b.isWhole
  | _ => true

def areWhole : List Value → Bool
  | [] => true
  | v :: vs => v.isWhole && areWhole vs

def entriesWhole : List (Value × Value) → Bool
  | [] => true
  | (k, v) :: es => k.isWhole && v.isWhole && entriesWhole es
end

def text : Value → String
  | .str s => s
  | .ragged t => t.text
  | .date d => d.text
  | .datetime t => t.text " "
  | .model m => "ContentModel." ++ m.symbol
  | v => v.literal

/-- The text that a value is, as a document holds it: a half alone is taken for its escape. -/
def text? : Value → Option String
  | .str s => some s
  | .ragged t => some t.text
  | _ => none

end Value

namespace Entries

/-- Sets a key: an equal key keeps its place and its first form. -/
def put (k v : Value) : Entries → Entries
  | [] => [(k, v)]
  | (k', v') :: es => if k'.same k then (k', v) :: es else (k', v') :: put k v es

def ofPairs (ps : List (Value × Value)) : Entries := ps.foldl (fun es p => put p.1 p.2 es) []

def find? (k : Value) : Entries → Option Value
  | [] => none
  | (k', v) :: es => if k'.same k then some v else find? k es

def get (es : Entries) (name : String) : Value := (find? (.str name) es).getD .null

end Entries

end BlockTree

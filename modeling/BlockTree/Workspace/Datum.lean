import BlockTree.Definition

/-! What the fields of a workspace hold. A list may be shared: it is then named by its place in the
table of lists, and all its holders see it change. -/
namespace BlockTree

abbrev ListId := Nat

abbrev MapId := Nat

/-- A value, a shared list, or a list or mapping of its own with such items. -/
inductive Datum
  | value (v : Value)
  | shared (l : ListId)
  | items (ds : List Datum)
  | fields (es : List (Value × Datum))
deriving Repr, Inhabited

abbrev DataEntries := List (Value × Datum)

namespace DataEntries

def put (k : Value) (d : Datum) : DataEntries → DataEntries
  | [] => [(k, d)]
  | (k', d') :: es => if k'.same k then (k', d) :: es else (k', d') :: put k d es

def find? (k : Value) : DataEntries → Option Datum
  | [] => none
  | (k', d) :: es => if k'.same k then some d else find? k es

def ofPairs (ps : List (Value × Datum)) : DataEntries := ps.foldl (fun es p => put p.1 p.2 es) []

end DataEntries

abbrev Lists := List (List Datum)

namespace Datum

def null : Datum := .value .null

def text (s : String) : Datum := .value (.str s)

def text? : Datum → Option String
  | .value v => v.text?
  | _ => none

def kind : Datum → String
  | .value v => v.kind
  | .shared _ | .items _ => "list"
  | .fields _ => "dict"

def list? : Datum → Option ListId
  | .shared l => some l
  | _ => none

def isNull : Datum → Bool
  | .value .null => true
  | _ => false

/-- The value of a datum inside the lists of `above`, with every shared list replaced by what it
holds. A list inside itself is cut off there; `depth` bounds lists within lists. -/
def resolve (ls : Lists) : Nat → List ListId → Datum → Value
  | _, _, .value v => v
  | 0, _, _ => .again false
  | depth + 1, above, .shared l =>
    if above.contains l then .again false
    else .list ((ls.getD l []).map (resolve ls depth (l :: above)))
  | depth + 1, above, .items ds => .list (ds.map (resolve ls depth above))
  | depth + 1, above, .fields es => .map (es.map fun e => (e.1, resolve ls depth above e.2))

def each (ls : Lists) : Datum → Except Failure (List Datum)
  | .value v => return (← v.items).map .value
  | .shared l => .ok (ls.getD l [])
  | .items ds => .ok ds
  | .fields es => .ok (es.map fun e => .value e.1)

def truthy (ls : Lists) : Datum → Bool
  | .value v => v.truthy
  | .shared l => !(ls.getD l []).isEmpty
  | .items ds => !ds.isEmpty
  | .fields es => !es.isEmpty

def joined (index : Nat) : List Datum → Except Failure (List String)
  | [] => .ok []
  | d :: ds => match d.text? with
    | some s => return s :: (← joined (index + 1) ds)
    | none => .error (.joinItem index d.kind)

def join (ls : Lists) (d : Datum) : Except Failure String :=
  match d.each ls with
  | .ok ds => return Text.joinLines (← joined 0 ds)
  | .error _ => .error .notJoinable

def blank (d : Datum) : Except Failure Bool :=
  match d.text? with
  | some s => .ok (Text.isBlank s)
  | none => .error (.noMember d.kind "strip")

def dropBlank : List Datum → Except Failure (List Datum)
  | [] => .ok []
  | d :: ds => do if ← d.blank then dropBlank ds else return d :: ds

def byPlace (es : DataEntries) (i : Nat) : Except Failure Datum :=
  match es.find? (.int i) with
  | some d => .ok d
  | none => .error (.noKey (.int i))

def passBlank (es : DataEntries) : List Nat → Except Failure Unit
  | [] => .ok ()
  | i :: is => do if ← (← byPlace es i).blank then passBlank es is

/-- What a mapping gives in place of lines. It has a length and perhaps numbers for keys, but no
part of it can be cut out. -/
def mapContent (es : DataEntries) : Except Failure Datum :=
  match es with
  | [] => .ok null
  | [e] => byPlace [e] 0
  | es => do
    let places := List.range es.length
    passBlank es places
    passBlank es places.reverse
    throw (.unhashable "slice")

/-- The trimmed and joined content of a sequence. A single item is left alone, and none is no
content. -/
def lineContent (ls : Lists) (d : Datum) : Except Failure Datum :=
  match d with
  | .value (.map es) => mapContent (es.map fun e => (e.1, .value e.2))
  | .value v => match v.items with
    | .ok vs => trimmed (vs.map .value)
    | .error _ => .error (.noLength v.kind)
  | .shared l => trimmed (ls.getD l [])
  | .items ds => trimmed ds
  | .fields es => mapContent es
where
  trimmed : List Datum → Except Failure Datum
    | [] => .ok null
    | [d] => .ok d
    | ds => do
      let ds ← dropBlank ds
      let ds ← dropBlank ds.reverse
      return text (Text.joinLines (← joined 0 ds.reverse))

def pair (ls : Lists) (index : Nat) (d : Datum) : Except Failure (Value × Datum) :=
  match d with
  | .value v => return (fun p => (p.1, .value p.2)) (← v.asPair index)
  | d => do
    match ← d.each ls with
    | [.value k, v] => if k.hashable then return (k, v) else throw (.unhashable k.kind)
    | [k, _] => throw (.unhashable k.kind)
    | ds => throw (.pairLength index ds.length)

def pairs (ls : Lists) (index : Nat) : List Datum → Except Failure (List (Value × Datum))
  | [] => .ok []
  | d :: ds => do
    let p ← pair ls index d
    return p :: (← pairs ls (index + 1) ds)

end Datum

namespace DataEntries

def ofDatum (ls : Lists) (d : Datum) : Except Failure DataEntries :=
  if d.truthy ls then
    match d with
    | .value (.map es) => .ok (es.map fun e => (e.1, .value e.2))
    | .fields es => .ok es
    | d => return ofPairs (← Datum.pairs ls 0 (← d.each ls))
  else .ok []

def resolve (ls : Lists) (depth : Nat) (es : DataEntries) : Value :=
  .map (es.map fun e => (e.1, e.2.resolve ls depth []))

end DataEntries

end BlockTree

import BlockTree.Run
import BlockTree.Text.Lines
import BlockTree.Tree

/-! Reading a definition: nested mappings become a document, and the first fault in reading order is
reported with its place. -/
namespace BlockTree

def Value.form (v : Value) : Except Failure String :=
  if v.writable then .ok v.text else .error .longInteger

/-- The model that a value names; null stands for the simple one. -/
def ContentModel.ofValue : Value → Except Failure ContentModel
  | .null => .ok .simple
  | .model m => .ok m
  | v => do
    match named? (nameForm (← v.form)) with
    | some m => return m
    | none => throw (.unknownModel (nameForm v.text))

namespace Value

def strings? : List Value → Option (List String)
  | [] => some []
  | v :: vs => return (← v.text?) :: (← strings? vs)

def formIfAny : Value → Except Failure (Option String)
  | .null => .ok none
  | v => v.form.map some

/-- The items that a value yields one by one: of a text its characters, of bytes their codes, of a
mapping its keys. -/
def items : Value → Except Failure (List Value)
  | .list vs | .set vs => .ok vs
  | .pair a b => .ok [a, b]
  | .map es => .ok (es.map (·.1))
  | .str s => .ok (s.toList.map fun c => .str (String.singleton c))
  | .ragged t => .ok (t.codes.map fun c => .ofCodes [c])
  | .bytes bs => .ok (bs.map fun b => .int b.toNat)
  | .again _ => .error .endless
  | v => .error (.notIterable v.kind)

def asPair (index : Nat) (v : Value) : Except Failure (Value × Value) :=
  match v.items with
  | .ok [k, w] => match k.keyFault? with
    | none => .ok (k, w)
    | some kind => .error (.unhashable kind)
  | .ok vs => .error (.pairLength index vs.length)
  | .error .endless => .error .endless
  | .error _ => .error (.notPair index)

def pairs (index : Nat) : List Value → Except Failure (List (Value × Value))
  | [] => .ok []
  | v :: vs => do
    let p ← asPair index v
    return p :: (← pairs (index + 1) vs)

/-- Attributes from a mapping or from pairs; a false value gives none. -/
def attributes (v : Value) : Except Failure Entries :=
  if v.truthy then
    match v with
    | .map es => .ok es
    | v => return Entries.ofPairs (← pairs 0 (← v.items))
  else .ok []

end Value

namespace Definition

def subs? : Value → Option (List String)
  | .null => some []
  | .list vs => Value.strings? vs
  | v => v.text?.map fun s => if s = "" then [] else [s]

/-- Source lines: a text is cut into lines, a list is taken as it stands. -/
def lines? : Value → Option (List String)
  | .null => some []
  | .list vs => Value.strings? vs
  | v => v.text?.map Text.linesOf

def attributes? : Value → Option Entries
  | .null => some []
  | .map es => some es
  | _ => none

def fields (path : List Nat) (es : Entries) : Except Failure Fields := do
  let refuse {α : Type} (fault : DefinitionFault) : Except Failure α :=
    .error (.definition path fault)
  unless (es.get "context").truthy do refuse .noContext
  let model ← match ContentModel.ofValue (es.get "content_model") with
    | .ok m => pure m
    | .error (.unknownModel _) => refuse (.unknownModel (es.get "content_model"))
    | .error f => throw f
  let some attributes := attributes? (es.get "attributes") | refuse .attributes
  let some subs := subs? (es.get "subs") | refuse .subs
  let some lines := lines? (es.get "source") | refuse .source
  return {
    context := ← (es.get "context").form
    model, attributes, subs, lines
    style := ← (es.get "style").formIfAny
    id := ← (es.get "id").formIfAny
    title := ← (es.get "title").formIfAny }

def nested : Value → Except Failure Nat
  | .str s => .ok s.length
  | v => match v.items with
    | .ok vs => .ok vs.length
    | .error .endless => .error .endless
    | .error _ => .error (.noLength v.kind)

def noteUnrendered {σ : Type} (path : List Nat) (es : Entries) (f : Fields) : Run σ Unit := do
  let children := es.get "blocks"
  if children.truthy && f.model ≠ .compound then
    let n ← Run.ofExcept (nested children)
    .note (.unrendered path f.model (es.get "context") n)

/-- A value that is nested but no mapping: a fault at the first of its items, if it has items. -/
def refuse {σ : Type} (path : List Nat) (v : Value) : Run σ (List Block) := do
  match ← Run.ofExcept v.items with
  | [] => return []
  | _ :: _ => throw (.definition (path ++ [0]) .notMapping)

mutual
def block {σ : Type} (path : List Nat) : Value → Run σ Block
  | .map es => do
    let f ← Run.ofExcept (fields path es)
    noteUnrendered path es f
    return .node f (← nestedIn path es)
  | .again _ => throw .endless
  | _ => throw (.definition path .notMapping)

def nestedIn {σ : Type} (path : List Nat) : List (Value × Value) → Run σ (List Block)
  | [] => pure []
  | (k, v) :: es => if k.same (.str "blocks") then children path v else nestedIn path es

/-- The blocks of a list; a false value holds none, and other values hold no definitions. -/
def children {σ : Type} (path : List Nat) : Value → Run σ (List Block)
  | .list vs => blocks path 0 vs
  | v => if v.truthy then refuse path v else pure []

def blocks {σ : Type} (path : List Nat) (index : Nat) : List Value → Run σ (List Block)
  | [] => pure []
  | v :: vs => do
    let b ← block (path ++ [index]) v
    let bs ← blocks path (index + 1) vs
    return b :: bs
end

def document {σ : Type} : Value → Run σ Document
  | .map es => do
    let attributes ← Run.ofExcept (Entries.get es "attributes").attributes
    let bs ← nestedIn [] es
    .note (.built bs.length)
    return ⟨attributes, bs⟩
  | v => throw (.noMember v.kind "get")

end Definition

end BlockTree

import BlockTree.Workspace.Options

/-! Editing a workspace. Every edit gives a new workspace or a failure, so a failing edit changes
nothing. -/
namespace BlockTree

inductive NodeField
  | style | id | title | context | model
deriving DecidableEq, Repr

def NodeField.named? : String → Option NodeField
  | "style" => some .style
  | "id" => some .id
  | "title" => some .title
  | "context" => some .context
  | "content_model" => some .model
  | _ => none

/-- Where an item goes that is inserted at `i`: a negative place counts from the end, and places
outside are those of the nearest end. -/
def insertPlace (i : Int) (length : Nat) : Nat :=
  if i < 0 then (i + length).toNat else min i.toNat length

namespace Workspace

variable (w : Workspace)

def newList (name : String) (d : Datum) : Except Failure Workspace := do
  let (l, w) := w.addList (← d.each w.lists)
  return w.bindName name (.list l)

def appendItem (l : ListId) (d : Datum) : Workspace := w.setList l (w.listAt l ++ [d])

def insertItem (l : ListId) (i : Int) (d : Datum) : Except Failure Workspace :=
  let ds := w.listAt l
  if -Int.pow 2 63 ≤ i && i < Int.pow 2 63 then
    .ok (w.setList l (ds.insertIdx (insertPlace i ds.length) d))
  else .error .farPlace

def popItem (l : ListId) : Except Failure (Datum × Workspace) :=
  match (w.listAt l).getLast? with
  | some d => .ok (d, w.setList l (w.listAt l).dropLast)
  | none => .error .emptyPop

/-- The place of a list that can be changed. A mapping can be popped as well, but only by a key. -/
def listOf (member : String) : Datum → Except Failure ListId
  | .shared l => .ok l
  | d =>
    if d.kind = "dict" && member = "pop" then .error .popArguments
    else .error (.noMember d.kind member)

def setLines (n : NodeId) (d : Datum) : Except Failure Workspace := do
  let b ← w.node n
  let (model, _, subs) ← w.ownOf n "lines"
  let (d, w) := w.place d
  return w.setNode n { b with body := .block model d subs }

def setSubs (n : NodeId) (d : Datum) : Except Failure Workspace := do
  let b ← w.node n
  let (model, lines, _) ← w.ownOf n "subs"
  let (d, w) := w.place d
  return w.setNode n { b with body := .block model lines d }

def setAttribute (n : NodeId) (key : Value) (d : Datum) : Except Failure Workspace := do
  let b ← w.node n
  if key.hashable then return w.setMap b.attributes ((w.entriesAt b.attributes).put key d)
  else throw (.unhashable key.kind)

def setField (n : NodeId) (f : NodeField) (d : Datum) : Except Failure Workspace := do
  let b ← w.node n
  match f with
  | .style => return w.setNode n { b with style := d }
  | .id => return w.setNode n { b with id := d }
  | .title => return w.setNode n { b with title := d }
  | .context => return w.setNode n { b with context := d }
  | .model => throw (.fixedModel b.body.kind)

def append (parent child : NodeId) : Except Failure Workspace := do
  let p ← w.node parent
  let c ← w.node child
  let w := w.setNode child { c with parent := some parent, document := p.document }
  let p ← w.node parent
  return w.setNode parent { p with children := p.children ++ [child] }

def addOptions (name : String) (o : Options) : Workspace :=
  { w with options := w.options ++ [o] }.bindName name (.options w.options.length)

def setOptions (i : Nat) (o : Options) : Workspace := { w with options := w.options.set i o }

def addSubstitutor (s : Substitutor Tally) : Nat × Workspace :=
  (w.substitutors.length, { w with substitutors := w.substitutors ++ [s] })

def setSubstitutor (i : Nat) (s : Substitutor Tally) : Workspace :=
  { w with substitutors := w.substitutors.set i s }

def addPlain (label : String) (context : Datum) (parent : Option NodeId) : Workspace :=
  let (m, w) := w.addMap []
  w.addNode (.fresh w label parent context m .plain)

def addDocument (label : String) (attributes : Datum) (pipe : Pipe) (converter : Converter) :
    Except Failure Workspace := do
  let es ← DataEntries.ofDatum w.lists attributes
  let (m, w) := w.addMap es
  let b := Node.fresh w label none (.text "document") m (.document pipe converter)
  return w.addNode { b with document := some w.nodes.length }

end Workspace

end BlockTree

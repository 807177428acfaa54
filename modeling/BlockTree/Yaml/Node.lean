import BlockTree.Yaml.Tag

/-! Nodes in a table: scalars, sequences and mappings under their tags. Parts of a node are named by
their addresses, so that a node may stand at several places, also inside itself. -/
namespace BlockTree.Yaml

abbrev Address := Nat

inductive Content
  | scalar (text : String)
  | ragged (text : Text.Ragged)
  | sequence (items : List Address)
  | mapping (entries : List (Address × Address))
deriving Repr, Inhabited

structure Node where
  tag : Tag
  content : Content
deriving Repr, Inhabited

abbrev Nodes := Array Node

namespace Nodes

variable (ns : Nodes)

def node (a : Address) : Node := ns.getD a default

def tag (a : Address) : Tag := (ns.node a).tag

abbrev Entries := List (Address × Address)

def entries (a : Address) : Entries :=
  match (ns.node a).content with
  | .mapping es => es
  | _ => []

def isMapping (a : Address) : Bool :=
  match (ns.node a).content with
  | .mapping _ => true
  | _ => false

def setContent (a : Address) (c : Content) : Nodes :=
  ns.setIfInBounds a { ns.node a with content := c }

/-- The text of a node that passes for a scalar: a mapping stands for what it holds under a value
mark. -/
def text : Nat → Address → Except Failure String
  | 0, _ => .error .endless
  | fuel + 1, a =>
    match (ns.node a).content with
    | .scalar t => .ok t
    | .ragged t => .ok t.text
    | .sequence _ => .error .yaml
    | .mapping es => match es.find? fun e => ns.tag e.1 = .value with
      | some e => text fuel e.2
      | none => .error .yaml

def mergeCount : Nat :=
  ns.foldl (fun n x => match x.content with
    | .mapping es => n + es.countP fun e => ns.tag e.1 = .merge
    | _ => n) 0

def takeMerge (a : Address) : Option (Address × Nodes) :=
  let es := ns.entries a
  let isOwn (e : Address × Address) : Bool := ns.tag e.1 ≠ .merge
  match es.dropWhile isOwn with
  | [] => none
  | (_, v) :: later => some (v, ns.setContent a (.mapping (es.takeWhile isOwn ++ later)))

def sources (v : Address) : Except Failure (List Address) :=
  let named := match (ns.node v).content with
    | .sequence items => items
    | _ => [v]
  if named.all ns.isMapping then .ok named else .error .yaml

/-- A value mark as a key of a mapping is a text from then on. -/
def settleKeys (a : Address) : Nodes :=
  (ns.entries a).foldl (fun ns e =>
    if ns.tag e.1 = .value then ns.setIfInBounds e.1 { ns.node e.1 with tag := .str } else ns) ns

def putFirst (a : Address) (es : Entries) : Nodes :=
  if es.isEmpty then ns else ns.setContent a (.mapping (es ++ ns.entries a))

/-- Takes all merge entries off a mapping and gives what they contribute. A mapping that is named is
spread first; of several named together the last one comes first. Every step takes a merge entry
off, so their number bounds the steps. -/
def takeMerges : Nat → Address → StateT Nodes (Except Failure) Entries
  | 0, _ => return []
  | fuel + 1, a => do
    match (← get).takeMerge a with
    | none =>
      modify (settleKeys · a)
      return []
    | some (v, ns) =>
      set ns
      let here ← (← ns.sources v).mapM fun m => do
        let es ← takeMerges fuel m
        modify (putFirst · m es)
        return (← get).entries m
      return here.reverse.flatten ++ (← takeMerges fuel a)

def spread (fuel : Nat) (a : Address) : StateT Nodes (Except Failure) Unit := do
  let es ← takeMerges fuel a
  modify (putFirst · a es)

end Nodes

end BlockTree.Yaml

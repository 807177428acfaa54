import BlockTree.Substitutor.Plugin
import BlockTree.Substitutor.Stock
import BlockTree.Workspace.Datum

/-! Workspaces: shared lists, option records, substitutors and nodes that are created, linked and
changed one step at a time. Everything is referred to by its place in a table. -/
namespace BlockTree

abbrev NodeId := Nat

/-- Options from which blocks are made. Their attributes and their substitutions are objects that
can be changed where they are. -/
structure Options where
  model : ContentModel
  attributes : MapId
  subs : ListId
  source : Datum

/-- A stand-in pipeline: gives its source back, one fixed datum, or a failure. -/
inductive Recorder
  | echo
  | fixed (d : Datum)
  | fail (kind : Raised) (text : String)

/-- The pipeline of a document: a substitutor, or a stand-in that records its calls under its own
number. -/
inductive Pipe
  | substitutor (id : Nat)
  | recorder (id : Nat) (r : Recorder)

inductive Converter
  | content | tag | mute
deriving DecidableEq, Repr

inductive Body
  | plain
  | block (model : ContentModel) (lines subs : Datum)
  | document (pipe : Pipe) (converter : Converter)

structure Node where
  label : String
  parent : Option NodeId
  document : Option NodeId
  context : Datum
  children : List NodeId
  attributes : MapId
  style : Datum
  id : Datum
  title : Datum
  body : Body

def Body.kind : Body → NodeKind
  | .plain => .plain
  | .block .. => .block
  | .document .. => .document

def Body.model : Body → ContentModel
  | .block m _ _ => m
  | _ => .compound

/-- What a name stands for. Things of different kinds may have the same name. -/
inductive Ref
  | list (id : ListId)
  | options (id : Nat)
  | substitutor (id : Nat)
  | node (id : NodeId)
deriving DecidableEq, Repr

namespace Ref

def list? : Ref → Option ListId
  | .list l => some l
  | _ => none

def options? : Ref → Option Nat
  | .options o => some o
  | _ => none

def substitutor? : Ref → Option Nat
  | .substitutor s => some s
  | _ => none

def node? : Ref → Option NodeId
  | .node n => some n
  | _ => none

end Ref

structure Workspace where
  lists : Lists
  maps : List DataEntries
  options : List Options
  substitutors : List (Substitutor Tally)
  nodes : List Node
  recorders : Nat
  names : List (String × Ref)

namespace Workspace

def empty : Workspace := ⟨[], [], [], [], [], 0, []⟩

variable (w : Workspace)

/-- What a name stands for among things of one kind, which `pick` tells; a name without meaning is a
missing key. -/
def named {α : Type} (pick : Ref → Option α) (name : String) : Except Failure α :=
  match w.names.findSome? fun n => if n.1 = name then pick n.2 else none with
  | some a => .ok a
  | none => .error (.noKey (.str name))

def listId : String → Except Failure ListId := w.named Ref.list?

def nodeId : String → Except Failure NodeId := w.named Ref.node?

def optionsId : String → Except Failure Nat := w.named Ref.options?

def node (n : NodeId) : Except Failure Node :=
  match w.nodes[n]? with
  | some b => .ok b
  | none => .error (.noKey (.int n))

def ownOf (n : NodeId) (member : String) : Except Failure (ContentModel × Datum × Datum) := do
  match (← w.node n).body with
  | .block model lines subs => return (model, lines, subs)
  | b => throw (.noMember b.kind.name member)

def linesOf (n : NodeId) : Except Failure Datum := return (← w.ownOf n "lines").2.1

def subsOf (n : NodeId) : Except Failure Datum := return (← w.ownOf n "subs").2.2

def optionsAt (o : Nat) : Except Failure Options :=
  match w.options[o]? with
  | some p => .ok p
  | none => .error (.noKey (.int o))

def substitutorAt (s : Nat) : Substitutor Tally := w.substitutors.getD s .empty

/-- The substitutor of that name, or of the document of that name. -/
def substitutorId (name : String) : Except Failure Nat :=
  match w.named Ref.substitutor? name with
  | .ok s => .ok s
  | .error _ => do
    match (← w.node (← w.nodeId name)).body with
    | .document (.substitutor s) _ => return s
    | _ => throw (.noKey (.str name))

def label (n : NodeId) : Value :=
  match w.nodes[n]? with
  | some b => .str b.label
  | none => .null

/-- Lists nest no deeper than there are lists, inline ones apart. -/
def depth : Nat := w.lists.length + 1024

def resolve (d : Datum) : Value := d.resolve w.lists w.depth []

def attributesOf (m : MapId) : Value := (w.maps.getD m []).resolve w.lists w.depth

def bindName (name : String) (r : Ref) : Workspace := { w with names := (name, r) :: w.names }

def setNode (n : NodeId) (b : Node) : Workspace := { w with nodes := w.nodes.set n b }

def listAt (l : ListId) : List Datum := w.lists.getD l []

def entriesAt (m : MapId) : DataEntries := w.maps.getD m []

def addList (ds : List Datum) : ListId × Workspace :=
  (w.lists.length, { w with lists := w.lists ++ [ds] })

def addMap (es : DataEntries) : MapId × Workspace :=
  (w.maps.length, { w with maps := w.maps ++ [es] })

def setList (l : ListId) (ds : List Datum) : Workspace := { w with lists := w.lists.set l ds }

def setMap (m : MapId) (es : DataEntries) : Workspace := { w with maps := w.maps.set m es }

/-- A datum as an object of its own: a list gets a new place, so that it can be changed. -/
def place (d : Datum) : Datum × Workspace :=
  match d with
  | .value (.list vs) => let (l, w) := w.addList (vs.map .value); (.shared l, w)
  | .items ds => let (l, w) := w.addList ds; (.shared l, w)
  | d => (d, w)

def addNode (b : Node) : Workspace :=
  { w with nodes := w.nodes ++ [b] }.bindName b.label (.node w.nodes.length)

end Workspace

def Node.fresh (w : Workspace) (label : String) (parent : Option NodeId) (context : Datum)
    (attributes : MapId) (body : Body) : Node where
  label := label
  parent := parent
  document := parent.bind fun p => w.nodes[p]?.bind (·.document)
  context := context
  children := []
  attributes := attributes
  style := .null
  id := .null
  title := .null
  body := body

end BlockTree

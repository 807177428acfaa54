import BlockTree.Workspace.Edit

/-! Trees that grow in a workspace from the top down. Every block is made with its parent, and is
appended to it then or later. Blocks go by their numbers, in the order in which they are made. -/
namespace BlockTree

inductive Source
  | text (s : String)
  | lines (ls : List String)

def Source.datum : Source → Datum
  | .text s => .text s
  | .lines ls => .items (ls.map .text)

structure Seed where
  context : String
  model : ContentModel
  attributes : DataEntries
  subs : List String
  source : Source

namespace Seed

def lines (s : Seed) : List String :=
  match s.source with
  | .text t => Text.linesOf t
  | .lines ls => ls

def given (s : Seed) : List (String × Datum) := [
  ("content_model", .value (.model s.model)), ("attributes", .fields s.attributes),
  ("subs", .items (s.subs.map .text)), ("source", s.source.datum)]

end Seed

inductive Growth
  /-- Makes the next block. Its parent is a block made before, or what the blocks grow from. -/
  | make (parent : Option Nat) (seed : Seed)
  /-- Appends a block to its parent, if it has one. -/
  | append (number : Nat)

namespace Workspace

def parentNode (base : Option NodeId) (first : NodeId) : Option Nat → Option NodeId
  | some number => some (first + number)
  | none => base

def growStep (base : Option NodeId) (first : NodeId) (w : Workspace) :
    Growth → Except Failure Workspace
  | .make parent s => do
    let (o, w) ← Options.ofFields w s.given
    w.addBlock "" (.text s.context) (parentNode base first parent) o
  | .append number => do
    match (← w.node (first + number)).parent with
    | some p => w.append p (first + number)
    | none => return w

def grow (base : Option NodeId) (w : Workspace) (gs : List Growth) : Except Failure Workspace :=
  gs.foldlM (growStep base w.nodes.length) w

end Workspace

end BlockTree

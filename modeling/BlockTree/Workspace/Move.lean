import BlockTree.Workspace.Step

/-! Moves: the steps of a session, and what no step does, changes in place of a list under its name
and of what options hold, and the assignment of a mapping that something else may hold. -/
namespace BlockTree

inductive Move
  | step (x : Step)
  | alterList (name : String) (f : List Datum → List Datum)
  | alterSubs (options : String) (f : List Datum → List Datum)
  | alterAttributes (options : String) (f : DataEntries → DataEntries)
  | alterSource (options : String) (f : List Datum → List Datum)
  | passAttributes (options : String) (m : MapId)

inductive Holder
  | node (n : NodeId)
  | options (i : Nat)
deriving DecidableEq

namespace Workspace

variable (w : Workspace)

def alterList (name : String) (f : List Datum → List Datum) : Workspace :=
  match w.listId name with
  | .ok l => w.setList l (f (w.listAt l))
  | .error _ => w

def alterHeld (name : String) (f : Options → Workspace) : Workspace :=
  match w.optionsId name >>= w.optionsAt with
  | .ok o => f o
  | .error _ => w

/-- A list that is the source of options may have a name as well, or be the source of others. -/
def alterSource (name : String) (f : List Datum → List Datum) : Workspace :=
  w.alterHeld name fun o => match o.source with
    | .shared l => w.setList l (f (w.listAt l))
    | _ => w

def passAttributes (name : String) (m : MapId) : Workspace :=
  match w.optionsId name with
  | .ok i => w.alterHeld name fun o =>
    let (o, w) := o.assign w (.attributes (w.entriesAt m))
    w.setOptions i o
  | .error _ => w

end Workspace

namespace Session

variable (s : Session)

def move : Move → Session
  | .step x => (s.step x).1
  | .alterList name f => { s with workspace := s.workspace.alterList name f }
  | .alterSubs name f =>
    let w := s.workspace
    { s with workspace := w.alterHeld name fun o => w.setList o.subs (f (w.listAt o.subs)) }
  | .alterAttributes name f =>
    let w := s.workspace
    { s with workspace :=
        w.alterHeld name fun o => w.setMap o.attributes (f (w.entriesAt o.attributes)) }
  | .alterSource name f => { s with workspace := s.workspace.alterSource name f }
  | .passAttributes name m => { s with workspace := s.workspace.passAttributes name m }

end Session

namespace Workspace

variable (w : Workspace)

def nodeHolder (name : String) : Option Holder := (w.nodeId name).toOption.map .node

def optionsHolder (name : String) : Option Holder := (w.optionsId name).toOption.map .options

end Workspace

def Change.target (w : Workspace) : Change → Option Holder
  | .setLines on _ | .appendLine on _ | .insertLine on .. | .popLine on | .setSubs on _
  | .appendSub on _ | .setAttribute on .. => w.nodeHolder on
  | .setOption on .. => w.optionsHolder on
  | _ => none

def Change.inPlace : Change → Bool
  | .appendItem .. | .appendLine .. | .insertLine .. | .popLine _ | .appendSub ..
  | .setAttribute .. => true
  | _ => false

def Step.target (w : Workspace) : Step → Option Holder
  | .change c => c.target w
  | _ => none

namespace Move

def target (w : Workspace) : Move → Option Holder
  | .step x => x.target w
  | .alterSubs name _ | .alterAttributes name _ | .passAttributes name _ => w.optionsHolder name
  | .alterList .. | .alterSource .. => none

def inPlace : Move → Bool
  | .step (.change c) => c.inPlace
  | .step _ | .passAttributes .. => false
  | _ => true

end Move

end BlockTree

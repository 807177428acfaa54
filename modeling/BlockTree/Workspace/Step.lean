import BlockTree.Workspace.Edit
import BlockTree.Workspace.Query

/-! Sessions: a workspace, the modules at hand, and the tallies, changed by one step after the
other. -/
namespace BlockTree

inductive PipeSource
  | named (substitutor : String)
  | stocks (entries : List (String × Stock))
  | recorder (r : Recorder)

inductive BlockSource
  | fields (given : List (String × Datum))
  | options (name : String)

inductive Change
  | list (label : String) (value : Datum)
  | appendItem (list : String) (value : Datum)
  | substitutor (label : String) (entries : List (String × Stock))
  | document (label : String) (attributes : Datum) (pipe : PipeSource) (converter : Converter)
  | plain (label : String) (context : Datum) (parent : Option String)
  | options (label : String) (given : List (String × Datum))
  | block (label : String) (context : Datum) (parent : Option String) (source : BlockSource)
  | setOption (on field : String) (value : Datum)
  | setLines (on : String) (value : Datum)
  | appendLine (on : String) (value : Datum)
  | insertLine (on : String) (place : Int) (value : Datum)
  | popLine (on : String)
  | setSubs (on : String) (value : Datum)
  | appendSub (on : String) (value : Datum)
  | setAttribute (on : String) (name : Value) (value : Datum)
  | setField (on : String) (field : NodeField) (value : Datum)
  | append (on child : String)
  | register (on name : String) (stock : Stock)
  | unregister (on name : String)

structure Session where
  plugins : List (Plugin Tally)
  workspace : Workspace
  tally : Tally

namespace Session

def start (modules : List (String × Option (List (String × Stock)))) : Session :=
  let (plugins, t) := load modules .fresh
  ⟨plugins, .empty, t⟩
where
  load : List (String × Option (List (String × Stock))) → Tally → List (Plugin Tally) × Tally
    | [], t => ([], t)
    | (name, none) :: rest, t => let (ps, t) := load rest t; (⟨name, none⟩ :: ps, t)
    | (name, some entries) :: rest, t =>
      let (os, t) := Stock.offers entries t
      let (ps, t) := load rest t
      (⟨name, some os⟩ :: ps, t)

end Session

namespace Change

abbrev Edit := Except Failure (Workspace × Tally × Reply)

variable (w : Workspace) (t : Tally)

def done (r : Except Failure Workspace) : Edit := return (← r, t, .null)

def parentOf : Option String → Except Failure (Option NodeId)
  | none => .ok none
  | some p => return some (← w.nodeId p)

def addSubstitutor (entries : List (String × Stock)) :
    Except Failure (Nat × Workspace × Tally) := do
  let (offers, t) := Stock.offers entries t
  let (s, w) := w.addSubstitutor (← Substitutor.ofList offers)
  return (s, w, t)

def addPipe : PipeSource → Except Failure (Pipe × Workspace × Tally)
  | .named s => return (.substitutor (← w.substitutorId s), w, t)
  | .stocks entries => do
    let (s, w, t) ← addSubstitutor w t entries
    return (.substitutor s, w, t)
  | .recorder r => .ok (.recorder w.recorders r, { w with recorders := w.recorders + 1 }, t)

def blockOptions : BlockSource → Except Failure (Options × Workspace)
  | .fields given => Options.ofFields w given
  | .options name => return (← w.optionsId name >>= w.optionsAt, w)

def blockRecord (label : String) : Except Failure Reply := do
  let n ← w.nodeId label
  let b ← w.node n
  let (model, lines, subs) ← w.ownOf n "lines"
  return .record [("lines", w.resolve lines), ("subs", w.resolve subs),
    ("attributes", w.attributesOf b.attributes), ("content_model", .str model.name)]

def lineList (on member : String) : Except Failure ListId := do
  Workspace.listOf member (← w.linesOf (← w.nodeId on))

def apply : Change → Edit
  | .list label d => done t (w.newList label d)
  | .appendItem l d => do done t (.ok (w.appendItem (← w.listId l) d))
  | .substitutor label entries => do
    let (s, w, t) ← addSubstitutor w t entries
    return (w.bindName label (.substitutor s), t, .null)
  | .document label attributes pipe converter => do
    let (p, w, t) ← addPipe w t pipe
    done t (w.addDocument label attributes p converter)
  | .plain label context parent => do done t (.ok (w.addPlain label context (← parentOf w parent)))
  | .options label given => do
    if let some name := Options.stray? given then throw (.strayOption name)
    let (o, w) ← Options.ofFields w given
    return (w.addOptions label o, t, .record (w.optionsRecord o))
  | .block label context parent source => do
    let p ← parentOf w parent
    let (o, w) ← blockOptions w source
    let w ← w.addBlock label context p o
    return (w, t, ← blockRecord w label)
  | .setOption on field d => do
    let i ← w.optionsId on
    let some f := OptionField.named? field | throw (.noOption field)
    let (o, w) ← (← w.optionsAt i).set w f d
    return (w.setOptions i o, t, .record (w.optionsRecord o))
  | .setLines on d => do done t (w.setLines (← w.nodeId on) d)
  | .appendLine on d => do done t (.ok (w.appendItem (← lineList w on "append") d))
  | .insertLine on i d => do done t (w.insertItem (← lineList w on "insert") i d)
  | .popLine on => do
    let (d, w) ← w.popItem (← lineList w on "pop")
    return (w, t, .value (w.resolve d))
  | .setSubs on d => do done t (w.setSubs (← w.nodeId on) d)
  | .appendSub on d => do
    let l ← Workspace.listOf "append" (← w.subsOf (← w.nodeId on))
    done t (.ok (w.appendItem l d))
  | .setAttribute on name d => do done t (w.setAttribute (← w.nodeId on) name d)
  | .setField on f d => do done t (w.setField (← w.nodeId on) f d)
  | .append on child => do
    let c ← w.nodeId child
    let w ← w.append (← w.nodeId on) c
    return (w, t, .value (w.label c))
  | .register on name stock => do
    let i ← w.substitutorId on
    let (o, t) := stock.offer t
    return (w.setSubstitutor i (← (w.substitutorAt i).register name o), t, .null)
  | .unregister on name => do
    let i ← w.substitutorId on
    return (w.setSubstitutor i ((w.substitutorAt i).unregister name), t, .null)

end Change

inductive Step
  | query (q : Query)
  | change (c : Change)
  /-- Loads a module into a substitutor, or into a new one of the given name. -/
  | load (plugin : String) (on label : Option String)

namespace Session

variable (s : Session)

abbrev Outcome := Session × Except Failure Reply × List Notice

def names (r : Substitutor Tally) : Value := .list (r.names.map .str)

/-- What was registered before a failure stays registered. -/
def loadInto (plugin on : String) : Outcome :=
  match s.workspace.substitutorId on with
  | .error f => (s, .error f, [])
  | .ok i =>
    match Plugin.load s.plugins plugin (s.workspace.substitutorAt i) with
    | (r, .error f) => ({ s with workspace := s.workspace.setSubstitutor i r }, .error f, [])
    | (r, .ok n) => ({ s with workspace := s.workspace.setSubstitutor i r },
        .ok (.record [("same", .bool true), ("names", names r)]), [n])

def loadNew (plugin label : String) : Outcome :=
  match Plugin.load s.plugins plugin .empty with
  | (_, .error f) => (s, .error f, [])
  | (r, .ok n) =>
    let (i, w) := s.workspace.addSubstitutor r
    ({ s with workspace := w.bindName label (.substitutor i) },
      .ok (.record [("same", .bool false), ("names", names r)]), [n])

def act : Step → Outcome
  | .query q =>
    let (r, e) := (s.workspace.answer q).run ⟨s.tally, []⟩
    ({ s with tally := e.state }, r, e.log)
  | .change c => match c.apply s.workspace s.tally with
    | .ok (w, t, r) => ({ s with workspace := w, tally := t }, .ok r, [])
    | .error f => (s, .error f, [])
  | .load plugin (some on) _ => s.loadInto plugin on
  | .load plugin none label => s.loadNew plugin (label.getD "")

/-- One step, its reply or failure, and what it logs. A reply with a list inside itself is endless.
-/
def step (x : Step) : Outcome :=
  match s.act x with
  | (s, .ok r, log) => (s, if r.isWhole then .ok r else .error .endless, log)
  | o => o

end Session

end BlockTree

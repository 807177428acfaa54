import BlockTree.Workspace.Live
import BlockTree.Workspace.Step

/-! Changes carried out in the workspace itself, one write after the other, so that a failure undoes
nothing. Options and nodes that are being made have no place yet: they get one with their name. -/
namespace BlockTree

namespace Live

variable {α : Type}

def write (f : Workspace → Workspace) : Live Unit := ExceptT.mk fun s => (.ok (), (f s.1, s.2))

def make (f : Workspace → α × Workspace) : Live α :=
  ExceptT.mk fun s => let (a, w) := f s.1; (.ok a, (w, s.2))

def offer (f : Tally → α × Tally) : Live α :=
  ExceptT.mk fun s => let (a, t) := f s.2.state; (.ok a, (s.1, { s.2 with state := t }))

/-- An operation on one list, one mapping or one field: it writes, or fails before. -/
def edit (f : Workspace → Except Failure Workspace) : Live Unit := do
  let w ← see f
  write fun _ => w

def amend (n : NodeId) (f : Node → Node) : Live Unit :=
  edit fun w => return w.setNode n (f (← w.node n))

def registerAll (i : Nat) (offers : List (String × Offer Tally)) : Live Unit := do
  let (s, r) ← see fun w => .ok ((w.substitutorAt i).registerAll offers)
  write fun w => w.setSubstitutor i s
  see fun _ => r

def addSubstitutor (entries : List (String × Stock)) : Live Nat := do
  let offers ← offer (Stock.offers entries)
  let i ← make fun w => w.addSubstitutor .empty
  registerAll i (Substitutor.mapping offers)
  return i

def addPipe : PipeSource → Live Pipe
  | .named s => return .substitutor (← see fun w => w.substitutorId s)
  | .stocks entries => return .substitutor (← addSubstitutor entries)
  | .recorder r => make fun w => (.recorder w.recorders r, { w with recorders := w.recorders + 1 })

def assign (depth : Nat) (o : Options) (f : OptionField) (d : Datum) : Live Options := do
  let c ← see fun w => Options.convertIn w.lists depth d f
  make fun w => o.assign w c

def ofFields (depth : Nat) (given : List (String × Datum)) : Live Options := do
  let o ← make Options.default
  ["content_model", "attributes", "subs", "source"].foldlM (fun o name =>
    match OptionField.named? name, given.lookup name with
    | some f, some d => assign depth o f d
    | _, _ => return o) o

def blockOptions (depth : Nat) : BlockSource → Live Options
  | .fields given => ofFields depth given
  | .options name => see fun w => w.optionsId name >>= w.optionsAt

def addBlock (label : String) (context : Datum) (parent : Option NodeId) (o : Options) :
    Live Unit := do
  let m ← make fun w => w.addMap (w.entriesAt o.attributes)
  let lines ← newList (← see fun w => Options.lines w.lists o.source)
  let subs ← newList (← see fun w => .ok (w.listAt o.subs))
  write fun w => w.addNode (.fresh w label parent context m (.block o.model lines subs))

/-- The child is linked before its parent. -/
def append (parent child : NodeId) : Live Unit := do
  let _ ← see fun w => w.node parent
  amend child fun b => { b with parent := some parent }
  let p ← see fun w => w.node parent
  amend child fun b => { b with document := p.document }
  amend parent fun b => { b with children := b.children ++ [child] }

def change (c : Change) : Live Reply := do
  let depth ← see fun w => .ok w.depth
  match c with
  | .list label d =>
    let ds ← see fun w => d.each w.lists
    let l ← make fun w => w.addList ds
    write fun w => w.bindName label (.list l)
    return .null
  | .appendItem name d =>
    let l ← see fun w => w.listId name
    write fun w => w.appendItem l d
    return .null
  | .substitutor label entries =>
    let i ← addSubstitutor entries
    write fun w => w.bindName label (.substitutor i)
    return .null
  | .document label attributes pipe converter =>
    let p ← addPipe pipe
    let es ← see fun w => DataEntries.ofDatum w.lists attributes
    let m ← make fun w => w.addMap es
    write fun w =>
      let b := Node.fresh w label none (.text "document") m (.document p converter)
      w.addNode { b with document := some w.nodes.length }
    return .null
  | .plain label context parent =>
    let p ← see fun w => Change.parentOf w parent
    let m ← make fun w => w.addMap []
    write fun w => w.addNode (.fresh w label p context m .plain)
    return .null
  | .options label given =>
    if let some name := Options.stray? given then throw (.strayOption name)
    let o ← ofFields depth given
    write fun w => w.addOptions label o
    return .record (← see fun w => .ok (w.optionsRecord o))
  | .block label context parent source =>
    let p ← see fun w => Change.parentOf w parent
    addBlock label context p (← blockOptions depth source)
    see fun w => Change.blockRecord w label
  | .setOption on field d =>
    let i ← see fun w => w.optionsId on
    let some f := OptionField.named? field | throw (.noOption field)
    let o ← assign depth (← see fun w => w.optionsAt i) f d
    write fun w => w.setOptions i o
    return .record (← see fun w => .ok (w.optionsRecord o))
  | .setLines on d =>
    let n ← see fun w => w.nodeId on
    let (model, _, subs) ← see fun w => w.ownOf n "lines"
    let lines ← make fun w => w.place d
    amend n fun b => { b with body := .block model lines subs }
    return .null
  | .appendLine on d =>
    let l ← see fun w => Change.lineList w on "append"
    write fun w => w.appendItem l d
    return .null
  | .insertLine on i d =>
    let l ← see fun w => Change.lineList w on "insert"
    edit fun w => w.insertItem l i d
    return .null
  | .popLine on =>
    let l ← see fun w => Change.lineList w on "pop"
    let (d, w) ← see fun w => w.popItem l
    write fun _ => w
    return .value (← see fun w => .ok (w.resolve d))
  | .setSubs on d =>
    let n ← see fun w => w.nodeId on
    let (model, lines, _) ← see fun w => w.ownOf n "subs"
    let subs ← make fun w => w.place d
    amend n fun b => { b with body := .block model lines subs }
    return .null
  | .appendSub on d =>
    let n ← see fun w => w.nodeId on
    let subs ← see fun w => w.subsOf n
    let l ← see fun _ => Workspace.listOf "append" subs
    write fun w => w.appendItem l d
    return .null
  | .setAttribute on name d =>
    let n ← see fun w => w.nodeId on
    edit fun w => w.setAttribute n name d
    return .null
  | .setField on f d =>
    let n ← see fun w => w.nodeId on
    edit fun w => w.setField n f d
    return .null
  | .append on child =>
    let c ← see fun w => w.nodeId child
    append (← see fun w => w.nodeId on) c
    return .value (← see fun w => .ok (w.label c))
  | .register on name stock =>
    let i ← see fun w => w.substitutorId on
    let o ← offer stock.offer
    let r ← see fun w => (w.substitutorAt i).register name o
    write fun w => w.setSubstitutor i r
    return .null
  | .unregister on name =>
    let i ← see fun w => w.substitutorId on
    write fun w => w.setSubstitutor i ((w.substitutorAt i).unregister name)
    return .null

end Live

end BlockTree

import BlockTree.Workspace.Options
import BlockTree.Workspace.Render

/-! Questions about a workspace. They are answered from it and leave it as it is. -/
namespace BlockTree

inductive Reply
  | value (v : Value)
  | record (fields : List (String × Value))
  | exported (v : Value)
deriving Repr

namespace Reply

def null : Reply := .value .null

def isWhole : Reply → Bool
  | .value v | .exported v => v.isWhole
  | .record fields => fields.all fun f => f.2.isWhole

end Reply

inductive Query
  | content (on : String)
  | source (on : String)
  | output (on : String)
  | rendered (on : String)
  | attribute (on : String) (name : Value) (default : Datum)
  | substituted (on : String) (source subs : Datum)
  | summary (on : String)
  | info (on : String)
  | exported (on : String) (asBlock : Bool)
  | lines (on : String)
  | options (on : String)
  | optionsEqual (on other : String)
  | optionsText (on : String)
  | list (name : String)
  | names (on : String)
  | contains (on : String) (name : Value)
  | call (on : String) (source subs : Datum)
  | calls (on : String)
deriving Repr

namespace Workspace

variable (w : Workspace)

/-- More steps than any walk down the tree can take. -/
def reach : Nat := w.nodes.foldl (fun n b => n + b.children.length + 4) 4

def source (n : NodeId) : Except Failure String := do
  match (← w.node n).body with
  | .block _ lines _ => lines.join w.lists
  | b => throw (.noMember b.kind.name "source")

def rendered (n : NodeId) : Run Tally Datum := do
  match (← Run.ofExcept (w.node n)).body with
  | .document .. => w.content w.reach n
  | b => throw (.noMember b.kind.name "render")

def lengthOf (d : Datum) : Except Failure Nat :=
  match d with
  | .value v => Definition.nested v
  | d => return (← d.each w.lists).length

def summary (n : NodeId) : Except Failure String := do
  let b ← w.node n
  match b.body with
  | .block model lines _ =>
    let count ← if model = .compound then pure 0 else w.lengthOf lines
    return summaryText "Block" (w.resolve b.context).literal (Value.str model.name).literal
      (w.resolve b.style).literal (countText model b.children.length count)
  | .document .. =>
    return "Document@ID \x7b attributes: " ++ Decimal.natText (w.entriesAt b.attributes).length ++
      ", blocks: " ++ Decimal.natText b.children.length ++ " \x7d"
  | .plain => return "AbstractBlock@ID"

def labelOf : Option NodeId → Value
  | some n => w.label n
  | none => .null

def info (n : NodeId) : Except Failure (List (String × Value)) := do
  let b ← w.node n
  let common := [
    ("parent", w.labelOf b.parent), ("document", w.labelOf b.document),
    ("context", w.resolve b.context), ("node_name", w.resolve b.context),
    ("content_model", Value.str b.body.model.name), ("has_blocks", .bool !b.children.isEmpty),
    ("blocks", .list (b.children.map w.label)), ("attributes", w.attributesOf b.attributes),
    ("style", w.resolve b.style), ("id", w.resolve b.id), ("title", w.resolve b.title)]
  match b.body with
  | .block _ lines subs =>
    return common ++ [("blockname", w.resolve b.context), ("lines", w.resolve lines),
      ("subs", w.resolve subs)]
  | _ => return common

def exportedOwn (b : Body) : Except Failure (Value × Value) :=
  match b with
  | .block _ lines subs => do
    let s ← lines.join w.lists
    let names ← subs.each w.lists
    return (.str s, w.resolve (.items names))
  | _ => .ok (.str "", .list [])

mutual
/-- The export of a node and of all below it; `fuel` bounds the depth of the tree. -/
def exportedNode : Nat → NodeId → Run Tally Value
  | 0, _ => throw .endless
  | fuel + 1, n => do
    let b ← Run.ofExcept (w.node n)
    let (source, subs) ← Run.ofExcept (w.exportedOwn b.body)
    let content ← w.content w.reach n
    let blocks ← exportedNodes fuel b.children
    return .record (blockFields (w.resolve b.context) (.str b.body.model.name) (w.resolve b.style)
      (w.resolve b.id) (w.resolve b.title) (w.attributesOf b.attributes) subs source
      (w.resolve content) (.list blocks))

def exportedNodes : Nat → List NodeId → Run Tally (List Value)
  | _, [] => pure []
  | 0, _ => throw .endless
  | fuel + 1, n :: ns => do
    let v ← exportedNode fuel n
    let vs ← exportedNodes fuel ns
    return v :: vs
end

def exported (n : NodeId) (asBlock : Bool) : Run Tally Value := do
  let b ← Run.ofExcept (w.node n)
  match b.body, asBlock with
  | .document .., false =>
    let content ← w.rendered n
    let blocks ← w.exportedNodes w.reach b.children
    return .record (documentFields (w.attributesOf b.attributes) (w.resolve content)
      (.list blocks))
  | _, _ => w.exportedNode w.reach n

def outlineLine (depth : Nat) (n : NodeId) : Except Failure String :=
  return String.ofList (List.replicate (2 * depth) ' ') ++ (← w.summary n)

mutual
def outline : Nat → Nat → NodeId → Except Failure (List String)
  | 0, _, _ => throw .endless
  | fuel + 1, depth, n => do
    let line ← w.outlineLine depth n
    let below ← outlines fuel (depth + 1) (← w.node n).children
    return line :: below

def outlines : Nat → Nat → List NodeId → Except Failure (List String)
  | _, _, [] => .ok []
  | 0, _, _ => throw .endless
  | fuel + 1, depth, n :: ns => do
    let lines ← outline fuel depth n
    let rest ← outlines fuel depth ns
    return lines ++ rest
end

def optionsRecord (o : Options) : List (String × Value) :=
  [("content_model", .str o.model.name), ("attributes", w.attributesOf o.attributes),
    ("subs", w.resolve (.shared o.subs)), ("source", w.resolve o.source)]

def contains (s : Nat) (name : Value) : Except Failure Bool :=
  match name with
  | .str n => .ok ((w.substitutorAt s).find? n).isSome
  | v => if v.hashable then .ok false else .error (.unhashable v.kind)

def attributeAt (n : NodeId) (name : Value) (default : Datum) : Except Failure Value := do
  let b ← w.node n
  if name.hashable then return w.resolve (((w.entriesAt b.attributes).find? name).getD default)
  else throw (.unhashable name.kind)

/-- The pipe behind a name: a substitutor, or what a document has. -/
def pipe (name : String) : Except Failure Pipe :=
  match w.named Ref.substitutor? name with
  | .ok s => .ok (.substitutor s)
  | .error _ => do
    match (← w.node (← w.nodeId name)).body with
    | .document p _ => return p
    | b => throw (.noMember b.kind.name "substitutor")

def calls (name : String) : Run Tally (List Value) := do
  match ← Run.ofExcept (w.pipe name) with
  | .recorder id _ =>
    let e ← get
    return (e.state.calls.filter (·.1 = id)).map fun c => w.resolve (.items [c.2.1, c.2.2])
  | .substitutor _ => throw (.noMember "Substitutor" "calls")

def onNode {α : Type} (name : String) (f : NodeId → Except Failure α) : Run Tally α :=
  Run.ofExcept (w.nodeId name >>= f)

def answer : Query → Run Tally Reply
  | .content on => do
    let n ← Run.ofExcept (w.nodeId on)
    return .value (w.resolve (← w.content w.reach n))
  | .source on => return .value (.str (← onNode w on w.source))
  | .output on => do
    let n ← Run.ofExcept (w.nodeId on)
    return .value (w.resolve (← w.convert w.reach n))
  | .rendered on => do
    let n ← Run.ofExcept (w.nodeId on)
    return .value (w.resolve (← w.rendered n))
  | .attribute on name default => return .value (← onNode w on (w.attributeAt · name default))
  | .substituted on source subs => do
    let b ← onNode w on w.node
    return .value (w.resolve (← w.applySubs b source subs))
  | .summary on => return .value (.str (← onNode w on w.summary))
  | .info on => return .record (← onNode w on w.info)
  | .exported on asBlock => do
    let n ← Run.ofExcept (w.nodeId on)
    return .exported (← w.exported n asBlock)
  | .lines on => return .value (w.resolve (← onNode w on w.linesOf))
  | .options on => do
    let o ← Run.ofExcept (w.optionsId on >>= w.optionsAt)
    return .record (w.optionsRecord o)
  | .optionsEqual on other => do
    let o ← Run.ofExcept (w.optionsId on >>= w.optionsAt)
    let p ← Run.ofExcept (w.optionsId other >>= w.optionsAt)
    return .value (.bool (o.eqv w p))
  | .optionsText on => do
    let o ← Run.ofExcept (w.optionsId on >>= w.optionsAt)
    return .value (.str (o.literal w))
  | .list name => do
    let l ← Run.ofExcept (w.listId name)
    return .value (w.resolve (.shared l))
  | .names on => do
    let s ← Run.ofExcept (w.substitutorId on)
    return .value (.list ((w.substitutorAt s).names.map .str))
  | .contains on name => do
    let s ← Run.ofExcept (w.substitutorId on)
    return .value (.bool (← Run.ofExcept (w.contains s name)))
  | .call on source subs => do
    let p ← Run.ofExcept (w.pipe on)
    return .value (w.resolve (← w.applyPipe p source subs))
  | .calls on => return .value (.list (← w.calls on))

end Workspace

end BlockTree

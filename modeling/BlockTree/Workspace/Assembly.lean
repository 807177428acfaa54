import BlockTree.Workspace.Edit

/-! Assembling a document in a workspace from a definition that has passed its checks: options are
made, a block is made from them under its parent, named and appended, and then its children. -/
namespace BlockTree

namespace Datum

def ofText? : Option String → Datum
  | some s => .text s
  | none => .null

/-- A value as a document holds it where texts stand. -/
def held (v : Value) : Datum := (v.text?.map .text).getD (.value v)

/-- What a definition gives for names or lines. -/
def given : Value → Datum
  | .list vs => .items (vs.map held)
  | v => held v

end Datum

namespace Workspace

variable (w : Workspace)

def optionsOf (es : Entries) : Except Failure (Options × Workspace) := do
  let model ← ContentModel.ofValue (es.get "content_model")
  Options.ofFields w [("content_model", .value (.model model)),
    ("attributes", .value (es.get "attributes")), ("subs", .given (es.get "subs")),
    ("source", .given (es.get "source"))]

def assign (n : NodeId) (field : NodeField) (v : Value) : Except Failure Workspace := do
  match ← v.formIfAny with
  | some s => w.setField n field (.text s)
  | none => return w

def assembleBlock (parent : NodeId) (es : Entries) : Except Failure Workspace := do
  let (o, w) ← w.optionsOf es
  let n := w.nodes.length
  let context ← (es.get "context").form
  let w ← w.addBlock "" (.text context) (some parent) o
  let w ← w.assign n .style (es.get "style")
  let w ← w.assign n .id (es.get "id")
  let w ← w.assign n .title (es.get "title")
  w.append parent n

mutual
def assembleUnder (w : Workspace) (parent : NodeId) : Value → Except Failure Workspace
  | .map es => do assembleNested (← w.assembleBlock parent es) w.nodes.length es
  | v => .error (.noMember v.kind "get")

def assembleNested (w : Workspace) (parent : NodeId) :
    List (Value × Value) → Except Failure Workspace
  | [] => .ok w
  | (k, v) :: es =>
    if k.same (.str "blocks") then assembleChildren w parent v else assembleNested w parent es

def assembleChildren (w : Workspace) (parent : NodeId) : Value → Except Failure Workspace
  | .list vs => assembleAll w parent vs
  | _ => .ok w

def assembleAll (w : Workspace) (parent : NodeId) : List Value → Except Failure Workspace
  | [] => .ok w
  | v :: vs => do assembleAll (← assembleUnder w parent v) parent vs
end

def assemble (pipe : Pipe) (es : Entries) : Except Failure Workspace := do
  let n := w.nodes.length
  let w ← w.addDocument "" (.value (es.get "attributes")) pipe .content
  w.assembleNested n es

end Workspace

end BlockTree

import BlockTree.Workspace.Query

/-! Queries carried out in the workspace itself. Every list that is copied, cut or trimmed on the
way is made as one more shared list, so that lists are handed on by their places, as a pipeline may
hand on a list of its own. `depth` bounds lists within lists when values are read off at the end. -/
namespace BlockTree

abbrev Live := ExceptT Failure (StateM (Workspace × Effects Tally))

namespace Live

variable {α : Type}

def read (f : Workspace → Run Tally α) : Live α :=
  ExceptT.mk fun s => let (r, e) := (f s.1).run s.2; (r, (s.1, e))

def see (f : Workspace → Except Failure α) : Live α := read fun w => Run.ofExcept (f w)

def newList (ds : List Datum) : Live Datum :=
  ExceptT.mk fun s => let (l, w) := s.1.addList ds; (.ok (.shared l), (w, s.2))

def value (depth : Nat) (d : Datum) : Live Value := see fun w => .ok (d.resolve w.lists depth [])

def copied (source : Datum) : Live Datum := do
  match source.text? with
  | some _ => return source
  | none => newList (← see fun w => source.each w.lists)

def substituteText (s : Substitutor Tally) (source : Datum) (t : String) (subs : Datum) :
    Live Datum := do
  if ← see fun w => .ok (subs.truthy w.lists) then
    let names ← see fun w => subs.each w.lists
    return .text (← read fun _ => names.foldlM (Workspace.applyName s) t)
  else return source

def substituteLines (s : Substitutor Tally) (source subs : Datum) : Live Datum := do
  if ← see fun w => .ok (subs.truthy w.lists) then
    if ← see fun w => .ok (source.truthy w.lists) then
      let t ← see fun w => source.join w.lists
      let names ← see fun w => subs.each w.lists
      let t ← read fun _ => names.foldlM (Workspace.applyName s) t
      newList ((Text.splitFeeds t).map .text)
    else newList []
  else newList (← see fun w => source.each w.lists)

def substitute (s : Substitutor Tally) (source subs : Datum) : Live Datum :=
  match source.text? with
  | some t => substituteText s source t subs
  | none => substituteLines s source subs

def applyPipe (p : Pipe) (source subs : Datum) : Live Datum := do
  match p with
  | .substitutor i => substitute (← see fun w => .ok (w.substitutorAt i)) source subs
  | .recorder id r =>
    read fun w => w.record id source subs
    match r with
    | .echo => copied source
    | .fixed d => return d
    | .fail kind t => throw (.raised kind t)

def applySubs (n : NodeId) (source subs : Datum) : Live Datum := do
  let b ← see fun w => w.node n
  match ← see fun w => w.documentOf b with
  | some (p, _) => applyPipe p source subs
  | none => copied source

/-- The items between blank ones are cut out as a list of their own before they are joined. -/
def trimmed : List Datum → Live Datum
  | [] => return .null
  | [d] => return d
  | ds => do
    let ds ← see fun _ => Datum.dropBlank ds
    let ds ← see fun _ => Datum.dropBlank ds.reverse
    let slice ← newList ds.reverse
    return .text (← see fun w => slice.join w.lists)

def lineContent (d : Datum) : Live Datum := do
  match d with
  | .shared l => trimmed (← see fun w => .ok (w.lists.getD l []))
  | .items ds => trimmed ds
  | .value (.map es) => see fun _ => Datum.mapContent (es.map fun e => (e.1, .value e.2))
  | .value v =>
    match v.items with
    | .ok vs => trimmed (vs.map .value)
    | .error _ => throw (.noLength v.kind)
  | .fields es => see fun _ => Datum.mapContent es

def ownContent (n : NodeId) (model : ContentModel) (lines subs : Datum) : Live Datum := do
  match model with
  | .simple => applySubs n (.text (← see fun w => lines.join w.lists)) subs
  | .verbatim | .raw =>
    let copy ← newList (← see fun w => lines.each w.lists)
    lineContent (← applySubs n copy subs)
  | .compound | .empty => return .null

mutual
def content (depth : Nat) : Nat → NodeId → Live Datum
  | 0, _ => throw .endless
  | fuel + 1, n => do
    let b ← see fun w => w.node n
    match b.body with
    | .block model lines subs =>
      if model = .compound then
        let ds ← outputs depth fuel b.children
        see fun _ => Workspace.joinOutputs ds
      else ownContent n model lines subs
    | _ =>
      let ds ← outputs depth fuel b.children
      see fun _ => Workspace.joinOutputs ds

def outputs (depth : Nat) : Nat → List NodeId → Live (List Datum)
  | _, [] => pure []
  | 0, _ => throw .endless
  | fuel + 1, n :: ns => do
    let d ← convert depth fuel n
    let ds ← outputs depth fuel ns
    return d :: ds

def convert (depth : Nat) : Nat → NodeId → Live Datum
  | 0, _ => throw .endless
  | fuel + 1, n => do
    let b ← see fun w => w.node n
    match ← see fun w => w.documentOf b with
    | none | some (_, .content) => content depth fuel n
    | some (_, .mute) => return .null
    | some (_, .tag) =>
      let d ← content depth fuel n
      if d.isNull then return d
      else
        let name := (← value depth b.context).text
        return .text ("<" ++ name ++ ">" ++ (← value depth d).text ++ "</" ++ name ++ ">")
end

def reach : Live Nat := see fun w => .ok w.reach

def rendered (depth : Nat) (n : NodeId) : Live Datum := do
  match (← see fun w => w.node n).body with
  | .document .. => content depth (← reach) n
  | b => throw (.noMember b.kind.name "render")

def exportedOwn (depth : Nat) (b : Body) : Live (Value × Value) := do
  match b with
  | .block _ lines subs =>
    let s ← see fun w => lines.join w.lists
    let names ← newList (← see fun w => subs.each w.lists)
    return (.str s, ← value depth names)
  | _ => return (.str "", .list [])

mutual
def exportedNode (depth : Nat) : Nat → NodeId → Live Value
  | 0, _ => throw .endless
  | fuel + 1, n => do
    let b ← see fun w => w.node n
    let (source, subs) ← exportedOwn depth b.body
    let content ← content depth (← reach) n
    let blocks ← exportedNodes depth fuel b.children
    let attributes ← see fun w => .ok ((w.entriesAt b.attributes).resolve w.lists depth)
    return .record (blockFields (← value depth b.context) (.str b.body.model.name)
      (← value depth b.style) (← value depth b.id) (← value depth b.title) attributes subs source
      (← value depth content) (.list blocks))

def exportedNodes (depth : Nat) : Nat → List NodeId → Live (List Value)
  | _, [] => pure []
  | 0, _ => throw .endless
  | fuel + 1, n :: ns => do
    let v ← exportedNode depth fuel n
    let vs ← exportedNodes depth fuel ns
    return v :: vs
end

def exported (depth : Nat) (n : NodeId) (asBlock : Bool) : Live Value := do
  let b ← see fun w => w.node n
  match b.body, asBlock with
  | .document .., false =>
    let content ← rendered depth n
    let blocks ← exportedNodes depth (← reach) b.children
    let attributes ← see fun w => .ok ((w.entriesAt b.attributes).resolve w.lists depth)
    return .record (documentFields attributes (← value depth content) (.list blocks))
  | _, _ => exportedNode depth (← reach) n

def answer (q : Query) : Live Reply := do
  let depth ← see fun w => .ok w.depth
  match q with
  | .content on =>
    let n ← see fun w => w.nodeId on
    return .value (← value depth (← content depth (← reach) n))
  | .output on =>
    let n ← see fun w => w.nodeId on
    return .value (← value depth (← convert depth (← reach) n))
  | .rendered on =>
    let n ← see fun w => w.nodeId on
    return .value (← value depth (← rendered depth n))
  | .substituted on source subs =>
    let n ← see fun w => w.nodeId on
    return .value (← value depth (← applySubs n source subs))
  | .exported on asBlock =>
    let n ← see fun w => w.nodeId on
    return .exported (← exported depth n asBlock)
  | .call on source subs =>
    let p ← see fun w => w.pipe on
    return .value (← value depth (← applyPipe p source subs))
  -- the others make no lists
  | q => read fun w => w.answer q

end Live

end BlockTree

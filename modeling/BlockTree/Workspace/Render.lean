import BlockTree.Export
import BlockTree.Summary
import BlockTree.Workspace.Basic

/-! Rendering and export in a workspace. Nothing here changes it: only the tallies of substitutions
and recorders and the log go on. -/
namespace BlockTree.Workspace

variable (w : Workspace)

/-- Applies the substitution of that name; only texts are names. -/
def applyName (s : Substitutor Tally) (text : String) : Datum → Run Tally String
  | .value (.str name) => s.step text name
  | .value v => do
    if v.hashable then
      .note (.unknownSubstitution v)
      return text
    else throw (.unhashable v.kind)
  | d => throw (.unhashable d.kind)

def substitute (s : Substitutor Tally) (source subs : Datum) : Run Tally Datum := do
  match source.text? with
  | some t =>
    if subs.truthy w.lists then
      let names ← Run.ofExcept (subs.each w.lists)
      return .text (← names.foldlM (applyName s) t)
    else return source
  | none =>
    if subs.truthy w.lists then
      if source.truthy w.lists then
        let t ← Run.ofExcept (source.join w.lists)
        let names ← Run.ofExcept (subs.each w.lists)
        return .items ((Text.splitFeeds (← names.foldlM (applyName s) t)).map .text)
      else return .items []
    else return .items (← Run.ofExcept (source.each w.lists))

def copied (source : Datum) : Except Failure Datum :=
  match source.text? with
  | some _ => .ok source
  | none => return .items (← source.each w.lists)

/-- Notes a call of a recorder: a copy of its source and a list of its substitutions. -/
def record (id : Nat) (source subs : Datum) : Run Tally Unit := do
  let source ← Run.ofExcept (w.copied source)
  let names ← Run.ofExcept (subs.each w.lists)
  .act (modify fun t => { t with calls := t.calls ++ [(id, source, .items names)] })

def applyPipe (p : Pipe) (source subs : Datum) : Run Tally Datum := do
  match p with
  | .substitutor s => w.substitute (w.substitutorAt s) source subs
  | .recorder id r =>
    w.record id source subs
    match r with
    | .echo => Run.ofExcept (w.copied source)
    | .fixed d => return d
    | .fail kind t => throw (.raised kind t)

def documentOf (b : Node) : Except Failure (Option (Pipe × Converter)) :=
  match b.document with
  | none => .ok none
  | some d => do
    match (← w.node d).body with
    | .document p c => return some (p, c)
    | _ => return none

def applySubs (b : Node) (source subs : Datum) : Run Tally Datum := do
  match ← Run.ofExcept (w.documentOf b) with
  | some (p, _) => w.applyPipe p source subs
  | none => Run.ofExcept (w.copied source)

def ownContent (b : Node) (model : ContentModel) (lines subs : Datum) : Run Tally Datum := do
  match model with
  | .simple => w.applySubs b (.text (← Run.ofExcept (lines.join w.lists))) subs
  | .verbatim | .raw =>
    let ls ← Run.ofExcept (lines.each w.lists)
    Run.ofExcept ((← w.applySubs b (.items ls) subs).lineContent w.lists)
  | .compound | .empty => return .null

def joinOutputs (ds : List Datum) : Except Failure Datum :=
  return .text (Text.joinLines (← Datum.joined 0 (ds.filter (!·.isNull))))

mutual
/-- The content of a node; `fuel` bounds the depth of the tree below it. -/
def content : Nat → NodeId → Run Tally Datum
  | 0, _ => throw .endless
  | fuel + 1, n => do
    let b ← Run.ofExcept (w.node n)
    match b.body with
    | .block model lines subs =>
      if model = .compound then Run.ofExcept (joinOutputs (← outputs fuel b.children))
      else w.ownContent b model lines subs
    | _ => Run.ofExcept (joinOutputs (← outputs fuel b.children))

def outputs : Nat → List NodeId → Run Tally (List Datum)
  | _, [] => pure []
  | 0, _ => throw .endless
  | fuel + 1, n :: ns => do
    let d ← convert fuel n
    let ds ← outputs fuel ns
    return d :: ds

def convert : Nat → NodeId → Run Tally Datum
  | 0, _ => throw .endless
  | fuel + 1, n => do
    let b ← Run.ofExcept (w.node n)
    match ← Run.ofExcept (w.documentOf b) with
    | none | some (_, .content) => content fuel n
    | some (_, .mute) => return .null
    | some (_, .tag) =>
      let d ← content fuel n
      if d.isNull then return d
      else
        let name := (w.resolve b.context).text
        return .text ("<" ++ name ++ ">" ++ (w.resolve d).text ++ "</" ++ name ++ ">")
end

end BlockTree.Workspace

import BlockTree.Workspace.Basic

/-! Making options and blocks: every field is converted in the same way on creation and on
assignment. Attributes and substitutions are copied on their way into options, and once more, with
the source, on their way into a block. -/
namespace BlockTree

inductive OptionField
  | model | attributes | subs | source
deriving DecidableEq, Repr

def OptionField.named? : String → Option OptionField
  | "content_model" => some .model
  | "attributes" => some .attributes
  | "subs" => some .subs
  | "source" => some .source
  | _ => none

namespace Options

/-- Options without anything, with a mapping and a list of their own. -/
def default (w : Workspace) : Options × Workspace :=
  let (m, w) := w.addMap []
  let (l, w) := w.addList []
  (⟨.simple, m, l, .null⟩, w)

/-- A lone name is one name; a false datum is none. -/
def convertSubs (ls : Lists) (d : Datum) : Except Failure (List Datum) :=
  match d.text? with
  | some s => .ok (if s = "" then [] else [d])
  | none => if d.truthy ls then d.each ls else .ok []

inductive Converted
  | model (m : ContentModel)
  | attributes (es : DataEntries)
  | subs (ds : List Datum)
  | source (d : Datum)

def convertIn (ls : Lists) (depth : Nat) (d : Datum) : OptionField → Except Failure Converted
  | .model => return .model (← ContentModel.ofValue (d.resolve ls depth []))
  | .attributes => return .attributes (← DataEntries.ofDatum ls d)
  | .subs => return .subs (← convertSubs ls d)
  | .source => .ok (.source d)

def convert (w : Workspace) : Datum → OptionField → Except Failure Converted :=
  convertIn w.lists w.depth

/-- Gives options what a converter has made, as a mapping or a list of their own. The source is held
as it is given. -/
def assign (w : Workspace) (o : Options) : Converted → Options × Workspace
  | .model m => ({ o with model := m }, w)
  | .attributes es => let (m, w) := w.addMap es; ({ o with attributes := m }, w)
  | .subs ds => let (l, w) := w.addList ds; ({ o with subs := l }, w)
  | .source d => let (d, w) := w.place d; ({ o with source := d }, w)

def set (w : Workspace) (o : Options) (f : OptionField) (d : Datum) :
    Except Failure (Options × Workspace) := return o.assign w (← convert w d f)

/-- Assigns the given fields, always in the order of `OptionField`; other names are passed over. -/
def ofFields (w : Workspace) (given : List (String × Datum)) :
    Except Failure (Options × Workspace) :=
  ["content_model", "attributes", "subs", "source"].foldlM (fun x name =>
    match OptionField.named? name, given.lookup name with
    | some f, some d => return x.1.assign x.2 (← convert w d f)
    | _, _ => .ok x) (default w)

def stray? (given : List (String × Datum)) : Option String :=
  (given.find? fun g => (OptionField.named? g.1).isNone).map (·.1)

def lines (ls : Lists) (source : Datum) : Except Failure (List Datum) :=
  match source.text? with
  | some s => .ok ((Text.linesOf s).map .text)
  | none => if source.truthy ls then source.each ls else .ok []

def eqv (w : Workspace) (a b : Options) : Bool :=
  a.model == b.model &&
  (w.attributesOf a.attributes).eqv (w.attributesOf b.attributes) &&
  (w.resolve (.shared a.subs)).eqv (w.resolve (.shared b.subs)) &&
  (w.resolve a.source).eqv (w.resolve b.source)

def literal (w : Workspace) (o : Options) : String :=
  "BlockOptions(content_model=" ++ (Value.model o.model).literal ++
    ", attributes=" ++ (w.attributesOf o.attributes).literal ++
    ", subs=" ++ (w.resolve (.shared o.subs)).literal ++
    ", source=" ++ (w.resolve o.source).literal ++ ")"

end Options

namespace Workspace

/-- Adds a block made from options. Its lines and its substitutions are new lists, and its
attributes a new mapping. -/
def addBlock (w : Workspace) (label : String) (context : Datum) (parent : Option NodeId)
    (o : Options) : Except Failure Workspace := do
  let lines ← Options.lines w.lists o.source
  let names := w.listAt o.subs
  let entries := w.entriesAt o.attributes
  let (l, w) := w.addList lines
  let (s, w) := w.addList names
  let (m, w) := w.addMap entries
  return w.addNode (.fresh w label parent context m (.block o.model (.shared l) (.shared s)))

end Workspace

end BlockTree

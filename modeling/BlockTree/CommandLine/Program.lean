import BlockTree.CommandLine.Arguments
import BlockTree.Definition
import BlockTree.Graph.Exported
import BlockTree.Json.Writer
import BlockTree.Loading
import BlockTree.Substitutor.Stock
import BlockTree.Summary
import BlockTree.Text.Rewriting
import BlockTree.Yaml.Writer

/-! The program: arguments, an environment and a disk give what is printed, the exit code and the
disk afterwards. -/
namespace BlockTree.CommandLine

/-- How a run ends: with output, with a mistake in the usage, with a message, or with a failure that
nothing caught. -/
inductive Ending
  | done (output : String)
  | usage
  | message (text : String)
  | failure (f : Failure)

structure Outcome where
  ending : Ending
  log : String
  disk : Disk

namespace Outcome

def exitCode (o : Outcome) : Nat :=
  match o.ending with
  | .done _ => 0
  | .usage => 2
  | .message _ | .failure _ => 1

def output (o : Outcome) : String :=
  match o.ending with
  | .done s => s
  | _ => ""

def errors (o : Outcome) : String :=
  match o.ending with
  | .message m => o.log ++ Text.dropControl ("Error: " ++ m ++ "\n")
  | _ => o.log

end Outcome

structure Logging where
  level : Level
  file : Option String

structure Setting where
  dialect : Json.Dialect
  environment : Environment
  plugins : List (Plugin Tally)
  tally : Tally

structure Console where
  log : String
  disk : Disk

def logLine (n : Notice) : String := "[" ++ n.level.name ++ "] " ++ n.message ++ "\n"

namespace Logging

def begin? (l : Logging) (d : Disk) : Except Failure Disk :=
  match l.file with
  | none => .ok d
  | some path => d.append path ""

def lines (l : Logging) (ns : List Notice) : String :=
  String.join ((ns.filter fun n => l.level.rank ≤ n.level.rank).map logLine)

def write (l : Logging) (ns : List Notice) (c : Console) : Console :=
  match l.file with
  | none => { c with log := c.log ++ l.lines ns }
  | some path => match c.disk.append path (l.lines ns) with
    | .ok d => { c with disk := d }
    | .error _ => c

end Logging

def logging (debug trace : Bool) (file : Option String) : Logging :=
  ⟨if trace then .trace else if debug then .debug else .info, file.map Path.plain⟩

def greetings (debug trace : Bool) : List Notice :=
  (if trace then [.traceOn] else []) ++ (if debug then [.debugOn] else [])

def loadingEnding (f : Failure) : Ending :=
  if f.category.isValue then .message f.message
  else if f.category = .yaml then .message ("Invalid definition file: " ++ f.message)
  else .failure f

def moduleEnding (name : String) (f : Failure) : Ending :=
  if f.category = .plugin || f.category = .member then
    .message ("Cannot load substitutions from " ++ name ++ ": " ++ f.message)
  else if f.category.isValue then .message f.message
  else .failure f

structure Loaded where
  graph : Graph
  document : Document
  substitutor : Substitutor Tally
  tally : Tally

def load (x : Setting) (l : Logging) (definition : String) (names : List String) (c : Console) :
    Except Ending Loaded × Console :=
  match (Plugin.loadAll x.plugins names .empty).run ⟨x.tally, []⟩ with
  | (.error (name, f), e) => (.error (moduleEnding name f), l.write e.log c)
  | (.ok s, e) =>
    let c := l.write e.log c
    match Loading.definition x.dialect definition (c.disk.contents definition) with
    | .error f => (.error (loadingEnding f), c)
    | .ok graph =>
      match (Definition.document graph.definition : Run Tally Document).run ⟨e.state, []⟩ with
      | (.error f, e) => (.error (loadingEnding f), l.write e.log c)
      | (.ok doc, e) => (.ok ⟨graph, doc, s, e.state⟩, l.write e.log c)

def rendered (x : Setting) (format : Format) (d : Loaded) : Run Tally String := do
  let p := Pipeline.ofSubstitutor d.substitutor
  Run.ofExcept d.document.checkHeight
  match format with
  | .text => d.document.render p
  | .json => Run.ofExcept (Json.write x.dialect true (← d.document.exported p).toValue)
  | .yaml => Run.ofExcept (Yaml.write ((← d.document.exported p).graph d.graph))

def sources (d : Document) : String := "\n\n".intercalate (d.blocks.map Block.source)

def inspected (d : Document) : String :=
  String.join ((d.blocks.map fun b => Text.joinLines (b.outline 0)).map (· ++ "\n"))

def print (text : String) (c : Console) : Outcome :=
  ⟨.done (Text.dropControl (text ++ "\n")), c.log, c.disk⟩

def save (text path : String) (c : Console) : Outcome :=
  match c.disk.write (Loading.plainPath path) text.toUTF8 with
  | .ok d => ⟨.done "", c.log, d⟩
  | .error f => ⟨.failure f, c.log, c.disk⟩

def perform (x : Setting) (l : Logging) (c : Console) (cmd : Command) : Outcome :=
  let loaded (definition : String) (names : List String) (f : Loaded → Console → Outcome) :=
    match load x l definition names c with
    | (.error e, c) => ⟨e, c.log, c.disk⟩
    | (.ok d, c) => f d c
  match cmd with
  | .help => ⟨.done "", c.log, c.disk⟩
  | .source definition => loaded definition [] fun d c => print (sources d.document) c
  | .inspect definition => loaded definition [] fun d c =>
    ⟨.done (inspected d.document), c.log, c.disk⟩
  | .render definition names format output => loaded definition names fun d c =>
    match (rendered x format d).run ⟨d.tally, []⟩ with
    | (.error f, e) => let c := l.write e.log c; ⟨.failure f, c.log, c.disk⟩
    | (.ok s, e) =>
      let c := l.write e.log c
      match output with
      | none => print s c
      | some path => save s path c

def versionText : String := "docblock, version 0.1.0\n"

def start (x : Setting) (d : Disk) (l : Logging) (hello : List Notice) (name : CommandName)
    (args : List String) : Outcome :=
  match l.begin? d with
  | .error f => ⟨.failure f, "", d⟩
  | .ok opened =>
    let c := l.write hello ⟨"", opened⟩
    match command c.disk x.environment name args with
    | none => ⟨.usage, c.log, c.disk⟩
    | some cmd => perform x l c cmd

/-- Runs the program. Where something that looks like an option stands in place of a command, it is
read as one after all. -/
def run (x : Setting) (d : Disk) (args : List String) : Outcome :=
  match opening d x.environment args with
  | none => ⟨.usage, "", d⟩
  | some .version => ⟨.done versionText, "", d⟩
  | some .help => ⟨.done "", "", d⟩
  | some (.go _ _ _ []) => ⟨.usage, "", d⟩
  | some (.go debug trace file (name :: rest)) =>
    match CommandName.named? name with
    | some cmd => start x d (logging debug trace file) (greetings debug trace) cmd rest
    | none => match opening d x.environment (name :: rest) with
      | some .version => ⟨.done versionText, "", d⟩
      | some .help => ⟨.done "", "", d⟩
      | _ => ⟨.usage, "", d⟩

end BlockTree.CommandLine

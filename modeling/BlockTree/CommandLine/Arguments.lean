import BlockTree.CommandLine.Disk
import BlockTree.Substitutor.Plugin

/-! Arguments of the command line. Options stand before the command, or anywhere behind it; whatever
does not fit is a mistake in the usage. -/
namespace BlockTree.CommandLine

structure Scanned where
  options : List (String × Option String)
  rest : List String

namespace Scanned

def option (name : String) (value : Option String) (s : Scanned) : Scanned :=
  { s with options := (name, value) :: s.options }

def positional (a : String) (s : Scanned) : Scanned := { s with rest := a :: s.rest }

def cut (a : String) : String × Option String :=
  let cs := a.toList
  match cs.dropWhile (· ≠ '=') with
  | [] => (a, none)
  | _ :: value => (String.ofList (cs.takeWhile (· ≠ '=')), some (String.ofList value))

def isOption (a : String) : Bool := a.startsWith "-" && a ≠ "-"

/-- Scans for the options of `known`, which tells those that take a value. Two dashes end the
options; unless `mixed`, so does the first other argument. -/
def scan (known : List (String × Bool)) (mixed : Bool) : List String → Option Scanned
  | [] => some ⟨[], []⟩
  | a :: rest =>
    if a = "--" then some ⟨[], rest⟩
    else if isOption a then
      let (name, joined) := cut a
      match known.lookup name, joined, rest with
      | some true, some v, rest => (scan known mixed rest).map (option name (some v))
      | some true, none, v :: rest => (scan known mixed rest).map (option name (some v))
      | some false, none, rest => (scan known mixed rest).map (option name none)
      | _, _, _ => none
    else if mixed then (scan known mixed rest).map (positional a)
    else some ⟨[], a :: rest⟩

variable (s : Scanned)

def values (name : String) : List String :=
  s.options.filterMap fun o => if o.1 = name then o.2 else none

/-- Of several values of an option the last one counts. -/
def value? (name : String) : Option String := (s.values name).getLast?

def isOn (name opposite : String) : Bool :=
  ((s.options.filter fun o => o.1 = name || o.1 = opposite).getLast?.map (·.1)) = some name

end Scanned

/-- The environment variables that count; an empty one is not set. -/
structure Environment where
  logFile : Option String
  substitutions : Option String

def Environment.set? (v : Option String) : Option String := v.filter (· ≠ "")

inductive Format
  | text | json | yaml
deriving DecidableEq, Repr

def Format.named? : String → Option Format
  | "text" => some .text
  | "json" => some .json
  | "yaml" => some .yaml
  | _ => none

inductive Opening
  | version
  | help
  | go (debug trace : Bool) (logFile : Option String) (rest : List String)
deriving Repr

inductive Command
  | help
  | render (definition : String) (modules : List String) (format : Format)
      (output : Option String)
  | source (definition : String)
  | inspect (definition : String)
deriving Repr

inductive CommandName
  | render | source | inspect
deriving DecidableEq, Repr

def CommandName.named? : String → Option CommandName
  | "render" => some .render
  | "source" => some .source
  | "inspect" => some .inspect
  | _ => none

variable (d : Disk)

def mayBeFile (path : String) : Bool :=
  match d.find path with
  | .directory => false
  | _ => true

def isPresent (path : String) : Bool :=
  match d.find path with
  | .file .. => true
  | _ => false

def openingOptions : List (String × Bool) := [("--debug", false), ("--no-debug", false),
  ("--trace", false), ("--no-trace", false), ("--log-file", true), ("--version", false),
  ("--help", false)]

/-- Reads the options before the command. Of version and help the first one asked for wins over all
that follows. -/
def opening (env : Environment) (args : List String) : Option Opening := do
  if args.isEmpty then none
  let s ← Scanned.scan openingOptions false args
  match s.options.find? fun o => o.1 = "--version" || o.1 = "--help" with
  | some (name, _) => return if name = "--version" then .version else .help
  | none =>
    let file := (s.value? "--log-file").or (Environment.set? env.logFile)
    if file.all (mayBeFile d) then
      return .go (s.isOn "--debug" "--no-debug") (s.isOn "--trace" "--no-trace")
        (file.filter (· ≠ "")) s.rest
    else none

def commandOptions : CommandName → List (String × Bool)
  | .render => [("--substitutions", true), ("--format", true), ("--output", true),
      ("--help", false)]
  | _ => [("--help", false)]

def modules (env : Environment) (s : Scanned) : List String :=
  match s.values "--substitutions", Environment.set? env.substitutions with
  | [], some v => Plugin.splitNames (Text.words v)
  | vs, _ => Plugin.splitNames vs

def command (env : Environment) (name : CommandName) (args : List String) : Option Command := do
  let s ← Scanned.scan (commandOptions name) true args
  if s.options.any (·.1 = "--help") then return .help
  let [definition] := s.rest | none
  unless isPresent d definition do none
  match name with
  | .source => return .source definition
  | .inspect => return .inspect definition
  | .render =>
    let format ← Format.named? ((s.value? "--format").getD "text")
    let output := s.value? "--output"
    unless output.all (mayBeFile d) do none
    return .render definition (modules env s) format (output.filter (· ≠ ""))

end BlockTree.CommandLine

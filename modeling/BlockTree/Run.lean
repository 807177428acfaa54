import BlockTree.Failure

/-! Computations that log, act on the state of the substitutions, and may fail. Log and state
survive a failure. -/
namespace BlockTree

inductive Level
  | trace | debug | info | warning
deriving DecidableEq, Repr

def Level.name : Level → String
  | .trace => "TRACE"
  | .debug => "DEBUG"
  | .info => "INFO"
  | .warning => "WARNING"

def Level.rank : Level → Nat
  | .trace => 1
  | .debug => 10
  | .info => 20
  | .warning => 30

inductive Notice
  | traceOn
  | debugOn
  | unknownSubstitution (name : Value)
  | loaded (plugin : String) (names : List String)
  | unrendered (path : List Nat) (model : ContentModel) (context : Value) (count : Nat)
  | built (count : Nat)
deriving Repr

namespace Notice

def level : Notice → Level
  | .traceOn | .debugOn | .loaded .. | .built _ => .debug
  | .unknownSubstitution _ | .unrendered .. => .warning

def message : Notice → String
  | .traceOn => "Trace mode is on"
  | .debugOn => "Debug mode is on"
  | .unknownSubstitution name => "Unknown substitution type " ++ name.literal ++ "; skipping"
  | .loaded plugin names =>
    "Loaded " ++ Decimal.natText names.length ++ " substitutions from " ++ plugin ++ ": " ++
      ", ".intercalate names
  | .unrendered path model context count =>
    pathText path ++ ": " ++ model.name ++ " block " ++ context.literal ++ " has " ++
      Decimal.natText count ++ " nested blocks that will not be rendered"
  | .built count => "Built document with " ++ Decimal.natText count ++ " top-level blocks"

end Notice

/-- The state `σ` that substitutions act on, and the log in order. -/
structure Effects (σ : Type) where
  state : σ
  log : List Notice

abbrev Run (σ : Type) := ExceptT Failure (StateM (Effects σ))

abbrev Substitution (σ : Type) := String → ExceptT Failure (StateM σ) String

namespace Run

variable {σ : Type} {α : Type}

def note (n : Notice) : Run σ Unit := modify fun e => { e with log := e.log ++ [n] }

def act (x : ExceptT Failure (StateM σ) α) : Run σ α :=
  ExceptT.mk fun e => let (r, s) := x.run e.state; (r, { e with state := s })

def ofExcept : Except Failure α → Run σ α
  | .ok a => pure a
  | .error f => throw f

@[simp]
theorem note_run (n : Notice) (e : Effects σ) :
    (note n : Run σ Unit).run e = (.ok (), { e with log := e.log ++ [n] }) := rfl

@[simp]
theorem act_run (x : ExceptT Failure (StateM σ) α) (e : Effects σ) :
    (act x : Run σ α).run e =
      ((x.run e.state).1, { e with state := (x.run e.state).2 }) := rfl

end Run

end BlockTree

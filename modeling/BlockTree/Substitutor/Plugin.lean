import BlockTree.Substitutor

/-! Plugins: modules that export a mapping of names to substitutions, found by their dotted name. -/
namespace BlockTree

structure Plugin (σ : Type) where
  name : String
  exports : Option (List (String × Offer σ))

namespace Plugin

variable {σ : Type}

def parent? (name : String) : Option String :=
  match name.toList.reverse.dropWhile (· ≠ '.') with
  | [] => none
  | _ :: rest => some (String.ofList rest.reverse)

/-- Why a module that is not present cannot be found: its nearest missing parent is named, or a
parent that has no parts. -/
def missing (present : List String) : Nat → String → Failure
  | 0, name => .noModule name
  | fuel + 1, name => match parent? name with
    | none => .noModule name
    | some "" => .noModule name
    | some p => if p ∈ present then .notPackage name p else missing present fuel p

/-- The last module of a name counts. Names with a dot in front stand for nothing outside a package.
-/
def find (plugins : List (Plugin σ)) (name : String) : Except Failure (Plugin σ) :=
  if name.startsWith "." then .error (.relativeModule name)
  else match plugins.reverse.find? (·.name == name) with
    | some p => .ok p
    | none =>
      if name = "" then .error .unnamedModule
      else .error (missing (plugins.map (·.name)) name.length name)

def exported (plugins : List (Plugin σ)) (name : String) :
    Except Failure (List (String × Offer σ)) := do
  let p ← find plugins name
  match p.exports with
  | some es => return Substitutor.mapping es
  | none => throw (.noSubstitutions name)

/-- Registers all that a module exports, and notes it. What was registered before an offer that
cannot be called stays registered. -/
def load (plugins : List (Plugin σ)) (name : String) (s : Substitutor σ) :
    Substitutor σ × Except Failure Notice :=
  match exported plugins name with
  | .error f => (s, .error f)
  | .ok es =>
    let (s, r) := s.registerAll es
    (s, r.map fun _ => .loaded name (es.map (·.1)))

def loadAll (plugins : List (Plugin σ)) :
    List String → Substitutor σ → ExceptT (String × Failure) (StateM (Effects σ)) (Substitutor σ)
  | [], s => pure s
  | name :: rest, s => match load plugins name s with
    | (_, .error f) => throw (name, f)
    | (s, .ok n) => do
      modify fun e => { e with log := e.log ++ [n] }
      loadAll plugins rest s

def splitNames (lists : List String) : List String :=
  lists.flatMap fun s =>
    ((s.toList.splitOn ',').map fun cs => Text.strip (String.ofList cs)).filter (· ≠ "")

end Plugin

end BlockTree

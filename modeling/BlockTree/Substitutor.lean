import BlockTree.Run
import BlockTree.Text.Lines

/-! The registry of named substitutions and its application to text and to lines. -/
namespace BlockTree

inductive Offer (σ : Type)
  | callable (f : Substitution σ)
  | inert

structure Substitutor (σ : Type) where
  entries : List (String × Substitution σ)

namespace Substitutor

variable {σ : Type}

def empty : Substitutor σ := ⟨[]⟩

def names (s : Substitutor σ) : List String := s.entries.map (·.1)

def find? (s : Substitutor σ) (name : String) : Option (Substitution σ) := s.entries.lookup name

/-- Binds a name, in its old place if it has one. -/
def bind (name : String) (f : Substitution σ) :
    List (String × Substitution σ) → List (String × Substitution σ)
  | [] => [(name, f)]
  | (n, g) :: es => if n = name then (n, f) :: es else (n, g) :: bind name f es

def register (s : Substitutor σ) (name : String) : Offer σ → Except Failure (Substitutor σ)
  | .callable f => .ok ⟨bind name f s.entries⟩
  | .inert => .error (.notCallable name)

def unregister (s : Substitutor σ) (name : String) : Substitutor σ :=
  ⟨s.entries.filter (·.1 ≠ name)⟩

/-- Registers from the left; the first offer that cannot be called ends it, and what came before
stays. -/
def registerAll (s : Substitutor σ) :
    List (String × Offer σ) → Substitutor σ × Except Failure Unit
  | [] => (s, .ok ())
  | (name, o) :: rest => match s.register name o with
    | .ok s => s.registerAll rest
    | .error f => (s, .error f)

/-- The mapping under a list: of offers with one name the last counts, in the first place. -/
def mapping : List (String × Offer σ) → List (String × Offer σ) :=
  List.foldl (fun es e => put e.1 e.2 es) []
where
  put (name : String) (o : Offer σ) : List (String × Offer σ) → List (String × Offer σ)
    | [] => [(name, o)]
    | (n, p) :: es => if n = name then (n, o) :: es else (n, p) :: put name o es

def ofList (offers : List (String × Offer σ)) : Except Failure (Substitutor σ) :=
  let (s, r) := empty.registerAll (mapping offers)
  r.map fun _ => s

/-- Applies the substitution of that name; an unknown name is noted and passed over. -/
def step (s : Substitutor σ) (text name : String) : Run σ String :=
  match s.find? name with
  | some f => .act (f text)
  | none => do
    .note (.unknownSubstitution (.str name))
    return text

def applyText (s : Substitutor σ) (text : String) (names : List String) : Run σ String :=
  names.foldlM s.step text

def applyLines (s : Substitutor σ) (lines names : List String) : Run σ (List String) :=
  if names.isEmpty then pure lines
  else if lines.isEmpty then pure []
  else return Text.splitFeeds (← s.applyText (Text.joinLines lines) names)

end Substitutor

end BlockTree

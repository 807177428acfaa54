import BlockTree.Failure

/-! Values with identity. Lists and mappings are cells that are named by their numbers, so that one
may stand at several places, also inside itself. -/
namespace BlockTree

/-- What stands at a place: a value that holds no other, a date that may stand at several places, or
a cell. -/
inductive Part
  | plain (v : Value)
  | dated (label : Nat) (v : Value)
  | cell (n : Nat)
deriving Repr, Inhabited

def Part.label : Part → Option Nat
  | .plain _ => none
  | .dated l _ => some l
  | .cell n => some n

inductive Cell
  | list (items : List Part)
  | pair (first second : Part)
  | map (entries : List (Part × Part))
  | set (items : List Part)
deriving Repr, Inhabited

abbrev Cells := Array Cell

structure Graph where
  cells : Cells
  root : Part
deriving Repr, Inhabited

namespace Cells

/-- The cell of a number; beyond the last there are empty lists. -/
def cell (cells : Cells) (n : Nat) : Cell := cells.getD n (.list [])

def add (c : Cell) : StateM Cells Part := do
  let cells ← get
  set (cells.push c)
  return .cell cells.size

mutual
/-- Makes cells of a value of which every part stands for itself. -/
def ofValue : Value → StateM Cells Part
  | .list vs => do add (.list (← ofValues vs))
  | .map es => do add (.map (← ofEntries es))
  | .pair a b => do add (.pair (← ofValue a) (← ofValue b))
  | .set vs => do add (.set (← ofValues vs))
  | v => return .plain v

def ofValues : List Value → StateM Cells (List Part)
  | [] => return []
  | v :: vs => return (← ofValue v) :: (← ofValues vs)

def ofEntries : List (Value × Value) → StateM Cells (List (Part × Part))
  | [] => return []
  | (k, v) :: es => return (← ofValue k, ← ofValue v) :: (← ofEntries es)
end

def each (cells : Cells) : Part → List Part
  | .plain (.str s) => s.toList.map fun c => .plain (.str (String.singleton c))
  | .plain (.ragged t) => t.codes.map fun c => .plain (.ofCodes [c])
  | .plain (.bytes bs) => bs.map fun b => .plain (.int b.toNat)
  | .plain _ | .dated .. => []
  | .cell n => match cells.cell n with
    | .list ps | .set ps => ps
    | .pair a b => [a, b]
    | .map es => es.map (·.1)

def entries (cells : Cells) : Part → List (Part × Part)
  | .cell n => match cells.cell n with
    | .map es => es
    | _ => []
  | _ => []

def isName (name : String) : Part → Bool
  | .plain (.str s) => s == name
  | _ => false

def lookup (cells : Cells) (p : Part) (name : String) : Part :=
  (((cells.entries p).find? fun e => isName name e.1).map (·.2)).getD (.plain .null)

end Cells

def Graph.ofValue (v : Value) : Graph :=
  let (root, cells) := (Cells.ofValue v).run #[]
  ⟨cells, root⟩

end BlockTree

import BlockTree.Graph

/-! The values that graphs stand for. A cell inside itself is cut off there. What was cut depends on
where the unfolding began, so each field of a block definition is unfolded on its own. -/
namespace BlockTree

abbrev Unfolded := Array (Option Value)

namespace Cells

def gather {α : Type} (xs : List (α × Bool)) : List α × Bool := (xs.map (·.1), xs.all (·.2))

variable (cells : Cells)

/-- The value of a part inside the cells of `above`, and whether nothing was cut off. Whole values
are kept, since they look the same everywhere. A cell is not entered twice on the way down, so their
number bounds the depth. -/
def unfoldIn : Nat → List Nat → Part → StateM Unfolded (Value × Bool)
  | _, _, .plain v | _, _, .dated _ v => return (v, true)
  | 0, _, .cell _ => return (.null, false)
  | fuel + 1, above, .cell n => do
    if above.contains n then
      return (.again (cells.cell n matches .map _), false)
    match (← get).getD n none with
    | some v => return (v, true)
    | none =>
      let below := unfoldIn fuel (n :: above)
      let (v, whole) ← match cells.cell n with
        | .list ps => do
          let (vs, whole) := gather (← ps.mapM below)
          pure (Value.list vs, whole)
        | .set ps => do
          let (vs, whole) := gather (← ps.mapM below)
          pure (Value.set vs, whole)
        | .pair a b => do
          let (v, w) := (← below a, ← below b)
          pure (Value.pair v.1 w.1, v.2 && w.2)
        | .map es => do
          let (es, whole) := gather (← es.mapM fun e => do
            let (k, v) := (← below e.1, ← below e.2)
            pure ((k.1, v.1), k.2 && v.2))
          pure (Value.map es, whole)
      if whole then modify (·.setIfInBounds n (some v))
      return (v, whole)

def unfold (p : Part) : StateM Unfolded Value := do
  return (← cells.unfoldIn (cells.size + 1) [] p).1

def folded : Unfolded := Array.replicate cells.size none

def valueOf (p : Part) : Value := ((cells.unfold p).run cells.folded).1

def unfoldItems (f : Part → StateM Unfolded Value) (p : Part) : StateM Unfolded Value := do
  match p with
  | .cell n => match cells.cell n with
    | .list ps => return .list (← ps.mapM f)
    | _ => cells.unfold p
  | _ => cells.unfold p

/-- A block definition inside the definitions of `above`: its fields each on its own, and the
definitions of its own blocks. -/
def unfoldBlock : Nat → List Nat → Part → StateM Unfolded Value
  | 0, _, _ => return .again true
  | fuel + 1, above, p => do
    match p with
    | .cell n => match cells.cell n with
      | .map es =>
        if above.contains n then return .again true
        return .map (← es.mapM fun (k, v) => do
          let v ← if isName "blocks" k then
              cells.unfoldItems (unfoldBlock fuel (n :: above)) v
            else cells.unfold v
          return (← cells.unfold k, v))
      | _ => cells.unfold p
    | _ => cells.unfold p

end Cells

namespace Graph

variable (g : Graph)

def value : Except Failure Value :=
  match ((g.cells.unfoldIn (g.cells.size + 1) [] g.root).run g.cells.folded).1 with
  | (v, true) => .ok v
  | (_, false) => .error .endless

/-- The value as the definition of a document: pairs of attributes and definitions of blocks each on
their own. -/
def definition : Value :=
  let fields := (g.cells.entries g.root).mapM fun (k, v) => do
    let v ← if Cells.isName "blocks" k then
        g.cells.unfoldItems (g.cells.unfoldBlock (g.cells.size + 1) []) v
      else if Cells.isName "attributes" k then g.cells.unfoldItems g.cells.unfold v
      else g.cells.unfold v
    return (← g.cells.unfold k, v)
  .map (fields.run g.cells.folded).1

end Graph

end BlockTree

import BlockTree.Export
import BlockTree.Graph.Unfolded

/-! Exports with identity: attributes hold the very parts that they hold in the definition. -/
namespace BlockTree

namespace Cells

variable (cells : Cells)

def put (k v : Part) : List (Part × Part) → List (Part × Part)
  | [] => [(k, v)]
  | (k', v') :: es =>
    if (cells.valueOf k').same (cells.valueOf k) then (k', v) :: es else (k', v') :: put k v es

def attributes (p : Part) : List (Part × Part) :=
  match cells.entries p with
  | [] => (cells.each p).foldl (fun es item => match cells.each item with
    | [k, v] => cells.put k v es
    | _ => es) []
  | es => es

def text (s : String) : Part := .plain (.str s)

def record (fields : List (String × Part)) : StateM Cells Part :=
  add (.map (fields.map fun f => (text f.1, f.2)))

end Cells

namespace Exported

open Cells (text)

variable (cells : Cells)

mutual
def part (d : Part) : Exported → StateM Cells Part
  | .node f content blocks => do
    let attributes ← Cells.add (.map (cells.attributes (cells.lookup d "attributes")))
    let subs ← Cells.add (.list (f.subs.map text))
    let inner ← parts (cells.each (cells.lookup d "blocks")) blocks
    let blocks ← Cells.add (.list inner)
    Cells.record (blockFields (text f.context) (text f.model.name) (.plain (.ofText? f.style))
      (.plain (.ofText? f.id)) (.plain (.ofText? f.title)) attributes subs
      (text (Text.joinLines f.lines)) (.plain (.ofText? content)) blocks)

def parts (ds : List Part) : List Exported → StateM Cells (List Part)
  | [] => return []
  | e :: es => return (← part (ds.headD (.plain .null)) e) :: (← parts ds.tail es)
end

end Exported

def ExportedDocument.graph (g : Graph) (x : ExportedDocument) : Graph :=
  let part : StateM Cells Part := do
    let attributes ← Cells.add (.map (g.cells.attributes (g.cells.lookup g.root "attributes")))
    let inner ← Exported.parts g.cells (g.cells.each (g.cells.lookup g.root "blocks")) x.blocks
    let blocks ← Cells.add (.list inner)
    Cells.record (documentFields attributes (Cells.text x.content) blocks)
  let (root, cells) := part.run g.cells
  ⟨cells, root⟩

end BlockTree

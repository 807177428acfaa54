import BlockTree.Tree

/-! One-line summaries of blocks, and the outline of a tree by indentation. -/
namespace BlockTree

/-- The summary of a block; `count` names what is counted. The address of a node is written `ID`. -/
def summaryText (name context model style count : String) : String :=
  name ++ "@ID \x7b context: " ++ context ++ ", content_model: " ++ model ++ ", style: " ++ style ++
    ", " ++ count ++ " \x7d"

def countText (model : ContentModel) (blocks lines : Nat) : String :=
  if model = .compound then "blocks: " ++ Decimal.natText blocks
  else "lines: " ++ Decimal.natText lines

namespace Block

def summary : Block → String
  | .node f bs => summaryText "Block" (Text.quote f.context) (Text.quote f.model.name)
      (match f.style with | some s => Text.quote s | none => Value.null.literal)
      (countText f.model bs.length f.lines.length)

mutual
def outline (depth : Nat) : Block → List String
  | .node f bs =>
    (String.ofList (List.replicate (2 * depth) ' ') ++ (Block.node f bs).summary) ::
      outlines (depth + 1) bs

def outlines (depth : Nat) : List Block → List String
  | [] => []
  | b :: bs => b.outline depth ++ outlines depth bs
end

end Block

end BlockTree

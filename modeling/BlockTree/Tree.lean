import BlockTree.Value

/-! Trees of blocks. A block keeps its lines whatever its content model; children of a block that is
not compound are kept as well, but never rendered. -/
namespace BlockTree

structure Fields where
  context : String
  model : ContentModel
  style : Option String
  id : Option String
  title : Option String
  attributes : Entries
  subs : List String
  lines : List String
deriving Repr, Inhabited

inductive Block
  | node (fields : Fields) (children : List Block)
deriving Repr, Inhabited

structure Document where
  attributes : Entries
  blocks : List Block
deriving Repr, Inhabited

namespace Block

def fields : Block → Fields
  | .node f _ => f

def children : Block → List Block
  | .node _ bs => bs

mutual
def preorder : Block → List Block
  | .node f bs => .node f bs :: preorderAll bs

def preorderAll : List Block → List Block
  | [] => []
  | b :: bs => b.preorder ++ preorderAll bs
end

end Block

end BlockTree

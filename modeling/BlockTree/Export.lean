import BlockTree.Render

/-! Exports: a tree as plain data, each block with its source and its rendered content. -/
namespace BlockTree

inductive Exported
  | node (fields : Fields) (content : Option String) (blocks : List Exported)
deriving Repr, Inhabited

structure ExportedDocument where
  attributes : Entries
  content : String
  blocks : List Exported
deriving Repr, Inhabited

def Value.ofText? : Option String → Value
  | some s => .str s
  | none => .null

def blockFields {α : Type}
    (context model style id title attributes subs source content blocks : α) : List (String × α) :=
  [("context", context), ("content_model", model), ("style", style), ("id", id), ("title", title),
    ("attributes", attributes), ("subs", subs), ("source", source), ("content", content),
    ("blocks", blocks)]

def documentFields {α : Type} (attributes content blocks : α) : List (String × α) :=
  [("attributes", attributes), ("content", content), ("blocks", blocks)]

def Value.record (fields : List (String × Value)) : Value :=
  .map (fields.map fun f => (.str f.1, f.2))

namespace Block

variable {m : Type → Type}

mutual
/-- Renders the block and then exports its children, whether they are rendered or not. -/
def exported [Monad m] (p : Pipeline m) : Block → m Exported
  | .node f bs => do
    let c ← (Block.node f bs).content p
    return .node f c (← exportedAll p bs)

def exportedAll [Monad m] (p : Pipeline m) : List Block → m (List Exported)
  | [] => pure []
  | b :: bs => do
    let e ← b.exported p
    let es ← exportedAll p bs
    return e :: es
end

end Block

def Document.exported {m : Type → Type} [Monad m] (p : Pipeline m) (d : Document) :
    m ExportedDocument := do
  let content ← d.render p
  return ⟨d.attributes, content, ← Block.exportedAll p d.blocks⟩

namespace Exported

mutual
def toValue : Exported → Value
  | .node f content blocks =>
    .record (blockFields (.str f.context) (.str f.model.name) (.ofText? f.style) (.ofText? f.id)
      (.ofText? f.title) (.map f.attributes) (.list (f.subs.map .str))
      (.str (Text.joinLines f.lines)) (.ofText? content) (.list (toValues blocks)))

def toValues : List Exported → List Value
  | [] => []
  | e :: es => e.toValue :: toValues es
end

end Exported

def ExportedDocument.toValue (d : ExportedDocument) : Value :=
  .record (documentFields (.map d.attributes) (.str d.content)
    (.list (Exported.toValues d.blocks)))

end BlockTree

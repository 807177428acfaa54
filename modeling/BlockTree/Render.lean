import BlockTree.Substitutor
import BlockTree.Tree

/-! Rendering: a pipeline turns the lines of each block into its content, and compound blocks join
the content of their children. -/
namespace BlockTree

variable {m : Type → Type}

/-- A pipeline takes the names to apply and a text, or a list of lines. -/
structure Pipeline (m : Type → Type) where
  text : List String → String → m String
  lines : List String → List String → m (List String)

namespace Pipeline

def detached [Monad m] : Pipeline m where
  text _ s := pure s
  lines _ ls := pure ls

def ofSubstitutor {σ : Type} (s : Substitutor σ) : Pipeline (Run σ) where
  text names t := s.applyText t names
  lines names ls := s.applyLines ls names

end Pipeline

/-- Joined lines without the blank ones at both ends. A single line is left alone, and no line at
all is no content. -/
def lineContent : List String → Option String
  | [] => none
  | [l] => some l
  | ls => some (Text.joinLines (Text.trimEnds Text.isBlank ls))

namespace Block

def ownContent [Monad m] (p : Pipeline m) (f : Fields) : m (Option String) :=
  match f.model with
  | .simple => return some (← p.text f.subs (Text.joinLines f.lines))
  | .verbatim | .raw => return lineContent (← p.lines f.subs f.lines)
  | .compound | .empty => pure none

mutual
def content [Monad m] (p : Pipeline m) : Block → m (Option String)
  | .node f bs =>
    if f.model = .compound then return some (Text.joinLines (← contents p bs))
    else ownContent p f

def contents [Monad m] (p : Pipeline m) : List Block → m (List String)
  | [] => pure []
  | b :: bs => do
    let c ← b.content p
    let cs ← contents p bs
    return c.toList ++ cs
end

def source (b : Block) : String := Text.joinLines b.fields.lines

end Block

def Document.render [Monad m] (p : Pipeline m) (d : Document) : m String :=
  return Text.joinLines (← Block.contents p d.blocks)

namespace Block

mutual
/-- The number of compound blocks on the longest way down that leads through them alone. -/
def height : Block → Nat
  | .node f bs => if f.model = .compound then heights bs + 1 else 0

def heights : List Block → Nat
  | [] => 0
  | b :: bs => max b.height (heights bs)
end

end Block

/-- The program renders documents down to this many compound blocks. Building and exporting a
document are taken to have no such limit. -/
def Document.heightLimit : Nat := 195

def Document.checkHeight (d : Document) : Except Failure Unit :=
  if Document.heightLimit < Block.heights d.blocks then .error .endless else .ok ()

end BlockTree

import BlockTree.Graph
import BlockTree.Yaml.Node.Grammar

/-! Reading YAML: the only document of a text as a graph. Collections are filled one after the other
in the order in which they are met, and what is wrong with one comes up when its turn has come. -/
namespace BlockTree.Yaml

/-- The table of nodes with the number of merge entries that it began with, the parts made of them
so far, the cells, and the collections in the order in which they were met. -/
structure Building where
  nodes : Nodes
  merges : Nat
  parts : Array (Option Part)
  cells : Cells
  met : Array Address

namespace Building

abbrev Build := StateT Building (Except Failure)

def setCell (a : Address) (c : Cell) : Build Unit :=
  modify fun b => { b with cells := b.cells.setIfInBounds a c }

/-- The part of a scalar. Its text is looked for even where it shows nothing, and a timestamp must
be a scalar itself. -/
def scalarPart (ns : Nodes) (a : Address) : Except Failure Part := do
  let n := ns.node a
  if [.merge, .value, .foreign].contains n.tag then throw .yaml
  let text ← ns.text (ns.size + 1) a
  if n.tag = .timestamp && ns.isMapping a then throw .notText
  if let (.str, .ragged t) := (n.tag, n.content) then return .plain (.ragged t)
  match ← Tag.scalar (a + 1) text n.tag with
  | .date d => return .dated a (.date d)
  | .datetime t => return .dated a (.datetime t)
  | v => return .plain v

def part (a : Address) : Build Part := do
  let b ← get
  match b.parts.getD a none with
  | some p => return p
  | none =>
    let p ← if (b.nodes.tag a).isCollection then do
        modify fun b => { b with met := b.met.push a }
        pure (.cell a)
      else scalarPart b.nodes a
    modify fun b => { b with parts := b.parts.setIfInBounds a (some p) }
    return p

def put (k v : Part) (key : Value) : List (Value × Part × Part) → List (Value × Part × Part)
  | [] => [(key, k, v)]
  | e :: es => if e.1.same key then (e.1, e.2.1, v) :: es else e :: put k v key es

def spread (a : Address) : Build Unit := fun b => do
  let (nodes, b) := (b.nodes, { b with nodes := #[] })
  let ((), nodes) ← (Nodes.spread (b.merges + 1) a).run nodes
  return ((), { b with nodes })

def entries (a : Address) : Build (List (Part × Part)) := do
  spread a
  let es ← ((← get).nodes.entries a).foldlM (fun es e => do
    let k ← part e.1
    match k with
    | .plain key | .dated _ key => return put k (← part e.2) key es
    | .cell _ => throw .yaml) []
  return es.map (·.2)

def pair (a : Address) : Build Part := do
  match (← get).nodes.entries a with
  | [(k, v)] => do
    let c := Cell.pair (← part k) (← part v)
    let b ← get
    let (p, cells) := (Cells.add c).run b.cells
    set { b with cells }
    return p
  | _ => throw .yaml

def fill (a : Address) : Build Unit := do
  let n := (← get).nodes.node a
  match n.tag, n.content with
  | .seq, .sequence items => setCell a (.list (← items.mapM part))
  | .omap, .sequence items | .pairs, .sequence items => setCell a (.list (← items.mapM pair))
  | .map, .mapping _ => setCell a (.map (← entries a))
  | .set, .mapping _ => setCell a (.set ((← entries a).map (·.1)))
  | _, _ => throw .yaml

/-- Fills the collections from the one met at `i` on. Each is met once, so the number of nodes
bounds the steps. -/
def fillFrom (i : Nat) : Nat → Build Unit
  | 0 => return
  | fuel + 1 => do
    match (← get).met[i]? with
    | none => return
    | some a =>
      fill a
      fillFrom (i + 1) fuel

def graph (root : Address) : Build Graph := do
  let p ← part root
  fillFrom 0 ((← get).nodes.size + 1)
  return ⟨(← get).cells, p⟩

end Building

def Nodes.graph (ns : Nodes) (root : Address) : Except Failure Graph :=
  let start : Building :=
    ⟨ns, ns.mergeCount, Array.replicate ns.size none, Array.replicate ns.size (.list []), #[]⟩
  ((Building.graph root).run start).map (·.1)

/-- Reads a text whose line breaks are line feeds. A text without a document is null. -/
def read (s : String) : Except Failure Graph := do
  let cs := s.toList
  unless cs.all isAllowed do throw .yaml
  match ← Node.ofTokens? (Token.ofChars cs) with
  | none => return ⟨#[], .plain .null⟩
  | some (ns, root) => ns.graph root

end BlockTree.Yaml

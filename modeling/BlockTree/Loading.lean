import BlockTree.Text.Lines
import BlockTree.Yaml.Node.Graph

/-! Definition files: the suffix of the name decides between JSON and YAML. -/
namespace BlockTree.Loading

def pathParts (path : String) : List String :=
  ((path.toList.splitOn '/').map String.ofList).filter fun p => p ≠ "" && p ≠ "."

def plainPath (path : String) : String :=
  let parts := "/".intercalate (pathParts path)
  if path.startsWith "/" then "/" ++ parts else if parts = "" then "." else parts

/-- The last part of a name from its last dot on; a dot at either end of the name makes none. -/
def suffix (path : String) : String :=
  let name := ((pathParts path).getLast?.getD "").toList
  let after := name.reverse.takeWhile (· ≠ '.')
  if after.isEmpty || name.length ≤ after.length + 1 then ""
  else String.ofList ('.' :: after.reverse)

def text (bytes : ByteArray) : Except Failure String :=
  match String.fromUTF8? bytes with
  | some s => .ok (String.ofList (Text.unifyBreaks s.toList))
  | none => .error .encoding

/-- The definition in a file; an empty one has no entries, and other values than mappings are
refused. -/
def definition (dialect : Json.Dialect) (path : String) (bytes : ByteArray) :
    Except Failure Graph := do
  let s ← text bytes
  let g ← if suffix path = ".json" then (Json.read dialect s).map .ofValue else Yaml.read s
  match g.root with
  | .plain .null => return .ofValue (.map [])
  | .cell n => match g.cells.cell n with
    | .map _ => return g
    | _ => throw (.notDefinition (plainPath path))
  | _ => throw (.notDefinition (plainPath path))

end BlockTree.Loading

import BlockTree.Failure
import BlockTree.Json.Dialect

/-! Writing values as JSON, on one line or with two spaces of indentation for each level. -/
namespace BlockTree.Json

def escapeChar (c : Char) : List Char :=
  match escapes.lookup c with
  | some name => ['\\', name]
  | none => if c.toNat < 0x20 then '\\' :: 'u' :: Text.hexDigits c.toNat 4 else [c]

def quoted (s : String) : List Char := '"' :: s.toList.flatMap escapeChar ++ ['"']

/-- A ragged text between quotes, in which a half is written by its digits. The narrow dialect has
no form for it. -/
def raggedForm (d : Dialect) (t : Text.Ragged) : Except Failure (List Char) :=
  match d with
  | .narrow => .error .ragged
  | .wide => .ok ('"' :: t.codes.flatMap (Text.Code.spelled escapeChar) ++ ['"'])

def intForm (d : Dialect) (n : Int) : Except Failure (List Char) :=
  if !d.admitsInt n then .error .wideInteger
  else if (Value.int n).writable then .ok (Decimal.intText n).toList
  else .error .longInteger

inductive Setting
  | line
  | indented (depth : Nat)
deriving DecidableEq, Repr

def Setting.deeper : Setting → Setting
  | .line => .line
  | .indented n => .indented (n + 1)

def Setting.gap : Setting → List Char
  | .line => []
  | .indented n => '\n' :: List.replicate (2 * n) ' '

def Setting.comma (d : Dialect) : Setting → List Char
  | .line => d.comma
  | .indented n => ',' :: (Setting.indented n).gap

def Setting.colon (d : Dialect) : Setting → List Char
  | .line => d.colon
  | .indented _ => [':', ' ']

def enclose (d : Dialect) (s : Setting) (l r : Char) (outer : Setting) :
    List (List Char) → List Char
  | [] => [l, r]
  | items => l :: (s.gap ++ (s.comma d).intercalate items ++ outer.gap ++ [r])

def floatText (d : Dialect) (x : Decimal.Binary64) : List Char :=
  match d, x with
  | .narrow, .inf _ => "null".toList
  | d, x => (d.floats.text x).toList

def shortKind : Value → String
  | .date _ => "date"
  | .datetime _ => "datetime"
  | v => v.kind

def keyText (d : Dialect) (s : Setting) (k : Value) : Except Failure (List Char) :=
  match d, k with
  | _, .str t => .ok (quoted t)
  | d, .ragged t => raggedForm d t
  | .narrow, _ => .error .keyNotText
  | .wide, .null => .ok (quoted "null")
  | .wide, .bool b => .ok (quoted (if b then "true" else "false"))
  | .wide, .int n => return '"' :: (← intForm .wide n) ++ ['"']
  | .wide, .float x => .ok (quoted (String.ofList (floatText d x)))
  | .wide, k => .error (.keyKind (if s = .line then k.kind else shortKind k))

def formless (d : Dialect) (v : Value) : Failure :=
  match d with
  | .narrow => .noForm v.kind
  | .wide => .notEncodable (shortKind v)

def scalarText (d : Dialect) : Value → Except Failure (List Char)
  | .null => .ok "null".toList
  | .bool b => .ok (if b then "true" else "false").toList
  | .int n => intForm d n
  | .float x => .ok (floatText d x)
  | .str s => .ok (quoted s)
  | .ragged t => raggedForm d t
  | .date day => if d = .narrow then .ok (quoted day.text) else .error (formless d (.date day))
  | .datetime t =>
    if d = .narrow then .ok (quoted (t.text "T")) else .error (formless d (.datetime t))
  | .model m => if d = .narrow then .ok (quoted m.name) else .error (formless d (.model m))
  | .again _ => .error (if d = .narrow then .deepJson else .circular)
  | v => .error (formless d v)

def nestingLimit : Dialect → Nat
  | .narrow => 254
  | .wide => 985

def tooNested : Dialect → Failure
  | .narrow => .deepJson
  | .wide => .endless

def enter (d : Dialect) (depth : Nat) : Except Failure Unit :=
  if nestingLimit d ≤ depth then .error (tooNested d) else .ok ()

mutual
def writeChars (d : Dialect) (s : Setting) (depth : Nat) : Value → Except Failure (List Char)
  | .list vs => do
    enter d depth
    return enclose d s.deeper '[' ']' s (← writeItems d s.deeper (depth + 1) vs)
  | .pair v w => do
    enter d depth
    return enclose d s.deeper '[' ']' s
      [← writeChars d s.deeper (depth + 1) v, ← writeChars d s.deeper (depth + 1) w]
  | .map es => do
    enter d depth
    return enclose d s.deeper '\x7b' '\x7d' s (← writeEntries d s.deeper (depth + 1) es)
  | v => scalarText d v

def writeItems (d : Dialect) (s : Setting) (depth : Nat) :
    List Value → Except Failure (List (List Char))
  | [] => .ok []
  | v :: vs => do
    let t ← writeChars d s depth v
    let ts ← writeItems d s depth vs
    return t :: ts

def writeEntries (d : Dialect) (s : Setting) (depth : Nat) :
    List (Value × Value) → Except Failure (List (List Char))
  | [] => .ok []
  | (k, v) :: es => do
    let kt ← keyText d s k
    let vt ← writeChars d s depth v
    let ts ← writeEntries d s depth es
    return (kt ++ s.colon d ++ vt) :: ts
end

def write (d : Dialect) (indent : Bool) (v : Value) : Except Failure String :=
  return String.ofList (← writeChars d (if indent then .indented 0 else .line) 0 v)

end BlockTree.Json

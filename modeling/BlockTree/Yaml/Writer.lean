import BlockTree.Graph
import BlockTree.Yaml.Pen

/-! Writing graphs as YAML in block style. A sequence under a key is not indented, and parts that
occur again are written once, with an anchor. -/
namespace BlockTree.Yaml

def scalarForm : Value → Tag × String × String
  | .null => (.null, "!!null", "null")
  | .bool b => (.bool, "!!bool", if b then "true" else "false")
  | .int n => (.int, "!!int", Decimal.intText n)
  | .float x => (.float, "!!float", floatForm x)
  | .date d => (.timestamp, "!!timestamp", d.text)
  | .datetime t => (.timestamp, "!!timestamp", t.text " ")
  | v => (.str, "!!str", v.text)
where
  /-- An exponent needs a point before it. -/
  floatForm : Decimal.Binary64 → String
    | .nan _ => ".nan"
    | .inf negative => if negative then "-.inf" else ".inf"
    | x =>
      let cs := (Decimal.Layout.standard.text x).toList
      if cs.contains '.' || !cs.contains 'e' then String.ofList cs
      else String.ofList (cs.flatMap fun c => if c = 'e' then ".0e".toList else [c])

/-- Labels met so far, and those met again, in the order in which they were met again. -/
structure Encounters where
  seen : List Nat
  repeated : List Nat

namespace Encounters

def note (e : Encounters) (l : Nat) : Encounters × Bool :=
  if !e.seen.contains l then ({ e with seen := l :: e.seen }, false)
  else if e.repeated.contains l then (e, true)
  else ({ e with repeated := e.repeated ++ [l] }, true)

def depthLimit : Nat := 324

def walk (cells : Cells) : Nat → Encounters → Part → Except Failure Encounters
  | _, e, .plain v => if v.writable then .ok e else .error .longInteger
  | _, e, .dated l _ => .ok (e.note l).1
  | 0, _, .cell _ => .error .endless
  | depth + 1, e, .cell n =>
    let (e, again) := e.note n
    if again then .ok e
    else match cells.cell n with
      | .list ps | .set ps => ps.foldlM (walk cells depth) e
      | .pair a b => [a, b].foldlM (walk cells depth) e
      | .map es => (es.flatMap fun x => [x.1, x.2]).foldlM (walk cells depth) e

end Encounters

structure Writing where
  pen : Pen
  written : List Nat

inductive Anchor
  | none
  | defined (name : String)
  | used (name : String)

namespace Writing

abbrev Labels := List Nat

variable (cells : Cells) (labels : Labels)

def anchorOf (w : Writing) (p : Part) : Anchor :=
  match p.label with
  | .none => .none
  | some l =>
    if labels.contains l then
      let name := "id" ++ padded 3 (labels.idxOf l + 1)
      if w.written.contains l then .used name else .defined name
    else .none

def draw (w : Writing) (f : Pen → Pen) : Writing := { w with pen := f w.pen }

def mark (w : Writing) (s : String) (apart opens : Bool) : Writing :=
  w.draw (·.mark s apart opens)

def scalar? : Part → Option Value
  | .plain v | .dated _ v => some v
  | .cell _ => .none

def isSimpleKey (w : Writing) (p : Part) : Bool :=
  match anchorOf labels w p, scalar? p with
  | .used _, _ => true
  | _, some (.bytes _) | _, .none => false
  | anchor, some v =>
    let (_, tag, text) := scalarForm v
    let anchored := match anchor with
      | .defined name => name.length
      | _ => 0
    anchored + tag.length + text.length < 128 && text ≠ "" && !text.toList.any isBreak

/-- Writes the anchor of a part; what follows is written unless the part was written before. -/
def anchored (w : Writing) (p : Part) (f : Writing → Writing) : Writing :=
  match anchorOf labels w p with
  | .used name => w.mark ("*" ++ name) true false
  | .defined name => f { w.mark ("&" ++ name) true false with
      written := p.label.toList ++ w.written }
  | .none => f w

def bytes (indent : Nat) (bs : List UInt8) (w : Writing) : Writing :=
  let w := w.mark "!!binary" true false
  if bs.isEmpty then w.mark "''" true false
  else w.draw (·.literal indent (Text.Base64.encodeLines bs.length bs))

def scalar (isKey : Bool) (indent : Nat) (v : Value) (w : Writing) : Writing :=
  match v with
  | .bytes bs => w.bytes indent bs
  | v =>
    let (tag, _, text) := scalarForm v
    w.draw (·.scalar isKey indent tag text)

def items (indent : Nat) (item : Part → Writing → Writing) (ps : List Part) (w : Writing) :
    Writing :=
  if ps.isEmpty then w.mark "[]" true false
  else ps.foldl (fun w p => item p ((w.draw (·.indent indent)).mark "-" true true)) w

def entries (indent : Nat) (key part : Part → Writing → Writing) (es : List (Part × Part))
    (w : Writing) : Writing :=
  if es.isEmpty then w.mark "\x7b\x7d" true false
  else es.foldl (fun w e =>
    let w := w.draw (·.indent indent)
    let w := if isSimpleKey labels w e.1 then (key e.1 w).mark ":" false false
      else ((part e.1 (w.mark "?" true true)).draw (·.indent indent)).mark ":" true true
    part e.2 w) w

/-- A part whose lines after the first are indented by `indent`. A sequence under a key on the same
line is not indented. -/
def part : Nat → Bool → Bool → Nat → Part → Writing → Writing
  | 0, _, _, _, _, w => w
  | fuel + 1, isKey, underKey, indent, p, w =>
    anchored labels w p fun w =>
      let column := if underKey && !w.pen.fresh then indent - 2 else indent
      let item := part fuel false false (column + 2)
      let entries := entries labels indent (part fuel true false (indent + 2))
        (part fuel false true (indent + 2))
      match p with
      | .plain v | .dated _ v => w.scalar isKey indent v
      | .cell n => match cells.cell n with
        | .list ps => w.items column item ps
        | .pair a b => w.items column item [a, b]
        | .map es => entries es w
        | .set ps => entries (ps.map fun p => (p, .plain .null)) (w.mark "!!set" true false)

end Writing

def write (g : Graph) : Except Failure String := do
  let e ← Encounters.walk g.cells Encounters.depthLimit ⟨[], []⟩ g.root
  let w := Writing.part g.cells e.repeated (g.cells.size + 2) false false 0 g.root ⟨.start, []⟩
  return (w.pen.indent 0).out

end BlockTree.Yaml

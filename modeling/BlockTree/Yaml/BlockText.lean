import BlockTree.Yaml.Quoted

/-! Literal and folded scalars: lines at one indentation, with a rule for the breaks at the end. -/
namespace BlockTree.Yaml

/-- What is kept of the breaks at the end: all, one, or none. -/
inductive Chomping
  | keep | clip | strip
deriving DecidableEq, Repr

structure BlockHeader where
  chomping : Chomping
  increment : Option Nat

namespace BlockHeader

def chomping? : Char → Option Chomping
  | '+' => some .keep
  | '-' => some .strip
  | _ => none

def increment? (c : Char) : Option Nat :=
  if '1' ≤ c && c ≤ '9' then some (c.toNat - 48) else none

def indicators : List Char → BlockHeader × List Char
  | a :: b :: cs => match chomping? a, increment? b, increment? a, chomping? b with
    | some k, some n, _, _ => (⟨k, some n⟩, cs)
    | some k, none, _, _ => (⟨k, none⟩, b :: cs)
    | _, _, some n, some k => (⟨k, some n⟩, cs)
    | _, _, some n, none => (⟨.clip, some n⟩, b :: cs)
    | _, _, none, _ => (⟨.clip, none⟩, a :: b :: cs)
  | [a] => match chomping? a, increment? a with
    | some k, _ => (⟨k, none⟩, [])
    | _, some n => (⟨.clip, some n⟩, [])
    | _, _ => (⟨.clip, none⟩, [a])
  | [] => (⟨.clip, none⟩, [])

def read (cs : List Char) : Except Failure (BlockHeader × List Char) := do
  let (h, cs) := indicators cs
  if endsField cs then return (h, ← skipLine cs) else throw .yaml

end BlockHeader

structure Blanks where
  breaks : List Char
  column : Nat
  rest : List Char

def blankLines (indent : Nat) (column : Nat) : List Char → Blanks
  | [] => ⟨[], column, []⟩
  | c :: cs =>
    if c = ' ' && column < indent then blankLines indent (column + 1) cs
    else if isBreak c then
      let b := blankLines indent 0 cs
      { b with breaks := keptBreak c :: b.breaks }
    else ⟨[], column, c :: cs⟩

/-- Skips blank lines and all spaces of the next line; gives the widest line of spaces as well. -/
def widest (most column : Nat) : List Char → Nat × Blanks
  | [] => (most, ⟨[], column, []⟩)
  | c :: cs =>
    if c = ' ' then widest (max most (column + 1)) (column + 1) cs
    else if isBreak c then
      let (n, b) := widest most 0 cs
      (n, { b with breaks := keptBreak c :: b.breaks })
    else (most, ⟨[], column, c :: cs⟩)

def startsBlank (cs : List Char) : Bool := cs.head?.any isBlank

/-- What stands between two lines; folding joins lines that begin with no blank. -/
def lineGap (folded : Bool) (line lineBreak breaks next : List Char) : List Char :=
  if folded && lineBreak = ['\n'] && !startsBlank line && !startsBlank next then
    if breaks.isEmpty then [' '] else []
  else lineBreak

structure BlockLines where
  text : List Char
  lineBreak : List Char
  breaks : List Char
  rest : List Char

def blockLines (folded : Bool) (indent : Nat) : Nat → List Char → Blanks → BlockLines
  | fuel + 1, lineBreak, b =>
    if b.column = indent && !b.rest.isEmpty then
      let line := b.rest.takeWhile (!isBreak ·)
      let after := b.rest.dropWhile (!isBreak ·)
      let lineBreak := after.take 1 |>.map keptBreak
      let next := blankLines indent 0 after.tail
      let more := blockLines folded indent fuel lineBreak next
      let gap := if next.column = indent && !next.rest.isEmpty then
        lineGap folded line lineBreak next.breaks next.rest else []
      { more with text := b.breaks ++ line ++ gap ++ more.text }
    else ⟨[], lineBreak, b.breaks, b.rest⟩
  | 0, lineBreak, b => ⟨[], lineBreak, b.breaks, b.rest⟩

/-- A literal or folded scalar after its indicator; its lines stand deeper than `parent`. -/
def blockText (folded : Bool) (parent : Int) (cs : List Char) :
    Except Failure (List Char × List Char) := do
  let (h, cs) ← BlockHeader.read cs
  let least := max (parent + 1) 1 |>.toNat
  let (indent, b) := match h.increment with
    | some n => (least + n - 1, blankLines (least + n - 1) 0 cs)
    | none => let (n, b) := widest 0 0 cs; (max least n, b)
  let r := blockLines folded indent cs.length [] b
  return (r.text ++ (if h.chomping = .strip then [] else r.lineBreak) ++
    (if h.chomping = .keep then r.breaks else []), r.rest)

end BlockTree.Yaml

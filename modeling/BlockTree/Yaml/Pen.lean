import BlockTree.Text.Quoted
import BlockTree.Yaml.Style

/-! A pen that writes scalars and marks, minding the column. Lines are folded at spaces once they
are wider than 80 columns. -/
namespace BlockTree.Yaml

/-- `spaced` says that no space is needed before a mark; `fresh` that only marks of collections
stand on the line. -/
structure Pen where
  out : String
  column : Nat
  spaced : Bool
  fresh : Bool

namespace Pen

abbrev Chars := List Char

def start : Pen := ⟨"", 0, true, true⟩

def limit : Nat := 80

variable (p : Pen)

def put (cs : Chars) : Pen :=
  { p with out := p.out ++ String.ofList cs, column := p.column + cs.length }

def settle : Pen := { p with spaced := false, fresh := false }

def newline (c : Char) : Pen := ⟨p.out.push c, 0, true, true⟩

def indent (n : Nat) : Pen :=
  let p := if !p.fresh || n < p.column || (p.column = n && !p.spaced) then p.newline '\n' else p
  if p.column < n then { p.put (List.replicate (n - p.column) ' ') with spaced := true } else p

/-- A mark with the space it needs; the mark of a collection leaves its line fresh. -/
def mark (s : String) (apart opens : Bool) : Pen :=
  let p := if apart && !p.spaced then p.put [' '] else p
  { p.put s.toList with spaced := false, fresh := p.fresh && opens }

def sameRun (a b : Char) : Bool := Style.isSpace a == Style.isSpace b && isBreak a == isBreak b

def runs (cs : Chars) : List Chars := cs.splitBy sameRun

def folds (fold : Bool) (run : Chars) : Bool := fold && run = [' '] && limit < p.column

def plainRuns (fold : Bool) (n : Nat) : List Chars → Pen → Pen
  | [], p => p
  | r :: rs, p =>
    plainRuns fold n rs (if p.folds fold r then (p.indent n).settle else p.put r)

def plain (fold : Bool) (n : Nat) (cs : Chars) : Pen :=
  if cs.isEmpty then p
  else plainRuns fold n (runs cs) (if p.spaced then p else p.put [' ']).settle

/-- Breaks take one line feed more than they are, and the next line is indented. -/
def breakRun (n : Nat) (r : Chars) (p : Pen) : Pen :=
  let p := if r.head? = some '\n' then p.newline '\n' else p
  (r.foldl newline p).indent n

def singleRuns (fold first : Bool) (n : Nat) : List Chars → Pen → Pen
  | [], p => p
  | r :: rs, p =>
    singleRuns fold false n rs
      (if r.any isBreak then breakRun n r p
       else if p.folds (fold && !first && !rs.isEmpty) r then p.indent n
       else p.put (r.flatMap fun c => if c = '\'' then ['\'', '\''] else [c]))

def single (fold : Bool) (n : Nat) (cs : Chars) : Pen :=
  (singleRuns fold true n (runs cs) (p.mark "'" true false)).mark "'" false false

def isDirect (c : Char) : Bool :=
  let n := c.toNat
  ((0x20 ≤ n && n ≤ 0x7e) || (0xa0 ≤ n && n ≤ 0xfffd)) &&
  !"\"\\\u2028\u2029\ufeff".toList.contains c

def letters : List (Char × Char) := [
  ('\x00', '0'), ('\x07', 'a'), ('\x08', 'b'), ('\t', 't'), ('\n', 'n'), ('\x0b', 'v'),
  ('\x0c', 'f'), ('\r', 'r'), ('\x1b', 'e'), ('"', '"'), ('\\', '\\'), ('\u0085', 'N'),
  ('\u2028', 'L'), ('\u2029', 'P')]

def escape (c : Char) : Chars :=
  match letters.lookup c with
  | some l => ['\\', l]
  | none =>
    let n := c.toNat
    let digits (width : Nat) : Chars := (Text.hexDigits n width).map Char.toUpper
    if n < 0x100 then '\\' :: 'x' :: digits 2
    else if n < 0x10000 then '\\' :: 'u' :: digits 4
    else '\\' :: 'U' :: digits 8

/-- Breaks the line after a backslash; a space that begins the next line needs one as well. -/
def continued (n : Nat) (atSpace : Bool) : Pen :=
  let p := ((p.put ['\\']).indent n).settle
  if atSpace then p.put ['\\'] else p

/-- Characters that are still to be written after the pending ones, which stand on this line. A line
may be broken before a space, and on either side of an escape. -/
def doubleChars (fold first : Bool) (n : Nat) : Chars → Chars → Pen → Pen
  | pending, [], p => p.put pending
  | pending, c :: cs, p =>
    let inside := fold && !first && !cs.isEmpty
    if isDirect c then
      if inside && (c = ' ' || pending.isEmpty) && limit < p.column + pending.length then
        doubleChars fold false n [c] cs ((p.put pending).continued n (c = ' '))
      else doubleChars fold false n (pending ++ [c]) cs p
    else
      let p := (p.put pending).put (escape c)
      doubleChars fold false n [] cs
        (if inside && limit + 1 < p.column then p.continued n (cs.head? = some ' ') else p)

def double (fold : Bool) (n : Nat) (cs : Chars) : Pen :=
  (doubleChars fold true n [] cs (p.mark "\"" true false)).mark "\"" false false

def literal (n : Nat) (cs : Chars) : Pen :=
  ((cs.splitOn '\n').filter (!·.isEmpty)).foldl (fun p line =>
    ((p.indent n).put line).newline '\n') ((p.mark "|" true false).newline '\n')

def scalar (isKey : Bool) (n : Nat) (tag : Tag) (text : String) : Pen :=
  match Style.choose isKey tag text with
  | .plain => p.plain (!isKey) n text.toList
  | .single => p.single (!isKey) n text.toList
  | .double => p.double (!isKey) n text.toList

end Pen

end BlockTree.Yaml

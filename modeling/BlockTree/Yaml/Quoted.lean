import BlockTree.Json.Reader
import BlockTree.Text.Quoted
import BlockTree.Yaml.Chars

/-! Quoted scalars. Characters are taken one by one; a gap of blanks and breaks waits, the latest
first, until the word after it is met. -/
namespace BlockTree.Yaml

/-- A gap that waits; it may have been opened by an escaped break, which itself is dropped. -/
structure Gap where
  escaped : Bool
  chars : List Char

namespace Gap

def none : Gap := ⟨false, []⟩

def add (g : Gap) (c : Char) : Gap := { g with chars := c :: g.chars }

def text (g : Gap) : List Char :=
  if g.escaped then breaksOf g.chars.reverse else foldGap g.chars.reverse

def atStart (g : Gap) : Bool :=
  match g.chars with
  | [] => g.escaped
  | c :: _ => isBreak c

end Gap

def ahead {α : Type} (cs : List α) (r : Except Failure (List α × List Char)) :
    Except Failure (List α × List Char) :=
  r.map fun x => (cs ++ x.1, x.2)

def single (g : Gap) : List Char → Except Failure (List Char × List Char)
  | [] => .error .yaml
  | '\'' :: '\'' :: cs => ahead (g.text ++ ['\'']) (single .none cs)
  | '\'' :: cs => .ok (g.text, cs)
  | c :: cs =>
    if isBlank c || isBreak c then single (g.add c) cs
    else if g.atStart && isDocumentMark (c :: cs) then .error .yaml
    else ahead (g.text ++ [c]) (single .none cs)

def escapes : List (Char × Char) := [
  ('0', '\x00'), ('a', '\x07'), ('b', '\x08'), ('t', '\t'), ('\t', '\t'), ('n', '\n'),
  ('v', '\x0b'), ('f', '\x0c'), ('r', '\r'), ('e', '\x1b'), (' ', ' '), ('"', '"'), ('\\', '\\'),
  ('/', '/'), ('N', '\u0085'), ('_', '\u00a0'), ('L', '\u2028'), ('P', '\u2029')]

open Text (Code)

def hexCode (ds : List Char) : Except Failure Code :=
  match ds.mapM Json.hexValue? with
  | none => .error .yaml
  | some ns =>
    let n := ns.foldl (fun m k => 16 * m + k) 0
    if 0x80000000 ≤ n then .error .hugeCode
    else if 0x110000 ≤ n then .error .codePoint
    else .ok (.ofNat n)

def double (g : Gap) : List Char → Except Failure (List Code × List Char)
  | [] => .error .yaml
  | '"' :: cs => .ok (g.text.map .char, cs)
  | '\\' :: 'x' :: a :: b :: cs => do
    let c ← hexCode [a, b]
    ahead (g.text.map .char ++ [c]) (double .none cs)
  | '\\' :: 'u' :: a :: b :: c :: d :: cs => do
    let c ← hexCode [a, b, c, d]
    ahead (g.text.map .char ++ [c]) (double .none cs)
  | '\\' :: 'U' :: a :: b :: c :: d :: e :: f :: i :: j :: cs => do
    let c ← hexCode [a, b, c, d, e, f, i, j]
    ahead (g.text.map .char ++ [c]) (double .none cs)
  | '\\' :: c :: cs =>
    if isBreak c then ahead (g.text.map .char) (double ⟨true, []⟩ cs)
    else match escapes.lookup c with
      | some d => ahead ((g.text ++ [d]).map .char) (double .none cs)
      | none => .error .yaml
  | c :: cs =>
    if isBlank c || isBreak c then double (g.add c) cs
    else if c = '\\' || (g.atStart && isDocumentMark (c :: cs)) then .error .yaml
    else ahead ((g.text ++ [c]).map .char) (double .none cs)

end BlockTree.Yaml

import BlockTree.Yaml.BlockText
import BlockTree.Yaml.Plain
import BlockTree.Yaml.Token.Marker

/-! Cutting a text into tokens. Outside brackets, deeper columns open collections and shallower ones
close them; where a value mark follows on the same line, what came before turns out to be a key. -/
namespace BlockTree.Yaml

structure Cursor where
  rest : List Char
  index : Nat
  line : Nat
  column : Nat

namespace Cursor

def next (k : Cursor) : Cursor :=
  match k.rest with
  | [] => k
  | c :: cs =>
    if isBreak c then ⟨cs, k.index + 1, k.line + 1, 0⟩
    else ⟨cs, k.index + 1, k.line, k.column + width c⟩

def skip (k : Cursor) : Nat → Cursor
  | 0 => k
  | n + 1 => k.next.skip n

def goTo (k : Cursor) (rest : List Char) : Cursor := k.skip (k.rest.length - rest.length)

end Cursor

structure KeyPlace where
  count : Nat
  required : Bool
  start : Cursor

/-- The state of the lexer. Tokens, indentations and possible keys stand latest first; one possible
key is remembered for every level of brackets. -/
structure Lexer where
  cursor : Cursor
  indents : List Nat
  key : Option KeyPlace
  outer : List (Option KeyPlace)
  keyAllowed : Bool
  tokens : List Token
  count : Nat

namespace Lexer

abbrev Step := Except Failure Lexer

variable (s : Lexer)

def start (cs : List Char) : Lexer := ⟨⟨cs, 0, 0, 0⟩, [], none, [], true, [], 0⟩

def inFlow : Bool := !s.outer.isEmpty

def indent : Int :=
  match s.indents with
  | [] => -1
  | n :: _ => n

def emit (t : Token) : Lexer := { s with tokens := t :: s.tokens, count := s.count + 1 }

def take (n : Nat) (t : Token) : Lexer := { s.emit t with cursor := s.cursor.skip n }

def insert (count : Nat) (ts : List Token) : Lexer :=
  let later := s.count - count
  { s with
    tokens := s.tokens.take later ++ ts.reverse ++ s.tokens.drop later
    count := s.count + ts.length }

def isStale (k : KeyPlace) : Bool :=
  k.start.line ≠ s.cursor.line || 1024 < s.cursor.index - k.start.index

def dropStale : Step := do
  let keep (k : Option KeyPlace) : Except Failure (Option KeyPlace) :=
    match k with
    | some p => if s.isStale p then if p.required then .error .yaml else .ok none else .ok k
    | none => .ok none
  return { s with key := ← keep s.key, outer := ← s.outer.mapM keep }

def dropKey : Step :=
  match s.key with
  | some p => if p.required then .error .yaml else .ok { s with key := none }
  | none => .ok s

def offerKey : Step := do
  if s.keyAllowed then
    let required := !s.inFlow && s.indent = s.cursor.column
    let s ← s.dropKey
    return { s with key := some ⟨s.count, required, s.cursor⟩ }
  else return s

def allowKey (b : Bool) : Lexer := { s with keyAllowed := b }

def closeTo (column : Int) : Lexer :=
  if s.inFlow then s else
    let closed := s.indents.takeWhile fun (n : Nat) => column < n
    { closed.foldl (fun s _ => s.emit .blockEnd) s with indents := s.indents.drop closed.length }

def opening (column : Nat) (t : Token) : List Token := if s.indent < column then [t] else []

def deepen (column : Nat) : Lexer :=
  if s.indent < column then { s with indents := column :: s.indents } else s

def openBlock (t : Token) : Step :=
  if s.inFlow then .ok s
  else if s.keyAllowed then
    let column := s.cursor.column
    .ok (((s.opening column t).foldl emit s).deepen column)
  else .error .yaml

/-- Skips spaces, comments and breaks. Outside brackets a key may begin after a break. -/
def skipGap : Nat → Lexer → Lexer
  | 0, s => s
  | fuel + 1, s =>
    let k := s.cursor.goTo (s.cursor.rest.dropWhile (· = ' '))
    let k := if k.rest.head? = some '#' then k.goTo (k.rest.dropWhile (!isBreak ·)) else k
    let s := { s with cursor := k }
    if k.rest.head?.any isBreak then
      skipGap fuel { s with cursor := k.next, keyAllowed := s.keyAllowed || !s.inFlow }
    else s

def skipMark : Lexer :=
  if s.cursor.index = 0 && s.cursor.rest.head? = some '\ufeff' then
    { s with cursor := s.cursor.next }
  else s

def boundary : Step := return (← (s.closeTo (-1)).dropKey).allowKey false

def openFlow (t : Token) : Step := do
  let s ← s.offerKey
  return { s.take 1 t with key := none, outer := s.key :: s.outer, keyAllowed := true }

def closeFlow (t : Token) : Step := do
  let s ← s.dropKey
  match s.outer with
  | k :: ks => return { s.take 1 t with key := k, outer := ks, keyAllowed := false }
  | [] => throw .yaml

def comma : Step := return ((← s.dropKey).take 1 .comma).allowKey true

def entry : Step := do
  let s ← s.openBlock .blockSequence
  return ((← s.dropKey).take 1 .entry).allowKey true

def explicitKey : Step := do
  let s ← s.openBlock .blockMapping
  return ((← s.dropKey).take 1 .key).allowKey (!s.inFlow)

/-- A value mark makes a key of what the possible key began with, or of nothing. -/
def value : Step := do
  match s.key with
  | some p =>
    let opened := if s.inFlow then [] else s.opening p.start.column .blockMapping
    let s := s.insert p.count (opened ++ [.key])
    let s := if s.inFlow then s else s.deepen p.start.column
    return { s.take 1 .value with key := none, keyAllowed := false }
  | none =>
    let s ← s.openBlock .blockMapping
    return (s.take 1 .value).allowKey (!s.inFlow)

def word (r : Except Failure (Token × List Char)) : Step := do
  let s ← s.offerKey
  let (t, rest) ← r
  return { s.emit t with cursor := s.cursor.goTo rest, keyAllowed := false }

def scalar (r : Except Failure (List Char × List Char)) : Step :=
  s.word (r.map fun x => (.scalar (String.ofList x.1) false, x.2))

def codes (r : Except Failure (List Text.Code × List Char)) : Step :=
  s.word (r.map fun x => (match Value.ofCodes x.1 with
    | .ragged t => .ragged t
    | v => .scalar v.text false, x.2))

def plainScalar : Step := do
  let s ← s.offerKey
  let p := plain ⟨s.inFlow, (s.indent + 1).toNat⟩ s.cursor.column [] s.cursor.rest
  let s := s.emit (.scalar (String.ofList p.text) true)
  return { s with cursor := s.cursor.goTo p.rest, keyAllowed := p.lineEnded }

def blockScalar (folded : Bool) (cs : List Char) : Step := do
  let s ← s.dropKey
  let (t, rest) ← blockText folded s.indent cs
  let s := s.emit (.scalar (String.ofList t) false)
  return { s with cursor := s.cursor.goTo rest, keyAllowed := true }

def startsPlain (c : Char) (cs : List Char) : Bool :=
  !(isBlank c || isBreak c || "-?:,[]\x7b\x7d#&*!|>'\"%@`".toList.contains c) ||
  (!endsWord cs && (c = '-' || (!s.inFlow && (c = '?' || c = ':'))))

def token (c : Char) (cs : List Char) : Step := do
  let marked (m : Char) : Bool := s.cursor.column = 0 && isMarkOf m (c :: cs)
  if c = '%' && s.cursor.column = 0 then
    let s ← s.boundary
    let (d, rest) ← Marker.directive cs
    return { s.emit (.directive d) with cursor := s.cursor.goTo rest }
  else if marked '-' then return (← s.boundary).take 3 .documentStart
  else if marked '.' then return (← s.boundary).take 3 .documentEnd
  else if c = '[' then s.openFlow .sequenceOpen
  else if c = '\x7b' then s.openFlow .mappingOpen
  else if c = ']' then s.closeFlow .sequenceClose
  else if c = '\x7d' then s.closeFlow .mappingClose
  else if c = ',' then s.comma
  else if c = '-' && endsWord cs then s.entry
  else if c = '?' && (s.inFlow || endsWord cs) then s.explicitKey
  else if c = ':' && (s.inFlow || endsWord cs) then s.value
  else if c = '*' then s.word ((Marker.anchorName cs).map fun x => (.alias x.1, x.2))
  else if c = '&' then s.word ((Marker.anchorName cs).map fun x => (.anchor x.1, x.2))
  else if c = '!' then s.word (Marker.tag (c :: cs))
  else if c = '|' && !s.inFlow then s.blockScalar false cs
  else if c = '>' && !s.inFlow then s.blockScalar true cs
  else if c = '\'' then s.scalar (single .none cs)
  else if c = '"' then s.codes (double .none cs)
  else if s.startsPlain c cs then s.plainScalar
  else throw .yaml

def advance : Step := do
  let s := s.skipMark
  let s ← (skipGap (s.cursor.rest.length + 1) s).dropStale
  return s.closeTo s.cursor.column

/-- The tokens before the first place where a key may have begun, and then a failure: a token from
there on is handed out only once the next one is read. -/
def broken (f : Failure) : List Token :=
  let places := (s.key :: s.outer).filterMap fun k => k.filter (!s.isStale ·)
  let settled := places.foldl (fun n p => min n p.count) s.count
  s.tokens.reverse.take settled ++ [.broken f]

def run : Nat → Lexer → List Token
  | 0, s => s.broken .yaml
  | fuel + 1, s =>
    match s.advance with
    | .error f => s.broken f
    | .ok t =>
      match t.cursor.rest with
      | [] => match t.boundary with
        | .error f => s.broken f
        | .ok t => (.streamEnd :: t.tokens).reverse
      | c :: cs => match t.token c cs with
        | .error f => s.broken f
        | .ok t => run fuel t

end Lexer

def Token.ofChars (cs : List Char) : List Token := (Lexer.start cs).run (cs.length + 1)

end BlockTree.Yaml

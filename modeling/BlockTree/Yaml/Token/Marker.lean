import BlockTree.Json.Reader
import BlockTree.Yaml.Token

/-! Directives, anchors and tags. -/
namespace BlockTree.Yaml.Marker

abbrev Chars := List Char

def word (cs : Chars) : Except Failure (String × Chars) :=
  let w := cs.takeWhile isWordChar
  if w.isEmpty then .error .yaml else .ok (String.ofList w, cs.dropWhile isWordChar)

def isUriChar (c : Char) : Bool := c.isAlphanum || "-;/?:@&=+$,_.!~*'()[]".toList.contains c

def percentBytes : Chars → Except Failure (List UInt8 × Chars)
  | '%' :: a :: b :: cs => match Json.hexValue? a, Json.hexValue? b with
    | some m, some n => do
      let (bs, rest) ← percentBytes cs
      return ((16 * m + n).toUInt8 :: bs, rest)
    | _, _ => .error .yaml
  | '%' :: _ => .error .yaml
  | cs => .ok ([], cs)

def utf8 (bs : List UInt8) : Except Failure Chars :=
  match String.fromUTF8? bs.toByteArray with
  | some s => .ok s.toList
  | none => .error .yaml

def uriChars : Nat → Chars → Except Failure (Chars × Chars)
  | 0, cs => .ok ([], cs)
  | fuel + 1, cs =>
    match cs with
    | '%' :: _ => do
      let (bs, rest) ← percentBytes cs
      let here ← utf8 bs
      let (more, rest) ← uriChars fuel rest
      return (here ++ more, rest)
    | c :: rest =>
      if isUriChar c then do
        let (more, rest) ← uriChars fuel rest
        return (c :: more, rest)
      else .ok ([], cs)
    | [] => .ok ([], [])

def uri (cs : Chars) : Except Failure (String × Chars) := do
  let (u, rest) ← uriChars cs.length cs
  if rest.length = cs.length then throw .yaml else return (String.ofList u, rest)

def handle : Chars → Except Failure (String × Chars)
  | '!' :: ' ' :: cs => .ok ("!", ' ' :: cs)
  | '!' :: cs =>
    match cs.dropWhile isWordChar with
    | '!' :: rest => .ok (String.ofList ('!' :: cs.takeWhile isWordChar ++ ['!']), rest)
    | _ => .error .yaml
  | _ => .error .yaml

def skipSpaces (cs : Chars) : Chars := cs.dropWhile (· = ' ')

def directive (cs : Chars) : Except Failure (Directive × Chars) := do
  let (name, cs) ← word cs
  unless endsField cs do throw .yaml
  match name with
  | "YAML" =>
    let cs := skipSpaces cs
    let major := cs.takeWhile Decimal.isDigit
    match cs.dropWhile Decimal.isDigit with
    | '.' :: cs =>
      let minor := cs.takeWhile Decimal.isDigit
      let cs := cs.dropWhile Decimal.isDigit
      if major.isEmpty || minor.isEmpty || !endsField cs then throw .yaml
      return (.version (Decimal.digitsValue 0 major), ← skipLine cs)
    | _ => throw .yaml
  | "TAG" =>
    let (h, cs) ← handle (skipSpaces cs)
    unless cs.head? = some ' ' do throw .yaml
    let (target, cs) ← uri (skipSpaces cs)
    unless endsField cs do throw .yaml
    return (.handle h target, ← skipLine cs)
  | _ => return (.other, ← skipLine (cs.dropWhile (!isBreak ·)))

def anchorName (cs : Chars) : Except Failure (String × Chars) := do
  let (name, cs) ← word cs
  if endsWord cs || cs.head?.any "?:,]\x7d%@`".toList.contains then return (name, cs)
  else throw .yaml

def tag (cs : Chars) : Except Failure (Token × Chars) := do
  let (t, cs) ← match cs with
    | _ :: '<' :: rest => do
      let (u, rest) ← uri rest
      match rest with
      | '>' :: rest => pure (Token.tag none u, rest)
      | _ => throw .yaml
    | _ :: rest =>
      if endsWord rest then pure (Token.tag none "!", rest)
      else if (rest.takeWhile fun c => c ≠ ' ' && !isBreak c).contains '!' then do
        let (h, rest) ← handle cs
        let (u, rest) ← uri rest
        pure (Token.tag (some h) u, rest)
      else do
        let (u, rest) ← uri rest
        pure (Token.tag (some "!") u, rest)
    | [] => throw .yaml
  if endsField cs then return (t, cs) else throw .yaml

end BlockTree.Yaml.Marker

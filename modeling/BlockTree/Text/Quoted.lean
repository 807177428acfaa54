import BlockTree.Text.Printable

/-! The quoted form of a text: one line of printable characters between two equal quotes. A text may
also be given by code points of which some are halves of surrogate pairs. A half alone is no
character, so such a text is kept apart from those made of characters. -/
namespace BlockTree.Text

def hexDigit (n : Nat) : Char :=
  if n < 10 then Char.ofNat (n + 48) else Char.ofNat (n + 87)

def hexDigits (n : Nat) : Nat → List Char
  | 0 => []
  | width + 1 => hexDigits (n / 16) width ++ [hexDigit (n % 16)]

def isFirstHalf (code : Nat) : Bool := 0xd800 ≤ code && code < 0xdc00

def isSecondHalf (code : Nat) : Bool := 0xdc00 ≤ code && code < 0xe000

def joined (first second : Nat) : Char :=
  Char.ofNat (0x10000 + (first - 0xd800) * 0x400 + (second - 0xdc00))

/-- A character, or the half with a code point of its own. -/
inductive Code
  | char (c : Char)
  | half (n : Nat)
deriving DecidableEq, Repr

namespace Code

def ofNat (n : Nat) : Code :=
  if isFirstHalf n || isSecondHalf n then .half n else .char (Char.ofNat n)

def isHalf : Code → Bool
  | .char _ => false
  | .half _ => true

def char? : Code → Option Char
  | .char c => some c
  | .half _ => none

/-- Characters as `f` says; a half is given by its escape. -/
def spelled (f : Char → List Char) : Code → List Char
  | .char c => f c
  | .half n => '\\' :: 'u' :: hexDigits n 4

end Code

/-- Double quotes serve only where the text holds a single quote and no double one. -/
def quoteFor (cs : List Char) : Char :=
  if cs.contains '\'' && !cs.contains '"' then '"' else '\''

def escapeChar (q c : Char) : List Char :=
  if c = q then ['\\', c]
  else if c = '\\' then ['\\', '\\']
  else if c = '\n' then ['\\', 'n']
  else if c = '\r' then ['\\', 'r']
  else if c = '\t' then ['\\', 't']
  else if isPrintable c then [c]
  else
    let n := c.toNat
    if n < 0x100 then '\\' :: 'x' :: hexDigits n 2
    else if n < 0x10000 then '\\' :: 'u' :: hexDigits n 4
    else '\\' :: 'U' :: hexDigits n 8

def quoteChars (cs : List Char) : List Char :=
  let q := quoteFor cs
  q :: cs.flatMap (escapeChar q) ++ [q]

def quote (s : String) : String := String.ofList (quoteChars s.toList)

def quoteBytes (bs : List UInt8) : String :=
  let cs := bs.map fun b => Char.ofNat b.toNat
  let q := quoteFor cs
  let escaped (c : Char) : List Char :=
    if c.toNat < 0x80 then escapeChar q c else '\\' :: 'x' :: hexDigits c.toNat 2
  String.ofList ('b' :: q :: cs.flatMap escaped ++ [q])

/-- A text in which a half stands alone. -/
structure Ragged where
  codes : List Code
  ragged : codes.any Code.isHalf = true
deriving DecidableEq, Repr

namespace Ragged

variable (t : Ragged)

/-- What the text is taken for where only characters can stand: each half is its own escape. -/
def text : String := String.ofList (t.codes.flatMap (Code.spelled fun c => [c]))

def quote : String :=
  let q := quoteFor (t.codes.filterMap Code.char?)
  String.ofList (q :: t.codes.flatMap (Code.spelled (escapeChar q)) ++ [q])

end Ragged

end BlockTree.Text

/-! Kinds of characters. Sets of them are given by ranges of code points; white space is that of the
Unicode property, and the decimal digits of every script are blocks of ten that start with a zero.
-/
namespace BlockTree.Text

def inRanges (rs : List (Nat × Nat)) (n : Nat) : Bool := rs.any fun r => r.1 ≤ n && n ≤ r.2

/-- Tab to carriage return, the four information separators, space, next line, and the spaces and
separators beyond Latin-1; a zero-width space or byte order mark is none of them. -/
def isSpace (c : Char) : Bool :=
  let n := c.toNat
  (9 ≤ n && n ≤ 13) || (0x1c ≤ n && n ≤ 0x20) || n == 0x85 || n == 0xa0 || n == 0x1680 ||
  (0x2000 ≤ n && n ≤ 0x200a) || n == 0x2028 || n == 0x2029 || n == 0x202f || n == 0x205f ||
  n == 0x3000

def isBlank (s : String) : Bool := s.toList.all isSpace

def trimEnds {α : Type} (p : α → Bool) (xs : List α) : List α :=
  ((xs.dropWhile p).reverse.dropWhile p).reverse

def strip (s : String) : String := String.ofList (trimEnds isSpace s.toList)

def words (s : String) : List String := go [] s.toList
where
  flush (word : List Char) (rest : List String) : List String :=
    if word.isEmpty then rest else String.ofList word.reverse :: rest
  go (word : List Char) : List Char → List String
    | [] => flush word []
    | c :: cs => if isSpace c then flush word (go [] cs) else go (c :: word) cs

def zeros : List Nat := [0x30, 0x660, 0x6f0, 0x7c0, 0x966, 0x9e6, 0xa66, 0xae6, 0xb66, 0xbe6, 0xc66,
  0xce6, 0xd66, 0xde6, 0xe50, 0xed0, 0xf20, 0x1040, 0x1090, 0x17e0, 0x1810, 0x1946, 0x19d0, 0x1a80,
  0x1a90, 0x1b50, 0x1bb0, 0x1c40, 0x1c50, 0xa620, 0xa8d0, 0xa900, 0xa9d0, 0xa9f0, 0xaa50, 0xabf0,
  0xff10, 0x104a0, 0x10d30, 0x11066, 0x110f0, 0x11136, 0x111d0, 0x112f0, 0x11450, 0x114d0, 0x11650,
  0x116c0, 0x11730, 0x118e0, 0x11950, 0x11c50, 0x11d50, 0x11da0, 0x16a60, 0x16ac0, 0x16b50, 0x1d7ce,
  0x1d7d8, 0x1d7e2, 0x1d7ec, 0x1d7f6, 0x1e140, 0x1e2f0, 0x1e950, 0x1fbf0]

def digit? (c : Char) : Option Nat :=
  (zeros.find? fun z => z ≤ c.toNat && c.toNat < z + 10).map (c.toNat - ·)

/-- A numeral in the digits and spaces of ASCII; characters that no numeral has become question
marks. -/
def plainNumeral (cs : List Char) : List Char :=
  cs.map fun c =>
    if c.toNat < 0x80 then c
    else if isSpace c then ' '
    else match digit? c with
      | some d => Char.ofNat (d + 0x30)
      | none => '?'

/-- White space around a numeral: the information separators are none. -/
def isMargin (c : Char) : Bool := c = ' ' || (9 ≤ c.toNat && c.toNat ≤ 13)

end BlockTree.Text

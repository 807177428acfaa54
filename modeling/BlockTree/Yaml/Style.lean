import BlockTree.Yaml.Chars
import BlockTree.Yaml.Tag

/-! How a scalar is written: plain where it reads back as it is, else between single quotes, and
between double quotes where escapes are needed. -/
namespace BlockTree.Yaml

inductive Style
  | plain | single | double
deriving DecidableEq, Repr

namespace Style

abbrev Chars := List Char

def isOrdinary (c : Char) : Bool :=
  let n := c.toNat
  c = '\n' || (0x20 ≤ n && n ≤ 0x7e) ||
  ((n == 0x85 || (0xa0 ≤ n && n ≤ 0xfffd) || (0x10000 ≤ n && n < 0x10ffff)) && c ≠ '\ufeff')

def startsIndicated : Chars → Bool
  | [] => false
  | c :: cs =>
    "#,[]\x7b\x7d&*!|>'\"%@`".toList.contains c ||
    ((c = '?' || c = ':' || c = '-') && endsWord cs) ||
    ["---".toList, "...".toList].any (·.isPrefixOf (c :: cs))

/-- Whether a colon ends a word, or a number sign begins one, after the character `before`. -/
def holdsIndicator (before : Char) : Chars → Bool
  | [] => false
  | c :: cs =>
    (c = ':' && endsWord cs) || (c = '#' && (isBlank before || isBreak before)) ||
    holdsIndicator c cs

def neighbours (p q : Char → Bool) : Chars → Bool
  | a :: b :: cs => (p a && q b) || neighbours p q (b :: cs)
  | _ => false

def isSpace (c : Char) : Bool := c = ' '

def isGap (c : Char) : Bool := isSpace c || isBreak c

def mixesGaps (cs : Chars) : Bool := neighbours isBreak isSpace cs || neighbours isSpace isBreak cs

def admitsSingle (cs : Chars) : Bool := cs.all isOrdinary && !mixesGaps cs

def admitsPlain (cs : Chars) : Bool :=
  admitsSingle cs && !cs.any isBreak && !cs.head?.any isGap && !cs.getLast?.any isGap &&
  !startsIndicated cs && !(match cs with | [] => false | c :: cs => holdsIndicator c cs)

/-- The style of a text under its tag. A key on one line is neither empty nor broken. -/
def choose (isKey : Bool) (tag : Tag) (text : String) : Style :=
  let cs := text.toList
  let narrow := isKey && (cs.isEmpty || cs.any isBreak)
  if Tag.implicit text = tag && !narrow && admitsPlain cs then plain
  else if admitsSingle cs && !(isKey && cs.any isBreak) then single
  else double

end Style

end BlockTree.Yaml

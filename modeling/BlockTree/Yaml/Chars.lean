import BlockTree.Failure

/-! The characters of a YAML text: which may occur, what breaks a line, what ends a word, and how
line breaks inside a scalar fold into spaces. -/
namespace BlockTree.Yaml

def isAllowed (c : Char) : Bool :=
  let n := c.toNat
  n == 9 || n == 10 || n == 13 || (0x20 ≤ n && n ≤ 0x7e) || n == 0x85 || (0xa0 ≤ n && n ≤ 0xfffd) ||
  0x10000 ≤ n

def isBreak (c : Char) : Bool := c = '\n' || c = '\u0085' || c = '\u2028' || c = '\u2029'

def isBlank (c : Char) : Bool := c = ' ' || c = '\t'

def isWordChar (c : Char) : Bool := c.isAlphanum || c = '-' || c = '_'

/-- A break as it is kept: next line counts as a line feed. -/
def keptBreak (c : Char) : Char := if c = '\u0085' then '\n' else c

def endsWord : List Char → Bool
  | [] => true
  | c :: _ => isBlank c || isBreak c

def endsLine : List Char → Bool
  | [] => true
  | c :: _ => isBreak c

def endsField : List Char → Bool
  | [] => true
  | c :: _ => c = ' ' || isBreak c

def isDocumentMark : List Char → Bool
  | a :: b :: c :: cs => a = b && b = c && (a = '-' || a = '.') && endsWord cs
  | _ => false

def isMarkOf (m : Char) (cs : List Char) : Bool := isDocumentMark cs && cs.head? == some m

def breaksOf (gap : List Char) : List Char := (gap.filter isBreak).map keptBreak

/-- A single line feed becomes a space; of several the first is dropped. -/
def foldBreaks : List Char → List Char
  | [] => []
  | [b] => if b = '\n' then [' '] else [b]
  | b :: bs => if b = '\n' then bs else b :: bs

def foldGap (gap : List Char) : List Char :=
  if gap.any isBreak then foldBreaks (breaksOf gap) else gap

/-- Skips spaces and a comment, and takes one break. The line must hold nothing else. -/
def skipLine (cs : List Char) : Except Failure (List Char) :=
  let cs := cs.dropWhile (· = ' ')
  let cs := if cs.head? = some '#' then cs.dropWhile (!isBreak ·) else cs
  if endsLine cs then .ok cs.tail else .error .yaml

end BlockTree.Yaml

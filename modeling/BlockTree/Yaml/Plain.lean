import BlockTree.Yaml.Chars

/-! Plain scalars: words that go on over gaps of spaces and breaks until something else begins. -/
namespace BlockTree.Yaml

structure PlainContext where
  inFlow : Bool
  indent : Nat

def width (c : Char) : Nat := if c = '\ufeff' then 0 else 1

def isFlowPunctuation (c : Char) : Bool :=
  c = ',' || c = '[' || c = ']' || c = '\x7b' || c = '\x7d'

def endsPlain (inFlow : Bool) (c : Char) (cs : List Char) : Bool :=
  isBlank c || isBreak c ||
  (c = ':' && (endsWord cs || (inFlow && cs.head?.any isFlowPunctuation))) ||
  (inFlow && (c = '?' || isFlowPunctuation c))

/-- Whether a word may begin at `c` after a gap, the latest character of which stands first. -/
def goesOn (x : PlainContext) (column : Nat) (gap : List Char) (c : Char) (cs : List Char) : Bool :=
  !endsPlain x.inFlow c cs &&
    (gap.isEmpty ||
      (c ≠ '#' && (x.inFlow || x.indent ≤ column) &&
        !(gap.head?.any isBreak && isDocumentMark (c :: cs))))

structure PlainText where
  text : List Char
  rest : List Char
  lineEnded : Bool

def plain (x : PlainContext) (column : Nat) (gap : List Char) : List Char → PlainText
  | [] => ⟨[], [], gap.any isBreak⟩
  | c :: cs =>
    if isBreak c then plain x 0 (c :: gap) cs
    else if c = ' ' then plain x (column + 1) (c :: gap) cs
    else if goesOn x column gap c cs then
      let t := plain x (column + width c) [] cs
      { t with text := foldGap gap.reverse ++ c :: t.text }
    else ⟨[], c :: cs, gap.any isBreak⟩

end BlockTree.Yaml

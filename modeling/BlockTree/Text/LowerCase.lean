import BlockTree.Text.LowerCase.Table
import BlockTree.Text.Characters

/-! Full lower-casing: simple mappings, a dotted capital I as two characters, and the final form of
a capital sigma at the end of a word. -/
namespace BlockTree.Text

def CaseRun.lowered? (r : CaseRun) (n : Nat) : Option Nat :=
  if r.first ≤ n ∧ n ≤ r.last ∧ (n - r.first) % r.stride = 0 then some (n - r.first + r.image)
  else none

def lowerChar (c : Char) : Char :=
  match caseRuns.findSome? (·.lowered? c.toNat) with
  | some n => Char.ofNat n
  | none => c

/-- Whether the first character that is not case-ignorable is cased. -/
def meetsCased : List Char → Bool
  | [] => false
  | c :: cs =>
    if inRanges caseIgnorableRanges c.toNat then meetsCased cs else inRanges casedRanges c.toNat

/-- Lower-cases `cs`, the characters before it standing in reverse in `seen`. -/
def lowerFrom (seen : List Char) : List Char → List Char
  | [] => []
  | c :: cs =>
    (if c = 'Σ' then if meetsCased seen && !meetsCased cs then ['ς'] else ['σ']
     else if c = 'İ' then ['i', '\u0307']
     else [lowerChar c]) ++ lowerFrom (c :: seen) cs

def lower (s : String) : String := String.ofList (lowerFrom [] s.toList)

def lowerAscii (s : String) : String := s.map Char.toLower

def upperAscii (s : String) : String := s.map Char.toUpper

end BlockTree.Text

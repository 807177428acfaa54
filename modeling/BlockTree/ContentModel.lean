import BlockTree.Text.Characters
import BlockTree.Text.LowerCase

/-! The five content models: how the lines of a block become its content. -/
namespace BlockTree

inductive ContentModel
  | compound | simple | verbatim | raw | empty
deriving DecidableEq, Repr, Inhabited

namespace ContentModel

def all : List ContentModel := [.compound, .simple, .verbatim, .raw, .empty]

def name : ContentModel → String
  | .compound => "compound"
  | .simple => "simple"
  | .verbatim => "verbatim"
  | .raw => "raw"
  | .empty => "empty"

def symbol (m : ContentModel) : String := Text.upperAscii m.name

/-- Whether substitutions see the lines as a sequence and not as one text. -/
def lineOriented : ContentModel → Bool
  | .verbatim | .raw => true
  | _ => false

def named? (s : String) : Option ContentModel := all.find? (·.name == s)

def nameForm (s : String) : String := Text.lower (Text.strip s)

theorem named?_eq_some_iff {s : String} {m : ContentModel} :
    named? s = some m ↔ s = m.name := by
  constructor
  · intro h
    rw [named?] at h
    have hm := List.find?_some h
    exact (beq_iff_eq.1 hm).symm
  · rintro rfl
    cases m <;> decide

end ContentModel

end BlockTree

import BlockTree.Decimal.Layout

/-! The two dialects of JSON in use and the texts that tell them apart. -/
namespace BlockTree.Json

/-- The narrow dialect keeps to integers of 64 bits, finite numbers and text keys, and writes dates
as text; the wide one takes every integer, names for the infinities and scalar keys, but no dates.
-/
inductive Dialect
  | narrow | wide
deriving DecidableEq, Repr

namespace Dialect

def comma : Dialect → List Char
  | .narrow => [',']
  | .wide => [',', ' ']

def colon : Dialect → List Char
  | .narrow => [':']
  | .wide => [':', ' ']

/-- The narrow dialect writes 0.00001 without an exponent and pads no exponent; infinities have no
number there. -/
def floats : Dialect → Decimal.Layout
  | .narrow => ⟨-5, 16, 1, false, "null", "null"⟩
  | .wide => { Decimal.Layout.standard with nan := "NaN", infinity := "Infinity" }

def admitsInt (d : Dialect) (n : Int) : Bool :=
  match d with
  | .narrow => -Int.pow 2 63 ≤ n && n < Int.pow 2 64
  | .wide => true

end Dialect

def escapes : List (Char × Char) :=
  [('"', '"'), ('\\', '\\'), ('\x08', 'b'), ('\x0c', 'f'), ('\n', 'n'), ('\r', 'r'), ('\t', 't')]

end BlockTree.Json

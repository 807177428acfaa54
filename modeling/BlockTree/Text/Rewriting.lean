/-! Rewriting texts from the left: every occurrence of one text is replaced by another, without
overlaps, and the control sequences of terminals are left out. -/
namespace BlockTree.Text

def interleave (new : List Char) : List Char → List Char
  | [] => new
  | c :: cs => new ++ c :: interleave new cs

/-- Replaces the occurrences of `old`; the next `skip` characters belong to the last one found. -/
def replaceFrom (old new : List Char) : Nat → List Char → List Char
  | _, [] => []
  | skip + 1, _ :: cs => replaceFrom old new skip cs
  | 0, c :: cs =>
    if old.isPrefixOf (c :: cs) then new ++ replaceFrom old new (old.length - 1) cs
    else c :: replaceFrom old new 0 cs

def replace (old new s : String) : String :=
  String.ofList <|
    if old.isEmpty then interleave new.toList s.toList
    else replaceFrom old.toList new.toList 0 s.toList

def isBetween (a b c : Char) : Bool := a ≤ c && c ≤ b

def afterControl? (cs : List Char) : Option (List Char) :=
  match (cs.dropWhile (isBetween '0' '?')).dropWhile (isBetween ' ' '/') with
  | c :: rest => if isBetween '@' '~' c then some rest else none
  | [] => none

/-- Leaves out the control sequences; `skip` characters still belong to the last one. -/
def dropControlFrom : Nat → List Char → List Char
  | _, [] => []
  | skip + 1, _ :: cs => dropControlFrom skip cs
  | 0, '\x1b' :: '[' :: cs => match afterControl? cs with
    | some rest => dropControlFrom (cs.length - rest.length) cs
    | none => '\x1b' :: '[' :: dropControlFrom 0 cs
  | 0, c :: cs => c :: dropControlFrom 0 cs

def dropControl (s : String) : String := String.ofList (dropControlFrom 0 s.toList)

end BlockTree.Text

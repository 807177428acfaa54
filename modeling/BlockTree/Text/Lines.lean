/-! Source text as a list of lines. Three terminators end a line (line feed, carriage return, and
both together); lines are joined with a line feed only. -/
namespace BlockTree.Text

def joinLines : List String → String
  | [] => ""
  | [l] => l
  | l :: m :: ls => l ++ "\n" ++ joinLines (m :: ls)

def cutFeeds : List Char → List (List Char)
  | [] => [[]]
  | c :: cs => if c = '\n' then [] :: cutFeeds cs else
    match cutFeeds cs with
    | [] => [[c]]
    | l :: ls => (c :: l) :: ls

def splitFeeds (s : String) : List String := (cutFeeds s.toList).map String.ofList

def unifyBreaks : List Char → List Char
  | [] => []
  | '\r' :: '\n' :: cs => '\n' :: unifyBreaks cs
  | '\r' :: cs => '\n' :: unifyBreaks cs
  | c :: cs => c :: unifyBreaks cs

def dropMark : List Char → List Char
  | '\ufeff' :: cs => cs
  | cs => cs

/-- Cuts at every terminator; a final terminator leaves an empty last piece. -/
def cutBreaks (cs : List Char) : List (List Char) := cutFeeds (unifyBreaks cs)

/-- A terminator ends a line and opens none, so an empty last piece is no line. -/
def dropOpenEnd : List (List Char) → List (List Char)
  | [] => []
  | [l] => if l = [] then [] else [l]
  | l :: m :: ls => l :: dropOpenEnd (m :: ls)

def linesOf (s : String) : List String :=
  (dropOpenEnd (cutBreaks (dropMark s.toList))).map String.ofList

@[simp]
theorem cutFeeds_ne_nil (cs : List Char) : cutFeeds cs ≠ [] := by
  cases cs with
  | nil => simp [cutFeeds]
  | cons c cs =>
    rw [cutFeeds]
    split
    · simp
    · split <;> simp

@[simp]
theorem splitFeeds_ne_nil (s : String) : splitFeeds s ≠ [] := by
  simp [splitFeeds]

end BlockTree.Text

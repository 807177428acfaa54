import BlockTree.Substitutor
import BlockTree.Text.LowerCase
import BlockTree.Text.Rewriting
import BlockTree.Workspace.Datum

/-! Ready-made substitutions. Counters share one list of tallies, each having its own place. -/
namespace BlockTree

/-- What ready-made substitutions and recording pipelines leave behind: how often each counter was
called, and the calls of each recorder with source and names. -/
structure Tally where
  counts : List Nat
  calls : List (Nat × Datum × Datum)

def Tally.fresh : Tally := ⟨[], []⟩

inductive Stock
  | upper
  | lower
  | replace (old new : String)
  | wrap (before after : String)
  | const (text : String)
  | reverse
  | length
  | counter
  | fail (kind : Raised) (text : String)
  | inert
deriving Repr

namespace Stock

def count (i : Nat) : ExceptT Failure (StateM Tally) Nat := do
  let t ← get
  let n := t.counts.getD i 0 + 1
  set { t with counts := t.counts.set i n }
  return n

def apply (i : Nat) : Stock → Substitution Tally
  | .upper, t => pure (Text.upperAscii t)
  | .lower, t => pure (Text.lowerAscii t)
  | .replace old new, t => pure (Text.replace old new t)
  | .wrap before after, t => pure (before ++ t ++ after)
  | .const s, _ => pure s
  | .reverse, t => pure (String.ofList t.toList.reverse)
  | .length, t => pure (t ++ "<" ++ Decimal.natText t.length ++ ">")
  | .counter, t => return t ++ "#" ++ Decimal.natText (← count i)
  | .fail kind s, _ => throw (.raised kind s)
  | .inert, t => pure t

def offer (s : Stock) (t : Tally) : Offer Tally × Tally :=
  match s with
  | .inert => (.inert, t)
  | s => (.callable (s.apply t.counts.length), { t with counts := t.counts ++ [0] })

def offers : List (String × Stock) → Tally → List (String × Offer Tally) × Tally
  | [], t => ([], t)
  | (name, s) :: rest, t =>
    let (o, t) := s.offer t
    let (os, t) := offers rest t
    ((name, o) :: os, t)

end Stock

end BlockTree

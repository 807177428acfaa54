import BlockTree.Failure

/-! Timestamps: a date, or a date with a time of day and perhaps an offset. -/
namespace BlockTree.Yaml

open Decimal (isDigit digitsValue)

structure Clock where
  hour : Nat
  minute : Nat
  second : Nat
  fraction : List Char
  offset : Option Int

/-- A timestamp as written; `full` says that month and day have two digits each. -/
structure Timestamp where
  date : Date
  full : Bool
  clock : Option Clock

namespace Timestamp

abbrev Chars := List Char

def two? : Chars → Option (Nat × Chars)
  | a :: b :: cs => if isDigit a && isDigit b then some (digitsValue 0 [a, b], cs) else none
  | _ => none

def upToTwo? (cs : Chars) : Option (Nat × Chars) :=
  match two? cs, cs with
  | some r, _ => some r
  | none, a :: rest => if isDigit a then some (digitsValue 0 [a], rest) else none
  | none, [] => none

def four? : Chars → Option (Nat × Chars)
  | a :: b :: c :: d :: cs =>
    if [a, b, c, d].all isDigit then some (digitsValue 0 [a, b, c, d], cs) else none
  | _ => none

def expect? (c : Char) : Chars → Option Chars
  | d :: cs => if c = d then some cs else none
  | [] => none

def isGap (c : Char) : Bool := c = ' ' || c = '\t'

def offset? (cs : Chars) : Option (Option Int) :=
  match cs, cs.dropWhile isGap with
  | [], _ => some none
  | _, ['Z'] => some (some 0)
  | _, c :: rest =>
    if c = '+' || c = '-' then do
      let (h, rest) ← upToTwo? rest
      let m ← match rest with
        | [] => some 0
        | rest => do
          let (m, rest) ← two? (← expect? ':' rest)
          if rest.isEmpty then some m else none
      let n : Int := h * 60 + m
      return some (if c = '-' then -n else n)
    else none
  | _, [] => none

def clock? (cs : Chars) : Option Clock := do
  let cs ← match cs with
    | c :: rest =>
      if c = 'T' || c = 't' then some rest
      else if isGap c then some (rest.dropWhile isGap) else none
    | [] => none
  let (hour, cs) ← upToTwo? cs
  let (minute, cs) ← two? (← expect? ':' cs)
  let (second, cs) ← two? (← expect? ':' cs)
  let (fraction, cs) := match cs with
    | '.' :: ds => (ds.takeWhile isDigit, ds.dropWhile isDigit)
    | _ => ([], cs)
  return ⟨hour, minute, second, fraction, ← offset? cs⟩

def ofChars? (cs : Chars) : Option Timestamp := do
  let (year, cs) ← four? cs
  let month ← expect? '-' cs
  let (m, cs) ← upToTwo? month
  let day ← expect? '-' cs
  let (d, rest) ← upToTwo? day
  let full := (two? month).isSome && (two? day).isSome
  if rest.isEmpty then return ⟨⟨year, m, d⟩, full, none⟩
  else return ⟨⟨year, m, d⟩, full, some (← clock? rest)⟩

def micros (fraction : Chars) : Nat :=
  let ds := fraction.take 6
  digitsValue 0 (ds ++ List.replicate (6 - ds.length) '0')

def value (t : Timestamp) : Except Failure Value :=
  match t.clock with
  | none => (t.date.check.mapError .calendar).map .date
  | some k =>
    let x : DateTime := ⟨t.date, k.hour, k.minute, k.second, micros k.fraction, k.offset⟩
    (x.check.mapError .calendar).map .datetime

end Timestamp

end BlockTree.Yaml

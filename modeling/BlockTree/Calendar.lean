import BlockTree.Decimal.Numeral

/-! Calendar dates and times of day, with their written forms. -/
namespace BlockTree

structure Date where
  year : Nat
  month : Nat
  day : Nat
deriving DecidableEq, Repr, Inhabited

/-- A time on a date; `offset` counts the minutes east of universal time, where it is known. -/
structure DateTime where
  date : Date
  hour : Nat
  minute : Nat
  second : Nat
  micros : Nat
  offset : Option Int
deriving DecidableEq, Repr, Inhabited

inductive CalendarFault
  | year (y : Nat)
  | month
  | day
  | hour
  | minute
  | second
  | offset (minutes : Int)
deriving DecidableEq, Repr

def padded (width n : Nat) : String :=
  let ds := Nat.toDigits 10 n
  String.ofList (List.replicate (width - ds.length) '0' ++ ds)

namespace Date

def isLeap (y : Nat) : Bool := y % 4 == 0 && (y % 100 != 0 || y % 400 == 0)

def daysIn (y m : Nat) : Nat :=
  if m = 2 then if isLeap y then 29 else 28
  else if m = 4 || m = 6 || m = 9 || m = 11 then 30 else 31

def check (d : Date) : Except CalendarFault Date :=
  if d.year < 1 || 9999 < d.year then .error (.year d.year)
  else if d.month < 1 || 12 < d.month then .error .month
  else if d.day < 1 || daysIn d.year d.month < d.day then .error .day
  else .ok d

def text (d : Date) : String :=
  padded 4 d.year ++ "-" ++ padded 2 d.month ++ "-" ++ padded 2 d.day

/-- Days before the date, counted from the first day of year 1. -/
def ordinal (d : Date) : Nat :=
  let y := d.year - 1
  let months := (List.range (d.month - 1)).map fun i => daysIn d.year (i + 1)
  365 * y + y / 4 - y / 100 + y / 400 + months.foldl (· + ·) 0 + d.day - 1

def literal (d : Date) : String :=
  "datetime.date(" ++ Decimal.natText d.year ++ ", " ++ Decimal.natText d.month ++ ", " ++
    Decimal.natText d.day ++ ")"

def ofText? (s : String) : Option Date :=
  match (s.toList.splitOn '-').map fun cs =>
    if cs.all Decimal.isDigit && !cs.isEmpty then some (Decimal.digitsValue 0 cs) else none with
  | [some y, some m, some d] => some ⟨y, m, d⟩
  | _ => none

end Date

namespace DateTime

def check (t : DateTime) : Except CalendarFault DateTime := do
  match t.offset with
  | some o => if 1440 ≤ o.natAbs then throw (.offset o)
  | none => pure ()
  let _ ← t.date.check
  if 23 < t.hour then throw .hour
  if 59 < t.minute then throw .minute
  if 59 < t.second then throw .second
  return t

def offsetText (o : Int) : String :=
  (if o < 0 then "-" else "+") ++ padded 2 (o.natAbs / 60) ++ ":" ++ padded 2 (o.natAbs % 60)

def text (sep : String) (t : DateTime) : String :=
  t.date.text ++ sep ++ padded 2 t.hour ++ ":" ++ padded 2 t.minute ++ ":" ++ padded 2 t.second ++
    (if t.micros = 0 then "" else "." ++ padded 6 t.micros) ++
    (match t.offset with | some o => offsetText o | none => "")

/-- Microseconds since the start of year 1, in universal time where the offset is known. -/
def instant (t : DateTime) : Int :=
  let minutes : Int := (t.date.ordinal * 24 + t.hour) * 60 + t.minute - t.offset.getD 0
  (minutes * 60 + t.second) * 1000000 + t.micros

/-- Times with and without an offset never agree. -/
def eqv (s t : DateTime) : Bool :=
  s.offset.isSome == t.offset.isSome && s.instant == t.instant

/-- A span of minutes, days being rounded down. -/
def spanLiteral (minutes : Int) : String :=
  let days := minutes.fdiv 1440
  let seconds := minutes.fmod 1440 * 60
  let parts := (if days = 0 then [] else ["days=" ++ Decimal.intText days]) ++
    (if seconds = 0 then [] else ["seconds=" ++ Decimal.intText seconds])
  "datetime.timedelta(" ++ (if parts.isEmpty then "0" else ", ".intercalate parts) ++ ")"

def zoneLiteral (o : Int) : String :=
  if o = 0 then "datetime.timezone.utc" else "datetime.timezone(" ++ spanLiteral o ++ ")"

/-- Zero seconds and microseconds at the end are left out. -/
def literal (t : DateTime) : String :=
  let fine := if t.micros ≠ 0 then [t.second, t.micros] else if t.second ≠ 0 then [t.second] else []
  let fields := [t.date.year, t.date.month, t.date.day, t.hour, t.minute] ++ fine
  "datetime.datetime(" ++ ", ".intercalate (fields.map Decimal.natText ++
    (match t.offset with | some o => ["tzinfo=" ++ zoneLiteral o] | none => [])) ++ ")"

end DateTime

end BlockTree

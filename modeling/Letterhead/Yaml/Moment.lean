import Letterhead.Number.Rounding
import Letterhead.Text.Basic

/-!
Dates, and times of a day in a zone.
-/

namespace Letterhead.Yaml

/-- A time of day, with the distance of its zone from universal time in minutes. -/
structure Clock where
  hour : Nat
  minute : Nat
  second : Nat
  microsecond : Nat
  zone : Option Int
deriving DecidableEq

structure Moment where
  year : Nat
  month : Nat
  day : Nat
  clock : Option Clock
deriving DecidableEq

namespace Moment

def isLeap (year : Nat) : Bool := year % 4 == 0 && (year % 100 != 0 || year % 400 == 0)

def daysIn (year month : Nat) : Nat :=
  if month = 2 then if isLeap year then 29 else 28
  else if month ∈ [4, 6, 9, 11] then 30
  else 31

def minutesPerDay : Nat := 24 * 60

/-- There is such a time. -/
def Clock.isValid (c : Clock) : Bool :=
  c.hour < 24 && c.minute < 60 && c.second < 60 && c.zone.all (·.natAbs < minutesPerDay)

/-- There is such a day, and such a time. -/
def isValid (m : Moment) : Bool :=
  m.year ≠ 0 && 1 ≤ m.month && m.month ≤ 12 && 1 ≤ m.day && m.day ≤ daysIn m.year m.month &&
    m.clock.all Clock.isValid

/-! Reading. Every part takes as many digits as it may have. -/

def isDigit (c : CodePoint) : Bool := c.within 48 57

def value (ds : Text) : Nat := ds.foldl (fun n d => 10 * n + (d.val - 48)) 0

/-- A number of at least and at most so many digits. -/
def readDigits? (least most : Nat) (t : Text) : Option (Nat × Text) :=
  let ds := (t.take most).takeWhile isDigit
  if ds.length < least then none else some (value ds, t.drop ds.length)

def readMark? (mark : Char) : Text → Option Text
  | c :: rest => if c.is mark then some rest else none
  | [] => none

/-- Millionths behind a point, or none. -/
def readFraction (t : Text) : Nat × Text :=
  match readMark? '.' t with
  | some rest =>
    let ds := rest.takeWhile isDigit
    (value ((ds ++ List.replicate 6 (CodePoint.ofChar '0')).take 6), rest.drop ds.length)
  | none => (0, t)

def skipBlanks (t : Text) : Text := t.dropWhile fun c => c.is ' ' || c.is '\t'

/-- The distance of a zone in minutes, behind its sign. -/
def readDistance? (t : Text) : Option Nat := do
  let (hours, t) ← readDigits? 1 2 t
  if t.isEmpty then return 60 * hours
  let (minutes, t) ← readDigits? 2 2 (← readMark? ':' t)
  if t.isEmpty then return 60 * hours + minutes else none

/-- The zone at the end of a time: universal time, a distance, or none. -/
def readZone? (t : Text) : Option (Option Int) :=
  if t.isEmpty then some none
  else
    match skipBlanks t with
    | c :: rest =>
      if c.is 'Z' then if rest.isEmpty then some (some 0) else none
      else if c.is '+' then (readDistance? rest).map fun n => some (n : Int)
      else if c.is '-' then (readDistance? rest).map fun n => some (-(n : Int))
      else none
    | [] => none

def readClock? (t : Text) : Option Clock := do
  let (hour, t) ← readDigits? 1 2 t
  let (minute, t) ← readDigits? 2 2 (← readMark? ':' t)
  let (second, t) ← readDigits? 2 2 (← readMark? ':' t)
  let (microsecond, t) := readFraction t
  return ⟨hour, minute, second, microsecond, ← readZone? t⟩

/-- The time behind a date: a `T` or blanks come first. -/
def readTime? (t : Text) : Option Clock :=
  match t with
  | c :: rest =>
    if c.is 'T' || c.is 't' then readClock? rest
    else if c.is ' ' || c.is '\t' then readClock? (skipBlanks rest)
    else none
  | [] => none

def read? (t : Text) : Option Moment := do
  -- a line break at the very end does not count
  let t := if t.getLast? = some (CodePoint.ofChar '\n') then t.dropLast else t
  let (year, t) ← readDigits? 4 4 t
  let (month, t) ← readDigits? 1 2 (← readMark? '-' t)
  let (day, t) ← readDigits? 1 2 (← readMark? '-' t)
  if t.isEmpty then return ⟨year, month, day, none⟩
  else return ⟨year, month, day, some (← readTime? t)⟩

/-! Writing. -/

def intText (i : Int) : String := String.ofList (Number.intText i)

/-- A distance of time as days and seconds, where the seconds are never negative. -/
def distanceText (minutes : Int) : String :=
  let days := Int.fdiv minutes minutesPerDay
  let seconds := 60 * Int.fmod minutes minutesPerDay
  let parts :=
    (if days = 0 then [] else ["days=" ++ intText days]) ++
      (if seconds = 0 then [] else ["seconds=" ++ intText seconds])
  "datetime.timedelta(" ++ ", ".intercalate parts ++ ")"

def zoneText (minutes : Int) : String :=
  if minutes = 0 then "datetime.timezone.utc"
  else "datetime.timezone(" ++ distanceText minutes ++ ")"

/-- The parts of a time, without seconds and their fraction where these are zero. -/
def Clock.parts (c : Clock) : List Nat :=
  if c.microsecond ≠ 0 then [c.hour, c.minute, c.second, c.microsecond]
  else if c.second ≠ 0 then [c.hour, c.minute, c.second]
  else [c.hour, c.minute]

/-- The moment as messages show it. -/
def shown (m : Moment) : String :=
  let numbers (ns : List Nat) := ns.map fun (n : Nat) => intText n
  match m.clock with
  | none => "datetime.date(" ++ ", ".intercalate (numbers [m.year, m.month, m.day]) ++ ")"
  | some c =>
    let zone := match c.zone with
      | some z => ["tzinfo=" ++ zoneText z]
      | none => []
    "datetime.datetime(" ++
      ", ".intercalate (numbers ([m.year, m.month, m.day] ++ Clock.parts c) ++ zone) ++ ")"

end Moment

end Letterhead.Yaml

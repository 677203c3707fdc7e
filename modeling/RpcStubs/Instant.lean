namespace RpcStubs

/-!
# Points in time

A point in time and its text in UTC: date, time of day in whole seconds, and the letter `Z`.
-/

/--
Seconds since the start of 1970 and nanoseconds within the second.

Nanoseconds of a whole second or more stand for a leap second.
-/
structure Instant where
  seconds : Int
  nanoseconds : Nat
deriving Repr, DecidableEq

namespace Instant

/-- A number in decimal digits, filled with zeros to a width. -/
def padded (width number : Nat) : String :=
  let digits := toString number
  String.ofList (List.replicate (width - digits.length) '0') ++ digits

/-- A calendar day. -/
structure Day where
  year : Int
  month : Nat
  day : Nat
deriving Repr, DecidableEq

/--
The calendar day of a number of days since the start of 1970.

Days are counted from the first of March of year 0, in eras of 400 years; a year then ends
with February, so a leap day is the last day of its year.
-/
def Day.ofCount (count : Int) : Day :=
  let shifted := count + 719468
  let era := shifted.fdiv 146097
  let dayOfEra := (shifted.fmod 146097).toNat
  let yearOfEra := (dayOfEra - dayOfEra / 1460 + dayOfEra / 36524 - dayOfEra / 146096) / 365
  let dayOfYear := dayOfEra - (365 * yearOfEra + yearOfEra / 4 - yearOfEra / 100)
  let monthFromMarch := (5 * dayOfYear + 2) / 153
  let month := if monthFromMarch < 10 then monthFromMarch + 3 else monthFromMarch - 9
  { year := yearOfEra + era * 400 + (if month ≤ 2 then 1 else 0)
    month := month
    day := dayOfYear - (153 * monthFromMarch + 2) / 5 + 1 }

/-- The text of a year: four digits, and a sign before any year that needs more. -/
def yearText (year : Int) : String :=
  if 0 ≤ year ∧ year ≤ 9999 then
    padded 4 year.toNat
  else if year < 0 then
    "-" ++ padded 4 year.natAbs
  else
    "+" ++ padded 4 year.natAbs

/-- The text of a point in time. -/
def render (instant : Instant) : String :=
  let day := Day.ofCount (instant.seconds.fdiv 86400)
  let secondOfDay := (instant.seconds.fmod 86400).toNat
  let second := secondOfDay % 60 + instant.nanoseconds / 1000000000
  yearText day.year ++ "-" ++ padded 2 day.month ++ "-" ++ padded 2 day.day ++ "T" ++
    padded 2 (secondOfDay / 3600) ++ ":" ++ padded 2 (secondOfDay / 60 % 60) ++ ":" ++
    padded 2 second ++ "Z"

end Instant

end RpcStubs

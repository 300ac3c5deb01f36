import KernelCatalog.Text.Decimal

/-!
# Moments

A moment is counted from the start of the year 1970 and written as a date and a time of day in
Universal Time, such as `2024-02-29T23:59:59.250+00:00`.
-/

namespace KernelCatalog

/-- A moment, as the time since the start of the year 1970. -/
structure Moment where
  seconds : Nat
  nanoseconds : Nat
  deriving DecidableEq, Repr

namespace Moment

def daySeconds : Nat := 24 * 60 * 60

/-- The days from the first of March of the year 0 to the start of the year 1970. -/
def epochDays : Nat := 719468

/-- The days of four hundred years. -/
def eraDays : Nat := 146097

/-- The year, month and day of a number of days since the start of the year 1970. Years are counted
from March on, so that the day that only some years have is the last of its year. -/
def date (days : Nat) : Nat × Nat × Nat :=
  let shifted := days + epochDays
  let day := shifted % eraDays
  let year := (day - day / 1460 + day / 36524 - day / 146096) / 365
  let dayOfYear := day - (365 * year + year / 4 - year / 100)
  let month := (5 * dayOfYear + 2) / 153
  let dayOfMonth := dayOfYear - (153 * month + 2) / 5 + 1
  let years := shifted / eraDays * 400 + year
  if month < 10 then (years, month + 3, dayOfMonth) else (years + 1, month - 9, dayOfMonth)

/-- The leap day of the year 2000. -/
example : date 11016 = (2000, 2, 29) := by decide

/-- The last day of the year 1999. -/
example : date 10956 = (1999, 12, 31) := by decide

/-- A number with zeros in front of it. -/
def padded (width n : Nat) : String := Text.padLeft '0' width (toString n)

/-- The part of a second: none, or as many groups of three digits as it needs. -/
def fraction (nanoseconds : Nat) : String :=
  if nanoseconds = 0 then ""
  else if nanoseconds % 1000000 = 0 then "." ++ padded 3 (nanoseconds / 1000000)
  else if nanoseconds % 1000 = 0 then "." ++ padded 6 (nanoseconds / 1000)
  else "." ++ padded 9 nanoseconds

/-- The moment as text. -/
def text (moment : Moment) : String :=
  let (year, month, day) := date (moment.seconds / daySeconds)
  let second := moment.seconds % daySeconds
  padded 4 year ++ "-" ++ padded 2 month ++ "-" ++ padded 2 day ++ "T" ++ padded 2 (second / 3600)
    ++ ":" ++ padded 2 (second / 60 % 60) ++ ":" ++ padded 2 (second % 60)
    ++ fraction moment.nanoseconds ++ "+00:00"

end Moment

end KernelCatalog

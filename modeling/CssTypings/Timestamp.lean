import CssTypings.Text.Basic

/-!
# Timestamps

A time is written as the date and the time of day in universal time, to the millisecond. The date is
counted in cycles of 400 years that start on the first of March, so that a leap day is the last day
of its year.
-/

namespace CssTypings.Timestamp

/-- A date of the common calendar. -/
structure Date where
  year : Nat
  month : Nat
  day : Nat
deriving DecidableEq, Repr

/-- The date that is a number of days after the first of January 1970. -/
def dateOf (days : Nat) : Date :=
  let sinceMarch := days + 719468
  let cycle := sinceMarch / 146097
  let day := sinceMarch % 146097
  let year := (day - day / 1460 + day / 36524 - day / 146096) / 365
  let dayOfYear := day - (365 * year + year / 4 - year / 100)
  let month := (5 * dayOfYear + 2) / 153
  let dayOfMonth := dayOfYear - (153 * month + 2) / 5 + 1
  if month < 10 then ⟨400 * cycle + year, month + 3, dayOfMonth⟩
  else ⟨400 * cycle + year + 1, month - 9, dayOfMonth⟩

/-- A number with zeros in front up to a width. -/
def padded (width n : Nat) : Text :=
  let digits := Text.decimal n
  List.replicate (width - digits.length) '0' ++ digits

/-- The text for a number of milliseconds since the start of 1970. -/
def text (milliseconds : Nat) : Text :=
  let seconds := milliseconds / 1000
  let date := dateOf (seconds / 86400)
  let ofDay := seconds % 86400
  padded 4 date.year ++ '-' :: padded 2 date.month ++ '-' :: padded 2 date.day ++
    'T' :: padded 2 (ofDay / 3600) ++ ':' :: padded 2 (ofDay / 60 % 60) ++
    ':' :: padded 2 (ofDay % 60) ++ '.' :: padded 3 (milliseconds % 1000) ++ ['Z']

end CssTypings.Timestamp

/-! Timestamps `YYYY-MM-DD HH:MM:SS` in the Gregorian calendar, for seconds since the beginning of 1970. -/
namespace Interdomain.Log

structure Date where
  year : Nat
  month : Nat
  day : Nat
  deriving Repr, DecidableEq

/-- The days from the first of March of year zero to the beginning of 1970. -/
def daysTo1970 : Nat := 719468

def daysPerEra : Nat := 146097

/-- The date so many days after the first of January 1970. Years are counted from March, so that the leap
day comes last. -/
def Date.ofDays (days : Nat) : Date :=
  let z := days + daysTo1970
  let dayOfEra := z % daysPerEra
  let yearOfEra := (dayOfEra - dayOfEra / 1460 + dayOfEra / 36524 - dayOfEra / 146096) / 365
  let dayOfYear := dayOfEra - (365 * yearOfEra + yearOfEra / 4 - yearOfEra / 100)
  let m := (5 * dayOfYear + 2) / 153
  let month := if m < 10 then m + 3 else m - 9
  let year := yearOfEra + z / daysPerEra * 400
  ⟨if month ≤ 2 then year + 1 else year, month, dayOfYear - (153 * m + 2) / 5 + 1⟩

def padded (width n : Nat) : String :=
  let digits := Nat.repr n
  "".pushn '0' (width - digits.length) ++ digits

/-- The text of an instant, given in seconds since the beginning of 1970. -/
def timestamp (seconds : Nat) : String :=
  let date := Date.ofDays (seconds / 86400)
  let time := seconds % 86400
  padded 4 date.year ++ "-" ++ padded 2 date.month ++ "-" ++ padded 2 date.day ++ " " ++
    padded 2 (time / 3600) ++ ":" ++ padded 2 (time / 60 % 60) ++ ":" ++ padded 2 (time % 60)

example : Date.ofDays 19723 = ⟨2024, 1, 1⟩ := by decide
example : Date.ofDays 19782 = ⟨2024, 2, 29⟩ := by decide

end Interdomain.Log

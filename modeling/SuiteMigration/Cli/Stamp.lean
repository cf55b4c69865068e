import SuiteMigration.Text.Basic

/-!
Times as they stand in the names of generated branches: the day and the time of day in digits.
-/

set_option autoImplicit false
set_option relaxedAutoImplicit false

namespace SuiteMigration.Cli

structure Date where
  year : Nat
  month : Nat
  day : Nat
  deriving DecidableEq, Repr

/-- The date of a day, counted from the first of January 1970. The count goes through the years that
start in March, of which 400 have always the same number of days. -/
def Date.ofDays (days : Nat) : Date :=
  let shifted := days + 719468
  let inEra := shifted % 146097
  let yearInEra := (inEra - inEra / 1460 + inEra / 36524 - inEra / 146096) / 365
  let inYear := inEra - (365 * yearInEra + yearInEra / 4 - yearInEra / 100)
  let fromMarch := (5 * inYear + 2) / 153
  let month := if fromMarch < 10 then fromMarch + 3 else fromMarch - 9
  let year := yearInEra + shifted / 146097 * 400
  { year := if month ≤ 2 then year + 1 else year
    month
    day := inYear - (153 * fromMarch + 2) / 5 + 1 }

/-- A number with at least the given number of digits. -/
def padded (width number : Nat) : String :=
  let digits := Nat.toDigits 10 number
  String.ofList (List.replicate (width - digits.length) '0' ++ digits)

/-- The time that lies the given number of seconds after the start of 1970. -/
def stamp (seconds : Nat) : String :=
  let date := Date.ofDays (seconds / 86400)
  padded 4 date.year ++ padded 2 date.month ++ padded 2 date.day ++ "-" ++
    padded 2 (seconds / 3600 % 24) ++ padded 2 (seconds / 60 % 60) ++ padded 2 (seconds % 60)

/-- The branch of a migration that starts at a time and names none. -/
def generatedBranch (seconds : Nat) : String :=
  "robomigrate/" ++ stamp seconds

end SuiteMigration.Cli

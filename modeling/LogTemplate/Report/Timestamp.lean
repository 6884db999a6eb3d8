import LogTemplate.Text.Basic

/-!
# LogTemplate.Report.Timestamp

Points in time as texts: `2024-02-29T12:00:00.000Z`.

* `Date.ofDays` — the calendar date of a day, counted from the first day of 1970.
* `timestamp` — the date and the time of day, in universal time.
-/

namespace LogTemplate.Report

structure Date where
  year : Int
  month : Nat
  day : Nat
deriving Repr, DecidableEq

/-- Years are counted from March, so that a leap day is the last of its year; 400 years have 146097
days, and the months from March on have 153 days in every five. -/
def Date.ofDays (days : Int) : Date :=
  let shifted := days + 719468
  let era := Int.fdiv shifted 146097
  let dayOfEra := (shifted - era * 146097).toNat
  let yearOfEra :=
    (dayOfEra - dayOfEra / 1460 + dayOfEra / 36524 - dayOfEra / 146096) / 365
  let dayOfYear := dayOfEra - (365 * yearOfEra + yearOfEra / 4 - yearOfEra / 100)
  let fromMarch := (5 * dayOfYear + 2) / 153
  let month := if fromMarch < 10 then fromMarch + 3 else fromMarch - 9
  { year := (yearOfEra : Int) + era * 400 + if month ≤ 2 then 1 else 0
    month := month
    day := dayOfYear - (153 * fromMarch + 2) / 5 + 1 }

/-- The digits of a number, filled up with zeros. -/
def padded (width n : Nat) : Text :=
  let digits := Text.ofNat n
  List.replicate (width - digits.length) (Text.ofAscii '0') ++ digits

/-- A time in seconds and milliseconds since the start of 1970. -/
def timestamp (seconds : Int) (milliseconds : Nat) : Text :=
  let days := Int.fdiv seconds 86400
  let ofDay := (seconds - days * 86400).toNat
  let date := Date.ofDays days
  padded 4 date.year.toNat ++ Text.hyphen :: padded 2 date.month ++ Text.hyphen
    :: padded 2 date.day ++ Text.ofAscii 'T' :: padded 2 (ofDay / 3600) ++ Text.colon
    :: padded 2 (ofDay / 60 % 60) ++ Text.colon :: padded 2 (ofDay % 60) ++ Text.dot
    :: padded 3 milliseconds ++ [Text.ofAscii 'Z']

end LogTemplate.Report

import StellarWallet.Number.Arithmetic

/-!
Points in time, their text, and identifiers made from them.

A point in time is a count of seconds since the start of 1970, and microseconds. Dates follow the
Gregorian calendar in universal time.
-/

namespace StellarWallet

structure Instant where
  seconds : Int
  micros : Nat
  deriving DecidableEq, Repr

namespace Instant

/-- At least `width` digits. -/
def pad (width : Nat) (n : Int) : String :=
  let ds := toString n.natAbs
  String.ofList (List.replicate (width - ds.length) '0') ++ ds

/-- Year, month and day of a count of days since the start of 1970, found within eras of 400 years
that begin in March. -/
def civil (days : Int) : Int × Int × Int :=
  let z := days + 719468
  let era := z.fdiv 146097
  let dayOfEra := z.fmod 146097
  let yearOfEra := (dayOfEra - dayOfEra / 1460 + dayOfEra / 36524 - dayOfEra / 146096) / 365
  let dayOfYear := dayOfEra - (365 * yearOfEra + yearOfEra / 4 - yearOfEra / 100)
  let shifted := (5 * dayOfYear + 2) / 153
  let day := dayOfYear - (153 * shifted + 2) / 5 + 1
  let month := if shifted < 10 then shifted + 3 else shifted - 9
  (yearOfEra + era * 400 + (if month ≤ 2 then 1 else 0), month, day)

/-- Date and time of day, with a mark between them. -/
def dateTime (t : Instant) (mark : String) : String :=
  let (year, month, day) := civil (t.seconds.fdiv 86400)
  let s := t.seconds.fmod 86400
  pad 4 year ++ "-" ++ pad 2 month ++ "-" ++ pad 2 day ++ mark ++ pad 2 (s / 3600) ++ ":"
    ++ pad 2 (s / 60 % 60) ++ ":" ++ pad 2 (s % 60)

/-- The timestamp of records: microseconds only where there are some. -/
def timestamp (t : Instant) : String :=
  t.dateTime "T" ++ (if t.micros = 0 then "" else "." ++ pad 6 t.micros) ++ "+00:00"

/-- The time of day of log lines. -/
def logTime (t : Instant) : String := t.dateTime " "

/-- The seconds since the start of 1970 in binary64. -/
def epoch (t : Instant) : Binary64 :=
  (Binary64.ofInt t.seconds).add (.ofRatio false t.micros 1000000)

/-- The identifier that the `n`-th draw at a time gives: milliseconds, and the draw in base
sixteen. -/
def identifier (t : Instant) (n : Nat) : String :=
  let millis := (t.epoch.mul (.ofInt 1000)).truncate?.getD 0
  let ds := Nat.toDigits 16 n
  toString millis ++ "-" ++ String.ofList (List.replicate (12 - ds.length) '0' ++ ds)

end Instant

end StellarWallet

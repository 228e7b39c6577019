import SupervisedWorker.Time.Duration

/-!
# Instants in universal time

An instant counts seconds from 1970-01-01. Its text is that of RFC 3339 with a zero offset. A
nanosecond count of a whole second or more marks a leap second: the second before it is shown as
the sixtieth.
-/

namespace SupervisedWorker

/-- An instant: whole seconds since 1970-01-01, and nanoseconds into that second. -/
structure Timestamp where
  secs : Int
  nanos : Nat
deriving DecidableEq, Repr, Inhabited

namespace Timestamp

/-- Instants in the order of time; a leap second lies behind the second that it prolongs. -/
def le (a b : Timestamp) : Bool := a.secs < b.secs || (a.secs == b.secs && a.nanos ≤ b.nanos)

/-- The instant of a number of nanoseconds since 1970-01-01. -/
def ofNanos (n : Int) : Timestamp := ⟨n.fdiv 1000000000, (n.fmod 1000000000).toNat⟩

/-- The instant after a span of time, without leap seconds. -/
def after (t : Timestamp) (d : Duration) : Timestamp :=
  ofNanos (t.secs * 1000000000 + t.nanos + d.nanos)

/-- Year, month and day of a day counted from 1970-01-01, in the proleptic Gregorian calendar.
Years begin in March, so that the day added every fourth year is the last one. -/
def civilDate (days : Int) : Int × Nat × Nat :=
  let shifted := days + 719468
  let era := Int.fdiv shifted 146097
  let dayOfEra := (shifted - era * 146097).toNat
  let yearOfEra := (dayOfEra - dayOfEra / 1460 + dayOfEra / 36524 - dayOfEra / 146096) / 365
  let dayOfYear := dayOfEra - (365 * yearOfEra + yearOfEra / 4 - yearOfEra / 100)
  let marchMonth := (5 * dayOfYear + 2) / 153
  let day := dayOfYear - (153 * marchMonth + 2) / 5 + 1
  let month := if marchMonth < 10 then marchMonth + 3 else marchMonth - 9
  let year := (yearOfEra : Int) + era * 400 + (if month ≤ 2 then 1 else 0)
  (year, month, day)

/-- At least `width` digits. -/
def padded (width n : Nat) : String := String.ofList (Duration.paddedDigits width n)

/-- Four digits; a year that needs more, or lies before year 0, carries a sign. -/
def yearText (year : Int) : String :=
  if 0 ≤ year && year ≤ 9999 then padded 4 year.toNat
  else (if year < 0 then "-" else "+") ++ padded 4 year.natAbs

/-- The fraction of a second in three, six or nine digits, whichever is exact first. -/
def fractionText (nanos : Nat) : String :=
  if nanos = 0 then ""
  else if nanos % 1000000 = 0 then "." ++ padded 3 (nanos / 1000000)
  else if nanos % 1000 = 0 then "." ++ padded 6 (nanos / 1000)
  else "." ++ padded 9 nanos

/-- The instant as RFC 3339 writes it. -/
def text (t : Timestamp) : String :=
  let (year, month, day) := civilDate (Int.fdiv t.secs 86400)
  let inDay := (Int.fmod t.secs 86400).toNat
  let leap := t.nanos ≥ 1000000000
  let second := inDay % 60 + (if leap then 1 else 0)
  let nanos := if leap then t.nanos - 1000000000 else t.nanos
  yearText year ++ "-" ++ padded 2 month ++ "-" ++ padded 2 day ++ "T"
    ++ padded 2 (inDay / 3600) ++ ":" ++ padded 2 (inDay / 60 % 60) ++ ":" ++ padded 2 second
    ++ fractionText nanos ++ "+00:00"

end Timestamp

end SupervisedWorker

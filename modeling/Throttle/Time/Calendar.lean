import Throttle.Time.Instant

/-!
# Calendar text of instants

Dates follow the Gregorian calendar in both directions. A year outside 0 to 9999
carries a sign. Seconds have no fraction or one of three, six or nine digits,
whichever is the first to be exact.
-/

namespace Throttle

namespace Text

def digits (n : Nat) : String := toString n

def padded (width n : Nat) : String :=
  let s := (digits n).toList
  String.ofList (List.replicate (width - s.length) '0' ++ s)

end Text

structure Date where
  year : Int
  month : Nat
  day : Nat
  deriving DecidableEq, Repr

namespace Date

/-- The date `n` days after the first of January 1970. Years are counted from
March here, so that the leap day is the last of its year; 146097 days make four
centuries. -/
def ofDays (n : Int) : Date :=
  let shifted := n + 719468
  let era := shifted.fdiv 146097
  let dayOfEra := (shifted.fmod 146097).toNat
  let yearOfEra := (dayOfEra - dayOfEra / 1460 + dayOfEra / 36524 - dayOfEra / 146096) / 365
  let dayOfYear := dayOfEra - (365 * yearOfEra + yearOfEra / 4 - yearOfEra / 100)
  let monthFromMarch := (5 * dayOfYear + 2) / 153
  let day := dayOfYear - (153 * monthFromMarch + 2) / 5 + 1
  let month := if monthFromMarch < 10 then monthFromMarch + 3 else monthFromMarch - 9
  let year := era * 400 + yearOfEra
  ⟨if month ≤ 2 then year + 1 else year, month, day⟩

def yearText (year : Int) : String :=
  if 0 ≤ year ∧ year ≤ 9999 then Text.padded 4 year.toNat
  else (if year < 0 then "-" else "+") ++ Text.padded 4 year.natAbs

def text (d : Date) : String :=
  yearText d.year ++ "-" ++ Text.padded 2 d.month ++ "-" ++ Text.padded 2 d.day

end Date

namespace Instant

def fractionText (nanos : Nat) : String :=
  if nanos = 0 then ""
  else if nanos % 1000000 = 0 then "." ++ Text.padded 3 (nanos / 1000000)
  else if nanos % 1000 = 0 then "." ++ Text.padded 6 (nanos / 1000)
  else "." ++ Text.padded 9 nanos

def calendarText (t : Instant) : String :=
  let seconds := t.ns.fdiv 1000000000
  let nanos := (t.ns.fmod 1000000000).toNat
  let secondOfDay := (seconds.fmod 86400).toNat
  (Date.ofDays (seconds.fdiv 86400)).text ++ " " ++
    Text.padded 2 (secondOfDay / 3600) ++ ":" ++ Text.padded 2 (secondOfDay / 60 % 60) ++ ":" ++
    Text.padded 2 (secondOfDay % 60) ++ fractionText nanos ++ " UTC"

end Instant
end Throttle

/-!
Points in time as dates of the proleptic Gregorian calendar in UTC. Days are counted from the
start of 1970, and a year starts in March for the counting, so that the leap day comes last.
-/
namespace VtableMerge

structure Date where
  year : Int
  month : Nat
  day : Nat
deriving DecidableEq

namespace Date

/-- Days of an era of 400 years. -/
def eraDays : Int := 146097

/-- Days from the start of March of year 0 to the start of 1970. -/
def epochShift : Int := 719468

def ofDays (days : Int) : Date :=
  let shifted := days + epochShift
  let era := shifted / eraDays
  let dayOfEra := (shifted % eraDays).toNat
  let yearOfEra := (dayOfEra - dayOfEra / 1460 + dayOfEra / 36524 - dayOfEra / 146096) / 365
  let dayOfYear := dayOfEra - (365 * yearOfEra + yearOfEra / 4 - yearOfEra / 100)
  let monthFromMarch := (5 * dayOfYear + 2) / 153
  let month := if monthFromMarch < 10 then monthFromMarch + 3 else monthFromMarch - 9
  { year := yearOfEra + era * 400 + if month ≤ 2 then 1 else 0
    month
    day := dayOfYear - (153 * monthFromMarch + 2) / 5 + 1 }

def toDays (d : Date) : Int :=
  let year := if d.month ≤ 2 then d.year - 1 else d.year
  let era := year / 400
  let yearOfEra := (year % 400).toNat
  let monthFromMarch := if 2 < d.month then d.month - 3 else d.month + 9
  let dayOfYear := (153 * monthFromMarch + 2) / 5 + d.day - 1
  let dayOfEra := yearOfEra * 365 + yearOfEra / 4 - yearOfEra / 100 + dayOfYear
  era * eraDays + dayOfEra - epochShift

/-- The first and the last day that can be written. -/
def first : Date := ⟨-262143, 1, 1⟩

def last : Date := ⟨262142, 12, 31⟩

end Date

namespace Timestamp

/-- A number in decimal digits with zeros in front up to a width. -/
def padded (width n : Nat) : String :=
  let digits := Nat.toDigits 10 n
  String.ofList (List.replicate (width - digits.length) '0' ++ digits)

/-- Years outside 0 to 9999 have a sign. -/
def yearText (year : Int) : String :=
  let sign := if year < 0 then "-" else if 9999 < year then "+" else ""
  sign ++ padded 4 year.natAbs

def secondsOfDay : Int := 86400

/-- The text of a point in time given by seconds and nanoseconds after the start of 1970, cut to
the second before it. There is none outside the range of dates. -/
def format? (seconds : Int) (nanoseconds : Nat) : Option String :=
  let seconds := seconds + nanoseconds / 1000000000
  let days := seconds / secondsOfDay
  let time := (seconds % secondsOfDay).toNat
  if days < Date.first.toDays || Date.last.toDays < days then none
  else
    let date := Date.ofDays days
    some (yearText date.year ++ "-" ++ padded 2 date.month ++ "-" ++ padded 2 date.day ++ "T"
      ++ padded 2 (time / 3600) ++ ":" ++ padded 2 (time / 60 % 60) ++ ":" ++ padded 2 (time % 60)
      ++ "Z")

end Timestamp

end VtableMerge

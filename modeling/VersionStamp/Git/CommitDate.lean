import VersionStamp.Failure
import VersionStamp.Git.Signature

namespace VersionStamp.Git

/-!
# The date of a commit

The date is the day of the proleptic Gregorian calendar on which the commit was made, by the clock
of its committer. Days are counted from 1970-01-01.
-/

/-- A day of the calendar. Year 0 is the year before year 1. -/
structure CivilDate where
  year : Int
  month : Nat
  day : Nat
  deriving DecidableEq

namespace CivilDate

/-- The day with the given number. Years are taken to begin in March, so that the leap day is the
last of its year; 400 of them have 146097 days. -/
def ofDayNumber (number : Int) : CivilDate :=
  let shifted := number + 719468
  let era := shifted.fdiv 146097
  let dayOfEra := (shifted.fmod 146097).toNat
  let yearOfEra := (dayOfEra - dayOfEra / 1460 + dayOfEra / 36524 - dayOfEra / 146096) / 365
  let dayOfYear := dayOfEra - (365 * yearOfEra + yearOfEra / 4 - yearOfEra / 100)
  let marchMonth := (5 * dayOfYear + 2) / 153
  let month := if marchMonth < 10 then marchMonth + 3 else marchMonth - 9
  ⟨yearOfEra + era * 400 + (if month ≤ 2 then 1 else 0), month,
    dayOfYear - (153 * marchMonth + 2) / 5 + 1⟩

def yearText (year : Int) : Text :=
  let digits := Text.zeroPadded 4 (Text.ofNat year.natAbs)
  if year < 0 then "-" ++ digits else if year > 9999 then "+" ++ digits else digits

def render (d : CivilDate) : Text :=
  yearText d.year ++ "-" ++ Text.zeroPadded 2 (Text.ofNat d.month) ++ "-" ++
    Text.zeroPadded 2 (Text.ofNat d.day)

example : ofDayNumber 0 = ⟨1970, 1, 1⟩ := by decide

example : render (ofDayNumber (-719529)) = "-0001-12-31" := by decide

example : render (ofDayNumber 18321) = "2020-02-29" := by decide

end CivilDate

/-- The offset of a moment in seconds, as a number of 32 bits. -/
def Moment.offsetSeconds (m : Moment) : Int :=
  (60 * m.offset).bmod 4294967296

def Moment.dayNumber (m : Moment) : Int :=
  (m.seconds + m.offsetSeconds).fdiv 86400

/-- The date of a moment. The offset has to be less than a day and the time within the range that
dates are computed for. -/
def Moment.date (m : Moment) : Except Failure Text :=
  if m.offsetSeconds.natAbs ≥ 86400 then .error (.git .offsetOutOfRange)
  else if m.seconds < -8334601228800 ∨ m.seconds > 8210266876799 then .error (.git .timeOutOfRange)
  else .ok (CivilDate.ofDayNumber m.dayNumber).render

example : (Moment.date ⟨1593691200, 330⟩).toOption = some ("2020-07-02" : Text) := by decide

/-- Offsets in 32 bits of seconds are taken as they are. -/
theorem Moment.offsetSeconds_eq (m : Moment) (h : m.offset.natAbs < 35791394) :
    m.offsetSeconds = 60 * m.offset := by
  apply Int.bmod_eq_of_le <;> omega

end VersionStamp.Git

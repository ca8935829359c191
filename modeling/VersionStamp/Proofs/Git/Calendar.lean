import Mathlib.Tactic.IntervalCases
import VersionStamp.Git.CommitDate

namespace VersionStamp.Git.CivilDate

/-!
# The calendar

A day is followed by the next one of its month, the last one of a month by the first of the next,
and the last one of a year by the first of January. Counted along these steps from 1970-01-01,
before it as well as after it, each number is that of one day, the one that is computed from it.
-/

/-- Every fourth year is a leap year, but of the years that are full centuries only every fourth. -/
def IsLeapYear (year : Int) : Prop :=
  4 ∣ year ∧ (100 ∣ year → 400 ∣ year)

instance (year : Int) : Decidable (IsLeapYear year) :=
  inferInstanceAs (Decidable (_ ∧ _))

def monthLength (year : Int) : Nat → Nat
  | 2 => if IsLeapYear year then 29 else 28
  | 4 | 6 | 9 | 11 => 30
  | _ => 31

def leapDays (year : Int) : Nat :=
  if IsLeapYear year then 1 else 0

structure IsDay (d : CivilDate) : Prop where
  month_pos : 1 ≤ d.month
  month_le : d.month ≤ 12
  day_pos : 1 ≤ d.day
  day_le : d.day ≤ monthLength d.year d.month

def next (d : CivilDate) : CivilDate :=
  if d.day < monthLength d.year d.month then ⟨d.year, d.month, d.day + 1⟩
  else if d.month < 12 then ⟨d.year, d.month + 1, 1⟩
  else ⟨d.year + 1, 1, 1⟩

/-- The number of a day, counted from 1970-01-01 day by day in both directions. -/
inductive IsDayNumber : CivilDate → Int → Prop where
  | epoch : IsDayNumber ⟨1970, 1, 1⟩ 0
  | next {d : CivilDate} {n : Int} (h : IsDayNumber d n) : IsDayNumber d.next (n + 1)
  | previous {d : CivilDate} {n : Int} (hd : d.IsDay) (h : IsDayNumber d.next n) :
      IsDayNumber d (n - 1)

/-! ## Counting days -/

def daysBeforeYear (year : Int) : Int :=
  365 * year + (year - 1) / 4 - (year - 1) / 100 + (year - 1) / 400 - 719527

def daysBeforeMonth (year : Int) : Nat → Nat
  | 0 | 1 => 0
  | month + 2 => daysBeforeMonth year (month + 1) + monthLength year (month + 1)

def number (d : CivilDate) : Int :=
  daysBeforeYear d.year + daysBeforeMonth d.year d.month + d.day - 1

variable {year : Int} {d e : CivilDate}

/-- The days of a year are 365 or 366. -/
theorem daysBeforeYear_succ (year : Int) :
    daysBeforeYear (year + 1) = daysBeforeYear year + 365 + leapDays year := by
  rw [leapDays]
  split
  all_goals
    simp only [IsLeapYear] at *
    simp only [daysBeforeYear]
    omega

theorem daysBeforeYear_le {year later : Int} (h : year ≤ later) :
    daysBeforeYear year ≤ daysBeforeYear later := by
  simp only [daysBeforeYear]
  omega

theorem daysBeforeMonth_succ (year : Int) {month : Nat} (h : 1 ≤ month) :
    daysBeforeMonth year (month + 1) = daysBeforeMonth year month + monthLength year month := by
  obtain ⟨before, rfl⟩ := Nat.exists_eq_add_of_le' h
  rfl

theorem daysBeforeMonth_le (year : Int) {month later : Nat} (h : month ≤ later) :
    daysBeforeMonth year month ≤ daysBeforeMonth year later := by
  induction later, h using Nat.le_induction with
  | base => exact Nat.le_refl _
  | succ later _ ih =>
      apply Nat.le_trans ih
      cases later with
      | zero => exact Nat.le_refl _
      | succ before => exact Nat.le_add_right _ _

theorem daysBeforeMonth_thirteen (year : Int) :
    daysBeforeMonth year 13 = 365 + leapDays year := by
  simp only [daysBeforeMonth, monthLength, leapDays]
  split <;> rfl

theorem daysBeforeYear_succ_eq (year : Int) :
    daysBeforeYear (year + 1) = daysBeforeYear year + daysBeforeMonth year 13 := by
  calc
    daysBeforeYear (year + 1) = daysBeforeYear year + 365 + leapDays year :=
      daysBeforeYear_succ year
    _ = daysBeforeYear year + (365 + leapDays year : Nat) := Int.add_assoc _ _ _
    _ = daysBeforeYear year + daysBeforeMonth year 13 := by rw [daysBeforeMonth_thirteen]

theorem monthLength_pos (year : Int) (month : Nat) : 1 ≤ monthLength year month := by
  fun_cases monthLength year month <;> decide

theorem isDay_mk {month day : Nat} (hpos : 1 ≤ month) (hle : month ≤ 12) (hday : 1 ≤ day)
    (hlast : day ≤ monthLength year month) : IsDay ⟨year, month, day⟩ :=
  ⟨hpos, hle, hday, hlast⟩

theorem isDay_next (h : d.IsDay) : d.next.IsDay := by
  obtain ⟨hpos, hle, -, -⟩ := h
  rw [next]
  split
  next hday => exact isDay_mk hpos hle (Nat.le_add_left 1 _) hday
  next =>
    split
    next hmonth => exact isDay_mk (Nat.le_add_left 1 _) hmonth (by decide) (monthLength_pos _ _)
    next => exact isDay_mk (by decide) (by decide) (by decide) (monthLength_pos _ _)

/-- The next day has the next number. -/
theorem number_next (h : d.IsDay) : d.next.number = d.number + 1 := by
  obtain ⟨hpos, hle, -, hday⟩ := h
  rw [next]
  split
  next => simp only [number]; omega
  next hlast =>
    split
    next =>
      have hmonth := daysBeforeMonth_succ d.year hpos
      simp only [number]
      omega
    next hmore =>
      have hdecember : d.month = 12 := by omega
      have hyear := daysBeforeYear_succ_eq d.year
      have hmonth : daysBeforeMonth d.year 13 =
          daysBeforeMonth d.year 12 + monthLength d.year 12 := rfl
      have hjanuary : daysBeforeMonth (d.year + 1) 1 = 0 := rfl
      rw [hdecember] at hday hlast
      simp only [number, hdecember]
      omega

/-! ## The order of days -/

def Precedes (d e : CivilDate) : Prop :=
  d.year < e.year ∨ d.year = e.year ∧ (d.month < e.month ∨ d.month = e.month ∧ d.day < e.day)

theorem number_lt_of_month (hd : d.IsDay) {month : Nat} (h : d.month < month) :
    d.number < daysBeforeYear d.year + daysBeforeMonth d.year month := by
  have hsucc := daysBeforeMonth_succ d.year hd.month_pos
  have hle : daysBeforeMonth d.year (d.month + 1) ≤ daysBeforeMonth d.year month :=
    daysBeforeMonth_le d.year h
  have hday := hd.day_le
  rw [number]
  omega

/-- The days of a year have the numbers from its first day up to that of the next year. -/
theorem number_range (hd : d.IsDay) :
    daysBeforeYear d.year ≤ d.number ∧ d.number < daysBeforeYear (d.year + 1) := by
  have hend : d.number < daysBeforeYear d.year + daysBeforeMonth d.year 13 :=
    number_lt_of_month hd (Nat.lt_succ_of_le hd.month_le)
  have hpos := hd.day_pos
  rw [daysBeforeYear_succ_eq]
  refine ⟨?_, hend⟩
  rw [number]
  omega

/-- An earlier day has a lower number. -/
theorem number_lt_of_precedes (hd : d.IsDay) (he : e.IsDay) (h : d.Precedes e) :
    d.number < e.number := by
  rcases h with hyear | ⟨hyear, hmonth | ⟨hmonth, hday⟩⟩
  · calc
      d.number < daysBeforeYear (d.year + 1) := (number_range hd).2
      _ ≤ daysBeforeYear e.year := daysBeforeYear_le (Int.add_one_le_of_lt hyear)
      _ ≤ e.number := (number_range he).1
  · have hend := number_lt_of_month hd hmonth
    have hpos := he.day_pos
    rw [hyear] at hend
    simp only [number] at *
    omega
  · simp only [number, hyear, hmonth]
    omega

theorem precedes_trichotomy (d e : CivilDate) : d.Precedes e ∨ d = e ∨ e.Precedes d := by
  obtain ⟨year, month, day⟩ := d
  obtain ⟨year', month', day'⟩ := e
  simp only [Precedes, mk.injEq]
  omega

theorem precedes_of_number_lt (hd : d.IsDay) (he : e.IsDay) (h : d.number < e.number) :
    d.Precedes e := by
  rcases precedes_trichotomy d e with hlt | rfl | hgt
  · exact hlt
  · exact absurd h (Int.lt_irrefl _)
  · exact absurd (number_lt_of_precedes he hd hgt) (Int.lt_asymm h)

/-- A number is that of one day only. -/
theorem eq_of_number_eq (hd : d.IsDay) (he : e.IsDay) (h : d.number = e.number) : d = e := by
  rcases precedes_trichotomy d e with hlt | heq | hgt
  · exact absurd h (Int.ne_of_lt (number_lt_of_precedes hd he hlt))
  · exact heq
  · exact absurd h (Int.ne_of_gt (number_lt_of_precedes he hd hgt))

/-! ## Years that begin in March -/

/-- The day so many days behind the first of March of a year. -/
def ofMarchDay (year : Int) (dayOfYear : Nat) : CivilDate :=
  -- From March on any five months have 153 days, and the leap day is the last day of all.
  let marchMonth := (5 * dayOfYear + 2) / 153
  let month := if marchMonth < 10 then marchMonth + 3 else marchMonth - 9
  ⟨year + (if month ≤ 2 then 1 else 0), month, dayOfYear - (153 * marchMonth + 2) / 5 + 1⟩

theorem daysBeforeMonth_add_three (year : Int) {marchMonth : Nat} (h : marchMonth ≤ 9) :
    daysBeforeMonth year (marchMonth + 3) =
      (153 * marchMonth + 2) / 5 + 59 + leapDays year := by
  interval_cases marchMonth <;> simp only [daysBeforeMonth, monthLength, leapDays] <;> split <;> rfl

theorem monthLength_add_three (year : Int) {marchMonth : Nat} (h : marchMonth ≤ 9) :
    (153 * marchMonth + 2) / 5 + monthLength year (marchMonth + 3) =
      (153 * (marchMonth + 1) + 2) / 5 := by
  interval_cases marchMonth <;> rfl

/-- The last day of a year that begins in March is a leap day, if it has a number that high. -/
theorem ofMarchDay_eq {dayOfYear : Nat} (hle : dayOfYear ≤ 365)
    (hleap : dayOfYear = 365 → IsLeapYear (year + 1)) :
    (ofMarchDay year dayOfYear).IsDay ∧ (ofMarchDay year dayOfYear).number =
      365 * year + year / 4 - year / 100 + year / 400 - 719468 + dayOfYear := by
  generalize hmarch : (5 * dayOfYear + 2) / 153 = marchMonth
  have hfrom : (153 * marchMonth + 2) / 5 ≤ dayOfYear := by omega
  have hto : dayOfYear < (153 * (marchMonth + 1) + 2) / 5 := by omega
  -- January and February are in the year of the calendar that follows.
  obtain hmonth | rfl | rfl : marchMonth ≤ 9 ∨ marchMonth = 10 ∨ marchMonth = 11 := by omega
  · have hdate : ofMarchDay year dayOfYear =
        ⟨year, marchMonth + 3, dayOfYear - (153 * marchMonth + 2) / 5 + 1⟩ := by
      simp [ofMarchDay, hmarch, Nat.lt_succ_of_le hmonth]
    have hlength := monthLength_add_three year hmonth
    have hmonths := daysBeforeMonth_add_three year hmonth
    have hyear := daysBeforeYear_succ year
    rw [hdate]
    refine ⟨isDay_mk (by omega) (by omega) (by omega) (by omega), ?_⟩
    simp only [number, daysBeforeYear] at *
    omega
  · have hdate : ofMarchDay year dayOfYear = ⟨year + 1, 1, dayOfYear - 306 + 1⟩ := by
      simp [ofMarchDay, hmarch]
    have hlength : monthLength (year + 1) 1 = 31 := rfl
    rw [hdate]
    refine ⟨isDay_mk (by omega) (by omega) (by omega) (by omega), ?_⟩
    simp only [number, daysBeforeYear, daysBeforeMonth]
    omega
  · have hdate : ofMarchDay year dayOfYear = ⟨year + 1, 2, dayOfYear - 337 + 1⟩ := by
      simp [ofMarchDay, hmarch]
    have hlength : dayOfYear - 337 + 1 ≤ monthLength (year + 1) 2 := by
      rw [monthLength]
      split
      next => omega
      next hcommon =>
        have hne : dayOfYear ≠ 365 := fun heq => hcommon (hleap heq)
        omega
    rw [hdate]
    refine ⟨isDay_mk (by omega) (by omega) (by omega) hlength, ?_⟩
    simp only [number, daysBeforeYear, daysBeforeMonth, monthLength]
    omega

/-! ## Eras of 400 years -/

def yearOfEra (dayOfEra : Nat) : Nat :=
  (dayOfEra - dayOfEra / 1460 + dayOfEra / 36524 - dayOfEra / 146096) / 365

def ofEraDay (era : Int) (dayOfEra : Nat) : CivilDate :=
  let year := yearOfEra dayOfEra
  ofMarchDay (year + era * 400) (dayOfEra - (365 * year + year / 4 - year / 100))

theorem ofDayNumber_eq (n : Int) :
    ofDayNumber n =
      ofEraDay ((n + 719468).fdiv 146097) ((n + 719468).fmod 146097).toNat := rfl

/-- A day of an era, by the century, the period of four years and the year in which it lies. The
last year of each period has a day more, but only that of the last century if it is the last
period. -/
theorem exists_cycles {dayOfEra : Nat} (h : dayOfEra < 146097) :
    ∃ century period year day, century ≤ 3 ∧ period ≤ 24 ∧ year ≤ 3 ∧ day ≤ 365 ∧
      (day = 365 → year = 3 ∧ (period = 24 → century = 3)) ∧
      dayOfEra = 36524 * century + 1461 * period + 365 * year + day := by
  generalize hcentury : dayOfEra / 36524 - dayOfEra / 146096 = century
  generalize hrest : dayOfEra - 36524 * century = rest
  have hcenturyLe : century ≤ 3 ∧ 36524 * century + rest = dayOfEra ∧
      (rest < 36524 ∨ rest = 36524 ∧ century = 3) := by omega
  generalize hperiod : rest % 1461 = inPeriod
  have hperiodLe : rest / 1461 ≤ 24 ∧
      (inPeriod = 1460 → rest / 1461 = 24 → century = 3) := by omega
  generalize hyear : inPeriod / 365 - inPeriod / 1460 = year
  have hyearLe : year ≤ 3 ∧ 365 * year ≤ inPeriod ∧ inPeriod - 365 * year ≤ 365 ∧
      (inPeriod - 365 * year = 365 → year = 3 ∧ inPeriod = 1460) := by omega
  refine ⟨century, rest / 1461, year, inPeriod - 365 * year, ?_⟩
  omega

/-- The year of an era is computed from the day, also on the last days of its centuries and of their
periods. -/
theorem yearOfEra_eq {century period year day dayOfEra : Nat} (hcentury : century ≤ 3)
    (hperiod : period ≤ 24) (hyear : year ≤ 3) (hday : day ≤ 365)
    (hleap : day = 365 → year = 3 ∧ (period = 24 → century = 3))
    (h : dayOfEra = 36524 * century + 1461 * period + 365 * year + day) :
    yearOfEra dayOfEra = 100 * century + 4 * period + year := by
  have hcenturies : dayOfEra / 36524 - dayOfEra / 146096 = century ∧
      dayOfEra / 146096 ≤ dayOfEra / 36524 := by omega
  -- The last days of the era and of its periods are counted as if the next one had begun.
  have hperiods : dayOfEra / 1460 = 25 * century + period ∨
      dayOfEra / 1460 = 25 * century + period + 1 := by omega
  rw [yearOfEra]
  omega

/-- The year in which a day of an era lies, and what is left of the days. -/
theorem yearOfEra_cases {dayOfEra : Nat} (h : dayOfEra < 146097) (era : Int) :
    ∃ year day : Nat, yearOfEra dayOfEra = year ∧ year < 400 ∧ day ≤ 365 ∧
      (day = 365 → IsLeapYear (year + era * 400 + 1)) ∧
      365 * year + year / 4 - year / 100 + day = dayOfEra := by
  obtain ⟨century, period, year, day, hcentury, hperiod, hyear, hday, hleap, heq⟩ :=
    exists_cycles h
  generalize htotal : 100 * century + 4 * period + year = total
  have hfour : total / 4 = 25 * century + period := by omega
  have hhundred : total / 100 = century := by omega
  have htotalEq := yearOfEra_eq hcentury hperiod hyear hday hleap heq
  refine ⟨total, day, htotalEq.trans htotal, by omega, hday, fun hlast => ?_, by omega⟩
  obtain ⟨rfl, hfull⟩ := hleap hlast
  constructor <;> omega

/-- Every number is that of the day which is computed from it. -/
theorem ofDayNumber_spec (n : Int) : (ofDayNumber n).IsDay ∧ (ofDayNumber n).number = n := by
  rw [ofDayNumber_eq, ofEraDay]
  generalize hera : (n + 719468).fdiv 146097 = era
  generalize hdayOfEra : ((n + 719468).fmod 146097).toNat = dayOfEra
  rw [Int.fdiv_eq_ediv_of_nonneg _ (by decide)] at hera
  rw [Int.fmod_eq_emod_of_nonneg _ (by decide)] at hdayOfEra
  have hdays : dayOfEra < 146097 := by omega
  obtain ⟨year, day, hyear, hlt, hday, hleap, heq⟩ := yearOfEra_cases hdays era
  obtain ⟨hisDay, hnumber⟩ := ofMarchDay_eq hday hleap
  have hleft : dayOfEra - (365 * year + year / 4 - year / 100) = day := by omega
  simp only [hyear, hleft]
  have hfours : (year + era * 400) / 4 = year / 4 + era * 100 := by omega
  have hcenturies : (year + era * 400) / 100 = year / 100 + era * 4 := by omega
  have heras : (year + era * 400) / 400 = era := by omega
  refine ⟨hisDay, ?_⟩
  rw [hnumber, hfours, hcenturies, heras]
  omega

theorem ofDayNumber_number (h : d.IsDay) : ofDayNumber d.number = d :=
  eq_of_number_eq (ofDayNumber_spec _).1 h (ofDayNumber_spec _).2

/-! ## Day by day -/

theorem next_ofDayNumber (n : Int) : (ofDayNumber n).next = ofDayNumber (n + 1) := by
  obtain ⟨hday, hnumber⟩ := ofDayNumber_spec n
  calc
    (ofDayNumber n).next = ofDayNumber (ofDayNumber n).next.number :=
      (ofDayNumber_number (isDay_next hday)).symm
    _ = ofDayNumber (n + 1) := by rw [number_next hday, hnumber]

/-- The day that is computed is the one reached by counting from the epoch, forwards or backwards.
-/
theorem isDayNumber_ofDayNumber (n : Int) : IsDayNumber (ofDayNumber n) n := by
  induction n using Int.induction_on with
  | zero => exact .epoch
  | succ n ih =>
      rw [← next_ofDayNumber]
      exact ih.next
  | pred n ih =>
      have hnext := next_ofDayNumber (-n - 1)
      rw [Int.sub_add_cancel] at hnext
      exact .previous (ofDayNumber_spec _).1 (hnext ▸ ih)

/-- The day with a number, counted day by day, is the one that is computed. -/
theorem isDayNumber_iff {n : Int} : IsDayNumber d n ↔ ofDayNumber n = d := by
  constructor
  · intro h
    induction h with
    | epoch => rfl
    | next _ ih => rw [← next_ofDayNumber, ih]
    | previous hd _ ih =>
        have hnumber := number_next hd
        rw [← ih, (ofDayNumber_spec _).2] at hnumber
        rw [← ofDayNumber_number hd, hnumber, Int.add_sub_cancel]
  · rintro rfl
    exact isDayNumber_ofDayNumber n

end VersionStamp.Git.CivilDate

import Mathlib.Logic.ExistsUnique
import VersionStamp.Git.Checkout
import VersionStamp.Proofs.Git.Calendar
import VersionStamp.Proofs.Text.Digits

namespace VersionStamp.Git

/-!
# The date of the commit at HEAD

In the years from 0 to 9999 the date of a commit has ten characters, those of the day on which its
seconds fall by its own clock. So the dates of two commits are the same text exactly if the days are
the same, and the texts are in the order of the days.
-/

namespace CivilDate

variable {d e : CivilDate}

/-- The ten characters of a day in a year of at most four digits. -/
def isoText (d : CivilDate) : Text :=
  Text.lastDigits 4 d.year.toNat ++
    ("-" ++ (Text.lastDigits 2 d.month ++ ("-" ++ Text.lastDigits 2 d.day)))

theorem length_isoText (d : CivilDate) : d.isoText.length = 10 := by
  simp [isoText, Text.length_lastDigits]

theorem IsDay.month_lt (h : d.IsDay) : d.month < 10 ^ 2 := by
  have hle := h.month_le
  omega

theorem IsDay.day_lt (h : d.IsDay) : d.day < 10 ^ 2 := by
  have hle := h.day_le
  have hmonth : monthLength d.year d.month ≤ 31 := by
    fun_cases monthLength d.year d.month <;> decide
  omega

def HasShortYear (d : CivilDate) : Prop :=
  0 ≤ d.year ∧ d.year ≤ 9999

instance (d : CivilDate) : Decidable d.HasShortYear :=
  inferInstanceAs (Decidable (_ ∧ _))

theorem HasShortYear.toNat_lt (h : d.HasShortYear) : d.year.toNat < 10 ^ 4 := by
  have hle := h.2
  omega

theorem yearText_eq (h : d.HasShortYear) : yearText d.year = Text.lastDigits 4 d.year.toNat := by
  obtain ⟨hnonneg, hle⟩ := h
  have hnat : d.year.natAbs = d.year.toNat := by omega
  calc
    yearText d.year = Text.zeroPadded 4 (Text.ofNat d.year.natAbs) := by
      rw [yearText, if_neg (Int.not_lt.mpr hnonneg), if_neg (Int.not_lt.mpr hle)]
    _ = Text.zeroPadded 4 (Text.ofNat d.year.toNat) := by rw [hnat]
    _ = Text.lastDigits 4 d.year.toNat :=
      Text.zeroPadded_ofNat (by decide) (HasShortYear.toNat_lt ⟨hnonneg, hle⟩)

/-- With a year of four digits, a day is shown with four, two and two digits. -/
theorem render_eq_isoText (hd : d.IsDay) (hyear : d.HasShortYear) : d.render = d.isoText := by
  calc
    d.render = Text.lastDigits 4 d.year.toNat ++ "-" ++ Text.lastDigits 2 d.month ++ "-" ++
        Text.lastDigits 2 d.day := by
      rw [render, yearText_eq hyear, Text.zeroPadded_ofNat (by decide) hd.month_lt,
        Text.zeroPadded_ofNat (by decide) hd.day_lt]
    _ = d.isoText := by simp only [isoText, List.append_assoc]

/-- The texts of days are ordered as the days are. -/
theorem isoText_lt_isoText (he : e.IsDay) (hd : d.HasShortYear) (he' : e.HasShortYear)
    (h : d.Precedes e) : d.isoText < e.isoText := by
  have hlength : ∀ width m n, (Text.lastDigits width m).length = (Text.lastDigits width n).length :=
    fun width m n => by rw [Text.length_lastDigits, Text.length_lastDigits]
  rw [isoText, isoText]
  rcases h with hyear | ⟨hyear, hmonth | ⟨hmonth, hday⟩⟩
  · have hnat : d.year.toNat < e.year.toNat := by
      have hnonneg := hd.1
      omega
    apply append_lt_append (hlength 4 _ _)
    exact Text.lastDigits_lt_lastDigits hnat he'.toNat_lt
  · rw [hyear]
    apply List.append_left_lt
    apply List.append_left_lt
    apply append_lt_append (hlength 2 _ _)
    exact Text.lastDigits_lt_lastDigits hmonth he.month_lt
  · rw [hyear, hmonth]
    repeat apply List.append_left_lt
    exact Text.lastDigits_lt_lastDigits hday he.day_lt

/-- Different days have different texts. -/
theorem isoText_inj (hd : d.IsDay) (he : e.IsDay) (hd' : d.HasShortYear) (he' : e.HasShortYear) :
    d.isoText = e.isoText ↔ d = e := by
  constructor
  · intro heq
    rcases precedes_trichotomy d e with hlt | hsame | hgt
    · exact absurd (heq ▸ isoText_lt_isoText he hd' he' hlt) (List.lt_irrefl _)
    · exact hsame
    · exact absurd (heq ▸ isoText_lt_isoText hd he' hd' hgt) (List.lt_irrefl _)
  · rintro rfl
    rfl

end CivilDate

namespace Moment

variable {m m' : Moment} {d d' : CivilDate}

def localDay (m : Moment) : Int :=
  (m.seconds + 60 * m.offset).fdiv 86400

/-- A moment of a day in the years from 0 to 9999, on a clock that is less than a day off. -/
structure OnDay (m : Moment) (d : CivilDate) : Prop where
  offset_lt : m.offset.natAbs < 1440
  isDayNumber : d.IsDayNumber m.localDay
  hasShortYear : d.HasShortYear

theorem OnDay.ofDayNumber_eq (h : m.OnDay d) : CivilDate.ofDayNumber m.localDay = d :=
  CivilDate.isDayNumber_iff.mp h.isDayNumber

theorem OnDay.isDay (h : m.OnDay d) : d.IsDay :=
  h.ofDayNumber_eq ▸ (CivilDate.ofDayNumber_spec _).1

theorem OnDay.number_eq (h : m.OnDay d) : d.number = m.localDay := by
  rw [← h.ofDayNumber_eq]
  exact (CivilDate.ofDayNumber_spec _).2

/-- The days in the years from 0 to 9999. -/
theorem OnDay.localDay_range (h : m.OnDay d) :
    -719528 ≤ m.localDay ∧ m.localDay < 2932897 := by
  obtain ⟨hnonneg, hle⟩ := h.hasShortYear
  have hrange := CivilDate.number_range h.isDay
  rw [h.number_eq] at hrange
  constructor
  · calc
      -719528 = CivilDate.daysBeforeYear 0 := by decide
      _ ≤ CivilDate.daysBeforeYear d.year := CivilDate.daysBeforeYear_le hnonneg
      _ ≤ m.localDay := hrange.1
  · calc
      m.localDay < CivilDate.daysBeforeYear (d.year + 1) := hrange.2
      _ ≤ CivilDate.daysBeforeYear 10000 :=
        CivilDate.daysBeforeYear_le (Int.add_le_add_right hle 1)
      _ = 2932897 := by decide

/-- The day that is computed is the local one of the time. -/
theorem OnDay.dayNumber_eq (h : m.OnDay d) : m.dayNumber = m.localDay := by
  have hoffset := h.offset_lt
  rw [dayNumber, offsetSeconds_eq m (by omega), localDay]

/-- Neither the offset nor the time is out of range. -/
theorem OnDay.date_eq (h : m.OnDay d) : m.date = .ok d.isoText := by
  have hoffset := h.offset_lt
  have hseconds := offsetSeconds_eq m (by omega)
  obtain ⟨hfrom, hto⟩ := h.localDay_range
  rw [localDay, Int.fdiv_eq_ediv_of_nonneg _ (by decide)] at hfrom hto
  have hday : ¬ m.offsetSeconds.natAbs ≥ 86400 := by
    rw [hseconds]
    omega
  have htime : ¬ (m.seconds < -8334601228800 ∨ m.seconds > 8210266876799) := by omega
  calc
    m.date = .ok (CivilDate.ofDayNumber m.dayNumber).render := by
      rw [date, if_neg hday, if_neg htime]
    _ = .ok d.render := by rw [h.dayNumber_eq, h.ofDayNumber_eq]
    _ = .ok d.isoText := by rw [CivilDate.render_eq_isoText h.isDay h.hasShortYear]

/-- Two times have one date just if they fall on one local day. -/
theorem OnDay.date_eq_date_iff (h : m.OnDay d) (h' : m'.OnDay d') :
    m.date = m'.date ↔ m.localDay = m'.localDay := by
  have hday : d = d' ↔ m.localDay = m'.localDay := by
    constructor
    · rintro rfl
      rw [← h.number_eq, ← h'.number_eq]
    · intro hsame
      rw [← h.ofDayNumber_eq, ← h'.ofDayNumber_eq, hsame]
  calc
    m.date = m'.date ↔ d.isoText = d'.isoText := by rw [h.date_eq, h'.date_eq, Except.ok.injEq]
    _ ↔ d = d' := CivilDate.isoText_inj h.isDay h'.isDay h.hasShortYear h'.hasShortYear
    _ ↔ m.localDay = m'.localDay := hday

theorem OnDay.isoText_lt (h : m.OnDay d) (h' : m'.OnDay d') (hlt : m.localDay < m'.localDay) :
    d.isoText < d'.isoText := by
  rw [← h.number_eq, ← h'.number_eq] at hlt
  exact CivilDate.isoText_lt_isoText h'.isDay h.hasShortYear h'.hasShortYear
    (CivilDate.precedes_of_number_lt h.isDay h'.isDay hlt)

/-- Every moment is on one day of its own clock. In the years from 0 to 9999 its date has the ten
characters of that day, also as the date of the commit at HEAD. The dates of two moments are the
same text exactly on the same day, and the one of an earlier day comes first. -/
theorem date_of_onDay :
    (∀ m : Moment, ∃! d : CivilDate, d.IsDayNumber m.localDay) ∧
    (∀ (m : Moment) (d : CivilDate), m.OnDay d →
      m.date = .ok d.isoText ∧ d.isoText.length = 10) ∧
    (∀ (c : Checkout) (head : Commit) (d : CivilDate), c.headCommit = .ok head →
      head.moment.OnDay d → c.repository.commitDate = .ok d.isoText) ∧
    ∀ (m m' : Moment) (d d' : CivilDate), m.OnDay d → m'.OnDay d' →
      (m.date = m'.date ↔ m.localDay = m'.localDay) ∧
      (m.localDay < m'.localDay →
        ∃ text text', m.date = .ok text ∧ m'.date = .ok text' ∧ text < text') := by
  refine ⟨fun m => ?_, fun m d h => ?_, fun c head d hhead h => ?_, fun m m' d d' h h' => ?_⟩
  · refine ⟨CivilDate.ofDayNumber m.localDay, CivilDate.isDayNumber_ofDayNumber _, fun d hd => ?_⟩
    exact (CivilDate.isDayNumber_iff.mp hd).symm
  · exact ⟨h.date_eq, CivilDate.length_isoText d⟩
  · have hdate : c.repository.commitDate =
        (c.headCommit.mapError Failure.git >>= fun head => head.moment.date) := rfl
    rw [hdate, hhead]
    exact h.date_eq
  · refine ⟨h.date_eq_date_iff h', fun hlt => ?_⟩
    exact ⟨_, _, h.date_eq, h'.date_eq, h.isoText_lt h' hlt⟩

/-- Before 1970 the day after the last of February in a full century that is no leap year, and the
leap day of one that is, which is still going on where the clock is behind. -/
theorem date_of_onDay_centuries :
    OnDay ⟨-2203893000, 60⟩ ⟨1900, 3, 1⟩ ∧ OnDay ⟨951881400, -300⟩ ⟨2000, 2, 29⟩ ∧
      date ⟨-2203893000, 60⟩ = .ok "1900-03-01" ∧ date ⟨951881400, -300⟩ = .ok "2000-02-29" ∧
      ("1900-03-01" : Text) < ("2000-02-29" : Text) := by
  have hcommon : OnDay ⟨-2203893000, 60⟩ ⟨1900, 3, 1⟩ :=
    ⟨by decide, CivilDate.isDayNumber_iff.mpr (by decide), by decide⟩
  have hleap : OnDay ⟨951881400, -300⟩ ⟨2000, 2, 29⟩ :=
    ⟨by decide, CivilDate.isDayNumber_iff.mpr (by decide), by decide⟩
  obtain ⟨-, hdate, -, hpair⟩ := date_of_onDay
  have hfirst : date ⟨-2203893000, 60⟩ = .ok "1900-03-01" := (hdate _ _ hcommon).1
  have hsecond : date ⟨951881400, -300⟩ = .ok "2000-02-29" := (hdate _ _ hleap).1
  obtain ⟨text, text', htext, htext', hlt⟩ := (hpair _ _ _ _ hcommon hleap).2 (by decide)
  rw [hfirst] at htext
  rw [hsecond] at htext'
  obtain rfl := Except.ok.inj htext
  obtain rfl := Except.ok.inj htext'
  exact ⟨hcommon, hleap, hfirst, hsecond, hlt⟩

end Moment

end VersionStamp.Git

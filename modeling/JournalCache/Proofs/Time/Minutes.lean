import JournalCache.Proofs.Time.Calendar
import JournalCache.Time.Instant
import Mathlib.Logic.Function.Iterate

/-!
# The calendar, minute by minute

A day is followed by the next of its month, the last of a month by the first of the next month, and
the last of a year by the first of the next year (`Date.next`); minutes and hours follow each other
likewise (`CalendarMinute.next`). The number of a date grows by one from a day to the next
(`dayNumber_next`), and no two dates have the same (`Exists.eq_of_dayNumber_eq`). So how far two
minutes of the calendar are apart is the difference of their numbers (`isAfter_iff`), across any
leap days, year 0 and the years before it.
-/

namespace JournalCache

namespace Date

/-! ## The lengths of the months -/

theorem isLeapYear_iff (y : Int) :
    isLeapYear y ↔ y % 4 = 0 ∧ (y % 100 ≠ 0 ∨ y % 400 = 0) := by
  simp only [isLeapYear, Bool.and_eq_true, Bool.or_eq_true, beq_iff_eq, bne_iff_ne]

theorem monthLength_february (y : Int) : monthLength y 2 = if isLeapYear y then 29 else 28 := rfl

theorem monthLength_of_ne {m : Nat} (h : m ≠ 2) (y : Int) :
    monthLength y m = if m = 4 ∨ m = 6 ∨ m = 9 ∨ m = 11 then 30 else 31 := if_neg h

theorem one_le_monthLength (y : Int) (m : Nat) : 1 ≤ monthLength y m := by
  simp only [monthLength]
  split
  · split <;> decide
  · split <;> decide

/-- From March on, the days before a month are those before the last month and the days of that. -/
theorem days_before_month : ∀ m < 12, 3 ≤ m → (153 * (m - 2) + 2) / 5 =
    (153 * (m - 3) + 2) / 5 + (if m = 4 ∨ m = 6 ∨ m = 9 ∨ m = 11 then 30 else 31) := by
  decide

/-! ## Days -/

/-- The day after a date. -/
def next (d : Date) : Date :=
  if d.day < monthLength d.year d.month then { d with day := d.day + 1 }
  else if d.month < 12 then { d with month := d.month + 1, day := 1 }
  else { year := d.year + 1, month := 1, day := 1 }

theorem dayNumber_eq_add (d : Date) :
    d.dayNumber = (Date.mk d.year d.month 1).dayNumber + d.day - 1 := by
  simp only [dayNumber]
  omega

theorem dayNumber_nextMonth (y : Int) {m : Nat} (hm : 1 ≤ m) (h12 : m < 12) :
    (Date.mk y (m + 1) 1).dayNumber = (Date.mk y m 1).dayNumber + monthLength y m := by
  rcases Nat.lt_trichotomy m 2 with h | rfl | h
  · obtain rfl : m = 1 := by omega
    simp only [dayNumber]
    rw [if_pos (by decide), if_pos (by decide), monthLength_of_ne (by decide), if_neg (by decide)]
    omega
  · -- February ends a year that starts in March, and has the leap day of that year
    simp only [dayNumber, monthLength_february]
    rw [if_neg (by decide), if_pos (by decide)]
    split
    · next hleap =>
      rw [isLeapYear_iff] at hleap
      omega
    · next hleap =>
      rw [isLeapYear_iff] at hleap
      omega
  · have hlast : (m + 9) % 12 = m - 3 := by omega
    have hnext : (m + 1 + 9) % 12 = m - 2 := by omega
    simp only [dayNumber, hlast, hnext]
    rw [if_neg (by omega), if_neg (by omega), monthLength_of_ne (by omega),
      days_before_month m h12 h]
    omega

theorem dayNumber_nextYear (y : Int) :
    (Date.mk (y + 1) 1 1).dayNumber = (Date.mk y 12 1).dayNumber + monthLength y 12 := by
  simp only [dayNumber]
  rw [if_pos (by decide), if_neg (by decide), monthLength_of_ne (by decide), if_neg (by decide),
    Int.add_sub_cancel]
  omega

/-- The first days of two months of a year are as far apart as the months between them are long. -/
theorem dayNumber_month_le (y : Int) {m n : Nat} (hm : 1 ≤ m) (hmn : m < n) (h12 : n ≤ 12) :
    (Date.mk y m 1).dayNumber + monthLength y m ≤ (Date.mk y n 1).dayNumber := by
  induction hmn with
  | refl => exact Int.le_of_eq (dayNumber_nextMonth y hm h12).symm
  | @step n hmn ih =>
      have hprev := ih (Nat.le_of_succ_le h12)
      rw [Nat.succ_eq_add_one, dayNumber_nextMonth y (Nat.le_trans hm (Nat.le_of_succ_le hmn)) h12]
      omega

namespace Exists

variable {d e : Date}

theorem next (h : d.Exists) : d.next.Exists := by
  obtain ⟨h1, h12, hday, -⟩ := h
  rw [Date.next]
  split
  · next hlt => exact ⟨h1, h12, Nat.le_succ_of_le hday, hlt⟩
  · split
    · next hmonth => exact ⟨Nat.le_succ_of_le h1, hmonth, Nat.le_refl 1, one_le_monthLength _ _⟩
    · exact ⟨Nat.le_refl 1, Nat.le_add_left 1 11, Nat.le_refl 1, one_le_monthLength _ _⟩

/-- The next day has the next number. -/
theorem dayNumber_next (h : d.Exists) : d.next.dayNumber = d.dayNumber + 1 := by
  obtain ⟨h1, h12, -, hday⟩ := h
  rw [Date.next, dayNumber_eq_add d]
  split
  · rw [dayNumber_eq_add]
    dsimp only
    omega
  · next hlt =>
    -- the month is over
    have hlast : d.day = monthLength d.year d.month := Nat.le_antisymm hday (Nat.not_lt.1 hlt)
    split
    · next hmonth =>
      rw [dayNumber_nextMonth d.year h1 hmonth]
      omega
    · next hmonth =>
      have hdecember : d.month = 12 := by omega
      rw [hdecember] at hlast ⊢
      rw [dayNumber_nextYear]
      omega

theorem month_le (hd : d.Exists) (he : e.Exists) (hyear : d.year = e.year)
    (h : d.dayNumber ≤ e.dayNumber) : d.month ≤ e.month := by
  refine Nat.not_lt.1 fun hlt => ?_
  have hfirst := dayNumber_month_le e.year he.1 hlt hd.2.1
  have hlast := he.2.2.2
  have hday := hd.2.2.1
  rw [dayNumber_eq_add d, dayNumber_eq_add e, hyear] at h
  omega

/-- No two dates have one number: it tells the year, the year and it the month, and all of them the
day. -/
theorem eq_of_dayNumber_eq (hd : d.Exists) (he : e.Exists) (h : d.dayNumber = e.dayNumber) :
    d = e := by
  have hyear : d.year = e.year := Int.le_antisymm
    (he.le_year (Int.le_trans hd.newYear_le (Int.le_of_eq h)))
    (hd.le_year (Int.le_trans he.newYear_le (Int.le_of_eq h.symm)))
  have hmonth : d.month = e.month := Nat.le_antisymm
    (hd.month_le he hyear (Int.le_of_eq h)) (he.month_le hd hyear.symm (Int.le_of_eq h.symm))
  rw [dayNumber_eq_add d, dayNumber_eq_add e, hyear, hmonth] at h
  obtain ⟨year, month, day⟩ := d
  obtain ⟨year', month', day'⟩ := e
  simp only at hyear hmonth h
  rw [hyear, hmonth]
  congr 1
  omega

end Exists

end Date

/-! ## Minutes -/

/-- A minute of a day, as clocks and calendars show it. -/
structure CalendarMinute where
  date : Date
  hour : Nat
  minute : Nat
  deriving DecidableEq, Repr

namespace CalendarMinute

def zero : CalendarMinute := ⟨⟨0, 3, 1⟩, 0, 0⟩

def Exists (c : CalendarMinute) : Prop := c.date.Exists ∧ c.hour < 24 ∧ c.minute < 60

/-- The minute after another: the next of its hour, else the first of the next hour or day. -/
def next (c : CalendarMinute) : CalendarMinute :=
  if c.minute < 59 then { c with minute := c.minute + 1 }
  else if c.hour < 23 then { c with hour := c.hour + 1, minute := 0 }
  else { date := c.date.next, hour := 0, minute := 0 }

/-- The minutes from the start of 1 March of year 0. -/
def number (c : CalendarMinute) : Int := c.date.dayNumber * 1440 + (c.hour * 60 + c.minute : Nat)

/-- It is `b` when `n` minutes have passed since `a`: so many steps lead from `a` to `b`, or the
other way if `n` is negative. -/
def IsAfter (n : Int) (a b : CalendarMinute) : Prop := next^[n.toNat] a = next^[(-n).toNat] b

theorem number_zero : zero.number = 0 := by decide

theorem exists_zero : zero.Exists := ⟨by decide, by decide, by decide⟩

namespace Exists

variable {a b c : CalendarMinute}

theorem next (h : c.Exists) : c.next.Exists := by
  obtain ⟨hdate, hhour, -⟩ := h
  rw [CalendarMinute.next]
  split
  · next hlt => exact ⟨hdate, hhour, Nat.succ_lt_succ hlt⟩
  · split
    · next hlt => exact ⟨hdate, Nat.succ_lt_succ hlt, Nat.zero_lt_succ 59⟩
    · exact ⟨hdate.next, Nat.zero_lt_succ 23, Nat.zero_lt_succ 59⟩

theorem number_next (h : c.Exists) : c.next.number = c.number + 1 := by
  obtain ⟨hdate, hhour, hminute⟩ := h
  have hday := hdate.dayNumber_next
  simp only [CalendarMinute.next, number]
  split
  · dsimp only
    omega
  · split
    · dsimp only
      omega
    · dsimp only
      omega

theorem iterate (h : c.Exists) (n : Nat) :
    (CalendarMinute.next^[n] c).Exists ∧ (CalendarMinute.next^[n] c).number = c.number + n := by
  induction n with
  | zero => exact ⟨h, (Int.add_zero _).symm⟩
  | succ n ih =>
      rw [Function.iterate_succ_apply', ih.1.number_next, ih.2]
      exact ⟨ih.1.next, by omega⟩

theorem eq_of_number_eq (ha : a.Exists) (hb : b.Exists) (h : a.number = b.number) : a = b := by
  obtain ⟨hdate, hhour, hminute⟩ := ha
  obtain ⟨hdate', hhour', hminute'⟩ := hb
  rw [number, number] at h
  have hday := hdate.eq_of_dayNumber_eq hdate' (by omega)
  obtain ⟨date, hour, minute⟩ := a
  obtain ⟨date', hour', minute'⟩ := b
  simp only at hday hhour hhour' hminute hminute' h
  rw [hday] at h ⊢
  congr 1 <;> omega

/-- Minutes are as far apart as their numbers. -/
theorem isAfter_iff (ha : a.Exists) (hb : b.Exists) {n : Int} :
    IsAfter n a b ↔ b.number = a.number + n := by
  obtain ⟨hleft, hfrom⟩ := ha.iterate n.toNat
  obtain ⟨hright, hto⟩ := hb.iterate (-n).toNat
  constructor
  · intro h
    rw [IsAfter] at h
    rw [h] at hfrom
    omega
  · intro h
    exact hleft.eq_of_number_eq hright (by omega)

end Exists

end CalendarMinute

/-! ## The instants that clocks show -/

namespace ClockReading

def calendarMinute (r : ClockReading) : CalendarMinute := ⟨r.date, r.hour, r.minute⟩

/-- A clock shows `r` at the instant `t`: the reading exists, its minute is as far from the start of
1 March of year 0 as that of the instant and the offset together, and clocks agree on seconds and
nanoseconds whatever their offsets. -/
structure Denotes (r : ClockReading) (t : Instant) : Prop where
  exists_reading : r.Exists
  minute : CalendarMinute.zero.IsAfter (t.minute + r.ahead) r.calendarMinute
  second_eq : r.second = t.second
  nanosecond_eq : r.nanosecond = t.nanosecond

/-- Two clocks show `r` and `s` at the same instant: from the one minute to the other it is as far
as from the one offset to the other. -/
structure Concurs (r s : ClockReading) : Prop where
  minute : r.calendarMinute.IsAfter (s.ahead - r.ahead) s.calendarMinute
  second_eq : r.second = s.second
  nanosecond_eq : r.nanosecond = s.nanosecond

variable {r s : ClockReading}

theorem Exists.calendarMinute (h : r.Exists) : r.calendarMinute.Exists :=
  ⟨h.1, h.2.2.2.1, h.2.2.2.2.1⟩

theorem utcMinute_eq (r : ClockReading) : r.utcMinute = r.calendarMinute.number - r.ahead := rfl

theorem denotes_iff {t : Instant} : r.Denotes t ↔
    r.Exists ∧ r.utcMinute = t.minute ∧ r.second = t.second ∧ r.nanosecond = t.nanosecond := by
  have hminute : ∀ h : r.Exists, (CalendarMinute.zero.IsAfter (t.minute + r.ahead) r.calendarMinute
      ↔ r.utcMinute = t.minute) := by
    intro h
    rw [CalendarMinute.exists_zero.isAfter_iff h.calendarMinute, CalendarMinute.number_zero,
      utcMinute_eq]
    omega
  constructor
  · rintro ⟨h, hm, hs, hn⟩
    exact ⟨h, (hminute h).1 hm, hs, hn⟩
  · rintro ⟨h, hm, hs, hn⟩
    exact ⟨h, (hminute h).2 hm, hs, hn⟩

/-- The instant of a reading is the only one at which a clock shows it. -/
theorem instant?_eq_some_iff {t : Instant} : r.instant? = some t ↔ r.Denotes t := by
  rw [denotes_iff, instant?, Instant.make?]
  constructor
  · intro h
    split at h
    · next hr =>
      split at h
      · obtain rfl := Option.some.inj h
        exact ⟨hr, rfl, rfl, rfl⟩
      · cases h
    · cases h
  · rintro ⟨hr, hm, hs, hn⟩
    rw [if_pos hr, hm, hs, hn,
      dif_pos ⟨t.first_le, t.lt_last, t.second_le, t.nanosecond_lt⟩]

/-- Readings of one instant are those of clocks that are as far apart as their offsets. -/
theorem concurs_iff {t u : Instant} (hr : r.Denotes t) (hs : s.Denotes u) :
    r.Concurs s ↔ t = u := by
  have hminute := hr.exists_reading.calendarMinute.isAfter_iff hs.exists_reading.calendarMinute
    (n := s.ahead - r.ahead)
  obtain ⟨-, hrm, hrs, hrn⟩ := denotes_iff.1 hr
  obtain ⟨-, hsm, hss, hsn⟩ := denotes_iff.1 hs
  rw [utcMinute_eq] at hrm hsm
  constructor
  · rintro ⟨hm, hsec, hnano⟩
    have hm := hminute.1 hm
    exact Instant.ext (by omega) (by omega) (by omega)
  · rintro rfl
    exact ⟨hminute.2 (by omega), hrs.trans hss.symm, hrn.trans hsn.symm⟩

end ClockReading

end JournalCache

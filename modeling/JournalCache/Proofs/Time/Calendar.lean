import JournalCache.Time.Calendar

/-!
# Dates and days

Every day has a date that the calendar has (`exists_ofDayNumber`), and the days before that date are
counted right (`dayNumber_ofDayNumber`), so they tell its year (`le_year`, `year_lt`). The first two
go down as the calendar does (`Place`): 400 years are four centuries and a day, a century is 25
times four years less a day, and four years are four times 365 days and a day.
-/

namespace JournalCache

namespace Date

/-! ## The place of a day within 400 years -/

/-- A day of 400 years is the day `d` of year `j` of the four years `k` of century `c`. A year that
starts in March has a leap day at its end if it is the last of four years, unless it is the last of
a century and not of all. -/
structure Place (day c k j d : Nat) : Prop where
  day_eq : day = 36524 * c + 1461 * k + 365 * j + d
  century_le : c ≤ 3
  fours_le : k ≤ 24
  year_le : j ≤ 3
  day_le : d ≤ 365
  leap : d = 365 → j = 3 ∧ (k = 24 → c = 3)

theorem exists_place {day : Nat} (h : day < 146097) : ∃ c k j d, Place day c k j d := by
  obtain ⟨c, hc⟩ : ∃ c, c = min (day / 36524) 3 := ⟨_, rfl⟩
  obtain ⟨k, hk⟩ : ∃ k, k = (day - 36524 * c) / 1461 := ⟨_, rfl⟩
  obtain ⟨s, hs⟩ : ∃ s, s = day - 36524 * c - 1461 * k := ⟨_, rfl⟩
  obtain ⟨j, hj⟩ : ∃ j, j = min (s / 365) 3 := ⟨_, rfl⟩
  exact ⟨c, k, j, s - 365 * j, by omega, by omega, by omega, by omega, by omega, by omega⟩

namespace Place

variable {day c k j d : Nat}

/-- Only the last century has a leap day at its end. -/
theorem century_rest (h : Place day c k j d) : 1461 * k + 365 * j + d ≤ 36523 ∨
    c = 3 ∧ 1461 * k + 365 * j + d = 36524 := by
  obtain ⟨-, hc, hk, hj, hd, hleap⟩ := h
  by_cases h365 : d = 365
  · obtain ⟨hj3, hc3⟩ := hleap h365
    by_cases h24 : k = 24
    · exact .inr ⟨hc3 h24, by omega⟩
    · exact .inl (by omega)
  · exact .inl (by omega)

/-- The last day of all counts as a fifth century, and as one more of 400 years. -/
theorem century_eq (h : Place day c k j d) : day / 36524 = c + day / 146096 := by
  have hday := h.day_eq
  have hc := h.century_le
  rcases h.century_rest with hlt | ⟨h3, heq⟩
  · have hcentury : day / 36524 = c := by omega
    have hlast : day / 146096 = 0 := by omega
    omega
  · omega

/-- A day for each four years is counted, and one more late in the last of four years: always on its
leap day, and never in another year. -/
theorem fours_eq (h : Place day c k j d) :
    ∃ b, day / 1460 = 25 * c + k + b ∧ b ≤ 1 ∧ (b = 0 ∨ 1095 + b ≤ 365 * j + d) ∧
      (d = 365 → b = 1) := by
  have hday := h.day_eq
  have hc := h.century_le
  have hk := h.fours_le
  have hj := h.year_le
  have hd := h.day_le
  refine ⟨(24 * c + k + 365 * j + d) / 1460, by omega, by omega, ?_, ?_⟩
  · by_cases hb : 24 * c + k + 365 * j + d < 1460
    · exact .inl (by omega)
    · exact .inr (by omega)
  · intro h365
    have h3 := (h.leap h365).1
    omega

theorem year_eq (h : Place day c k j d) :
    (day - day / 1460 + day / 36524 - day / 146096) / 365 = 100 * c + 4 * k + j := by
  obtain ⟨b, hfours, hb, hlate, hlast⟩ := h.fours_eq
  have hday := h.day_eq
  have hd := h.day_le
  have hj := h.year_le
  have hle : b ≤ d := by omega
  have hlt : d - b < 365 := by omega
  -- the days that are left when no year has a leap day
  have hdays : day - day / 1460 + day / 36524 - day / 146096 =
      365 * (100 * c + 4 * k + j) + (d - b) := by
    rw [hfours, h.century_eq]
    generalize day / 146096 = last
    clear hfours
    omega
  rw [hdays]
  omega

theorem dayOfYear_eq (h : Place day c k j d) :
    day - (365 * (100 * c + 4 * k + j) + (100 * c + 4 * k + j) / 4 -
      (100 * c + 4 * k + j) / 100) = d := by
  have hday := h.day_eq
  have hk := h.fours_le
  have hj := h.year_le
  have hfours : (100 * c + 4 * k + j) / 4 = 25 * c + k := by omega
  have hcenturies : (100 * c + 4 * k + j) / 100 = c := by omega
  omega

/-- The date of a day, from its place. The months are counted from March. -/
theorem ofDayNumber_eq {n : Int} {m : Nat} (h : Place (n % 146097).toNat c k j d)
    (hm : m = (5 * d + 2) / 153) :
    ofDayNumber n =
      { year := ((100 * c + 4 * k + j : Nat) : Int) + n / 146097 * 400 + (if m < 10 then 0 else 1)
        month := if m < 10 then m + 3 else m - 9
        day := d - (153 * m + 2) / 5 + 1 } := by
  have hd := h.day_le
  simp only [ofDayNumber, h.year_eq, h.dayOfYear_eq, ← hm]
  by_cases h10 : m < 10
  · rw [if_pos h10, if_neg (by omega), if_pos h10]
  · rw [if_neg h10, if_pos (by omega), if_neg h10]

end Place

/-! ## Months -/

/-- A day lies in its month. The first `m` months from March on have `(153 * m + 2) / 5` days. -/
theorem month_of_dayOfYear {d m : Nat} (hd : d ≤ 365) (hm : m = (5 * d + 2) / 153) :
    m ≤ 11 ∧ (153 * m + 2) / 5 ≤ d ∧ d < (153 * (m + 1) + 2) / 5 := by
  omega

/-- The days before the year of a place, of any 400 years. -/
theorem Place.days_before {day c k j d : Nat} (h : Place day c k j d) {y q : Int}
    (hy : y = ((100 * c + 4 * k + j : Nat) : Int) + q * 400) :
    365 * y + y / 4 - y / 100 + y / 400 + d = 146097 * q + day := by
  have hday := h.day_eq
  have hc := h.century_le
  have hk := h.fours_le
  have hj := h.year_le
  have hfours : y / 4 = 25 * c + k + 100 * q := by omega
  have hcenturies : y / 100 = c + 4 * q := by omega
  have hall : y / 400 = q := by omega
  rw [hfours, hcenturies, hall]
  omega

theorem dayNumber_ofDayNumber (n : Int) : (ofDayNumber n).dayNumber = n := by
  have hlt : (n % 146097).toNat < 146097 := by omega
  obtain ⟨c, k, j, d, h⟩ := exists_place hlt
  obtain ⟨m, hm⟩ : ∃ m, m = (5 * d + 2) / 153 := ⟨_, rfl⟩
  obtain ⟨hm11, hle, -⟩ := month_of_dayOfYear h.day_le hm
  have hdays := h.days_before (q := n / 146097) rfl
  have hday : 146097 * (n / 146097) + ((n % 146097).toNat : Int) = n := by omega
  rw [hday] at hdays
  rw [h.ofDayNumber_eq hm, dayNumber]
  by_cases h10 : m < 10
  · have hmonth : (m + 3 + 9) % 12 = m := by omega
    simp only [if_pos h10, hmonth, Int.add_zero]
    rw [if_neg (by omega)]
    clear hm
    omega
  · have hmonth : (m - 9 + 9) % 12 = m := by omega
    simp only [if_neg h10, hmonth, Int.add_sub_cancel]
    rw [if_pos (by omega)]
    clear hm
    omega

/-! ## Every day has a date -/

/-- The year after that of a place with a leap day has 29 days in its second month. -/
theorem Place.isLeapYear {day c k j d : Nat} (h : Place day c k j d) (hd : d = 365) (q : Int) :
    JournalCache.isLeapYear (((100 * c + 4 * k + j : Nat) : Int) + q * 400 + 1) := by
  obtain ⟨hj, hc⟩ := h.leap hd
  have hk := h.fours_le
  simp only [JournalCache.isLeapYear, Bool.and_eq_true, Bool.or_eq_true, beq_iff_eq, bne_iff_ne]
  refine ⟨by omega, ?_⟩
  by_cases h24 : k = 24
  · have h3 := hc h24
    exact .inr (by omega)
  · exact .inl (by omega)

/-- The months from March to December, and January, are as long as the days between them. -/
theorem le_monthLength {m month : Nat} (y : Int) (hmonth : month = if m < 10 then m + 3 else m - 9)
    (hm : m ≤ 10) : (153 * (m + 1) + 2) / 5 ≤ (153 * m + 2) / 5 + monthLength y month := by
  have hm10 : month = m + 3 ∧ m < 10 ∨ month = 1 ∧ m = 10 := by
    rw [hmonth]
    split <;> omega
  rw [monthLength, if_neg (by omega)]
  split <;> omega

theorem exists_ofDayNumber (n : Int) : (ofDayNumber n).Exists := by
  have hlt : (n % 146097).toNat < 146097 := by omega
  obtain ⟨c, k, j, d, h⟩ := exists_place hlt
  obtain ⟨m, hm⟩ : ∃ m, m = (5 * d + 2) / 153 := ⟨_, rfl⟩
  obtain ⟨hm11, hle, hlt⟩ := month_of_dayOfYear h.day_le hm
  have hd := h.day_le
  rw [h.ofDayNumber_eq hm]
  refine ⟨?_, ?_, Nat.le_add_left 1 _, ?_⟩
  · dsimp only
    split <;> omega
  · dsimp only
    split <;> omega
  · dsimp only
    by_cases h10 : m ≤ 10
    · have hlength := le_monthLength
        (((100 * c + 4 * k + j : Nat) : Int) + n / 146097 * 400 + (if m < 10 then 0 else 1)) rfl h10
      clear hm
      omega
    · -- February, which ends the year
      obtain rfl : m = 11 := by omega
      rw [if_neg (by decide), if_neg (by decide), monthLength, if_pos rfl]
      by_cases h365 : d = 365
      · rw [if_pos (h.isLeapYear h365 _)]
        omega
      · split <;> omega

/-! ## The first day of a year -/

theorem dayNumber_newYear (y : Int) :
    (Date.mk y 1 1).dayNumber =
      365 * (y - 1) + (y - 1) / 4 - (y - 1) / 100 + (y - 1) / 400 + 306 := by
  simp only [dayNumber]
  rw [if_pos (by decide)]
  omega

theorem newYear_mono {y z : Int} (h : y ≤ z) :
    (Date.mk y 1 1).dayNumber ≤ (Date.mk z 1 1).dayNumber := by
  rw [dayNumber_newYear, dayNumber_newYear]
  omega

namespace Exists

variable {d : Date}

theorem day_le (h : d.Exists) : d.day ≤ 31 := by
  obtain ⟨-, -, -, hday⟩ := h
  refine Nat.le_trans hday ?_
  rw [monthLength]
  split
  · split <;> decide
  · split <;> decide

theorem newYear_le (h : d.Exists) : (Date.mk d.year 1 1).dayNumber ≤ d.dayNumber := by
  obtain ⟨h1, h12, hday, -⟩ := h
  rw [dayNumber_newYear, dayNumber]
  by_cases h2 : d.month ≤ 2
  · have hm : 10 ≤ (d.month + 9) % 12 := by omega
    simp only [if_pos h2]
    omega
  · simp only [if_neg h2]
    omega

theorem lt_newYear (h : d.Exists) : d.dayNumber < (Date.mk (d.year + 1) 1 1).dayNumber := by
  have hday := h.day_le
  obtain ⟨h1, h12, -, -⟩ := h
  rw [dayNumber_newYear, dayNumber, Int.add_sub_cancel]
  by_cases h2 : d.month ≤ 2
  · have hm : (d.month + 9) % 12 ≤ 11 := by omega
    simp only [if_pos h2]
    omega
  · have hm : (d.month + 9) % 12 ≤ 9 := by omega
    simp only [if_neg h2]
    omega

/-- The number of a date bounds its year. -/
theorem le_year (h : d.Exists) {y : Int} (hy : (Date.mk y 1 1).dayNumber ≤ d.dayNumber) :
    y ≤ d.year := by
  refine Int.not_lt.mp fun hlt => ?_
  have hnext := newYear_mono (Int.add_one_le_of_lt hlt)
  have hd := h.lt_newYear
  omega

theorem year_lt (h : d.Exists) {y : Int} (hy : d.dayNumber < (Date.mk y 1 1).dayNumber) :
    d.year < y := by
  refine Int.not_le.mp fun hle => ?_
  have hfirst := newYear_mono hle
  have hd := h.newYear_le
  omega

end Exists

end Date

end JournalCache

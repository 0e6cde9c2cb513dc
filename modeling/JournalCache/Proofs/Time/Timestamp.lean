import JournalCache.Proofs.Time.Minutes
import JournalCache.Proofs.Time.Spelling

/-!
# Timestamps as they are written

An instant is written as a clock of UTC shows it (`Instant.reading`), in one of the many ways in
which that may be spelled (`Canonical`): no part has more digits than it needs, and the fraction of
the second has as few as lose nothing. So what is written is read back (`read?_print`), whichever
way the timestamp that was read had been spelled.
-/

namespace JournalCache

namespace Timestamp

open Decimal (Writes)

/-! ## The canonical spelling -/

/-- A year from 0 to 9999 has four digits, any other has a sign and at least four, no more than it
needs. -/
inductive CanonicalYear : Int → List Char → Prop where
  | plain {ds : List Char} {n : Nat} (hds : Writes ds n) (hlength : ds.length = 4) :
      CanonicalYear n ds
  | plus {ds : List Char} {n : Nat} (hds : Writes ds n) (hn : 9999 < n)
      (hhead : ds.head? ≠ some '0') : CanonicalYear n ('+' :: ds)
  | minus {ds : List Char} {n : Nat} (hds : Writes ds n) (hn : 0 < n) (hlength : 4 ≤ ds.length)
      (hhead : 4 < ds.length → ds.head? ≠ some '0') : CanonicalYear (-n) ('-' :: ds)

/-- A month, a day, an hour, a minute or a second has two digits. -/
def CanonicalPart (n : Nat) (ds : List Char) : Prop := Writes ds n ∧ ds.length = 2

/-- There is no fraction, or one of three, six or nine digits. -/
def IsGrouped (w : List Char) : Prop := w.length ∈ [0, 4, 7, 10]

/-- A fraction has no digit that counts for nothing, and the fewest digits that stand for as many
nanoseconds. -/
structure CanonicalFraction (n : Nat) (w : List Char) : Prop where
  spells : SpellsFraction n w
  grouped : IsGrouped w
  fewest : ∀ v, SpellsFraction n v → IsGrouped v → w.length ≤ v.length

/-- How what a clock of UTC shows is written. -/
inductive Canonical : ClockReading → List Char → Prop where
  | mk {year : Int} {month day hour minute second nanosecond : Nat}
      {ys ms ds hs mins ss fs : List Char}
      (hyear : CanonicalYear year ys) (hmonth : CanonicalPart month ms)
      (hday : CanonicalPart day ds) (hhour : CanonicalPart hour hs)
      (hminute : CanonicalPart minute mins) (hsecond : CanonicalPart second ss)
      (hfraction : CanonicalFraction nanosecond fs) :
      Canonical ⟨⟨year, month, day⟩, hour, minute, second, nanosecond, 0⟩
        (ys ++ '-' :: ms ++ '-' :: ds ++ 'T' :: hs ++ ':' :: mins ++ ':' :: ss ++ fs ++ ['Z'])

/-! ## It is one of the spellings -/

theorem Behind.self {P : List Char → Prop} {w : List Char} (h : P w) : Behind P w :=
  .mk (b := []) nofun h

theorem CanonicalYear.spells {y : Int} {w : List Char} (h : CanonicalYear y w) :
    SpellsYear y w := by
  cases h with
  | plain hds hlength => exact .plain hds (Nat.le_of_eq hlength)
  | plus hds _ _ => exact .plus hds
  | minus hds _ _ _ => exact .minus hds

theorem CanonicalPart.spells {n : Nat} {ds : List Char} (h : CanonicalPart n ds) :
    SpellsPart n ds := ⟨h.1, Nat.le_of_eq h.2⟩

theorem Canonical.spells {r : ClockReading} {cs : List Char} (h : Canonical r cs) :
    Spells r cs := by
  cases h with
  | mk hyear hmonth hday hhour hminute hsecond hfraction =>
    have hall := Spells.mk (.self hyear.spells) (.self rfl) (.self hmonth.spells) (.self rfl)
      (.self hday.spells) (.inl rfl) (.self hhour.spells) (.self rfl) (.self hminute.spells)
      (.self rfl) (.self hsecond.spells) hfraction.spells (.self (.z (.inr rfl)))
      (show Text.AllBlank [] from nofun)
    simpa only [List.append_assoc, List.cons_append, List.nil_append, List.append_nil] using hall

/-! ## The parts of a written timestamp -/

theorem canonicalYear_written (y : Int) : CanonicalYear y (writtenYear y) := by
  rw [writtenYear]
  split
  · next h =>
    have hlt : y.toNat < Nat.pow 10 4 := by
      change y.toNat < 10000
      omega
    have hy : (y.toNat : Int) = y := by omega
    have hplain := CanonicalYear.plain (Decimal.writes_padded 4 y.toNat)
      (Decimal.length_padded (by decide) hlt)
    rwa [hy] at hplain
  · split
    · next h =>
      have hy : -((-y).toNat : Int) = y := by omega
      have hpos : (-y).toNat ≠ 0 := by omega
      have hminus := CanonicalYear.minus (Decimal.writes_padded 4 (-y).toNat)
        (Nat.pos_of_ne_zero hpos) (Decimal.le_length_padded 4 _)
        fun hlt => Decimal.padded_of_lt_length hlt ▸ Decimal.head?_digits_ne hpos
      rwa [hy] at hminus
    · next h =>
      have hy : (y.toNat : Int) = y := by omega
      have hplus := CanonicalYear.plus (Decimal.writes_digits y.toNat) (by omega)
        (Decimal.head?_digits_ne (by omega))
      rwa [hy] at hplus

theorem canonicalPart_twoDigits {n : Nat} (h : n < 100) : CanonicalPart n (twoDigits n) :=
  ⟨Decimal.writes_padded 2 n, Decimal.length_padded (by decide) h⟩

/-- Fewer than nine digits leave only a part of the nanoseconds. -/
theorem nanoseconds_of_length {ds : List Char} (h : ds.length ≤ 9) :
    nanoseconds ds = Decimal.value ds * Nat.pow 10 (9 - ds.length) := by
  rw [nanoseconds, List.take_of_length_le h]

/-- Digits that a fraction does not have are zeros in its nanoseconds. -/
theorem SpellsFraction.dvd {n k : Nat} {v : List Char} (h : SpellsFraction n v) (hk : k ≤ 9)
    (hlength : v.length ≤ k + 1) : 10 ^ (9 - k) ∣ n := by
  cases h with
  | none => exact Nat.dvd_zero _
  | @digits ds n hne hds hn =>
      have hle : ds.length ≤ k := Nat.le_of_succ_le_succ hlength
      have hn := (writes_nanoseconds_iff ⟨hne, hds⟩).1 hn
      rw [nanoseconds_of_length (Nat.le_trans hle hk)] at hn
      exact hn ▸ Nat.dvd_mul_left_of_dvd (Nat.pow_dvd_pow 10 (Nat.sub_le_sub_left hle 9)) _

theorem SpellsFraction.length_pos {n : Nat} {v : List Char} (h : SpellsFraction n v)
    (hn : n ≠ 0) : 0 < v.length := by
  cases h with
  | none => exact absurd rfl hn
  | digits _ _ _ => exact Nat.succ_pos _

theorem isGrouped_iff {v : List Char} :
    IsGrouped v ↔ v.length = 0 ∨ v.length = 4 ∨ v.length = 7 ∨ v.length = 10 := by
  simp only [IsGrouped, List.mem_cons, List.not_mem_nil, or_false]

/-- Digits that write the nanoseconds in groups are canonical if fewer groups do not. -/
theorem canonicalFraction_padded {width n m : Nat} (hwidth : width ∈ [3, 6, 9])
    (h : n < Nat.pow 10 width) (hm : n * Nat.pow 10 (9 - width) = m)
    (hfewest : ∀ v, SpellsFraction m v → IsGrouped v → width < v.length) :
    CanonicalFraction m ('.' :: Decimal.padded width n) := by
  simp only [List.mem_cons, List.not_mem_nil, or_false] at hwidth
  have hdigits : AreDigits (Decimal.padded width n) :=
    ⟨Decimal.padded_ne_nil width n, fun _ => Decimal.isDigit_of_mem_padded⟩
  have hlength := Decimal.length_padded (by omega) h
  refine ⟨.digits hdigits.1 hdigits.2 ((writes_nanoseconds_iff hdigits).2 ?_), ?_, ?_⟩
  · rw [nanoseconds_of_length (by omega), hlength, Decimal.value_padded, hm]
  · rw [isGrouped_iff, List.length_cons, hlength]
    omega
  · rw [List.length_cons, hlength]
    exact hfewest

theorem canonicalFraction_written {n : Nat} (h : n < 1000000000) :
    CanonicalFraction n (writtenFraction n) := by
  rw [writtenFraction]
  split
  · next hzero =>
    subst hzero
    exact ⟨.none, isGrouped_iff.2 (.inl rfl), fun _ _ _ => Nat.zero_le _⟩
  · next hpos =>
    have hne : ∀ v, SpellsFraction n v → 0 < v.length := fun v hv => hv.length_pos hpos
    split
    · next hmilli =>
      have hlt : n / 1000000 < Nat.pow 10 3 := by
        change n / 1000000 < 1000
        omega
      have hm : n / 1000000 * Nat.pow 10 6 = n := by
        change n / 1000000 * 1000000 = n
        omega
      refine canonicalFraction_padded (by decide) hlt hm fun v hv hgrouped => ?_
      have hv := hne v hv
      rw [isGrouped_iff] at hgrouped
      omega
    · next hmilli =>
      -- three digits are too few
      have hthree : ∀ v, SpellsFraction n v → 4 < v.length := fun v hv =>
        Nat.not_le.1 fun hle => hmilli (Nat.mod_eq_zero_of_dvd (hv.dvd (k := 3) (by decide) hle))
      split
      · next hmicro =>
        have hlt : n / 1000 < Nat.pow 10 6 := by
          change n / 1000 < 1000000
          omega
        have hm : n / 1000 * Nat.pow 10 3 = n := by
          change n / 1000 * 1000 = n
          omega
        refine canonicalFraction_padded (by decide) hlt hm fun v hv hgrouped => ?_
        have hv := hthree v hv
        rw [isGrouped_iff] at hgrouped
        omega
      · next hmicro =>
        -- six digits are too few
        have hsix : ∀ v, SpellsFraction n v → 7 < v.length := fun v hv =>
          Nat.not_le.1 fun hle => hmicro (Nat.mod_eq_zero_of_dvd (hv.dvd (k := 6) (by decide) hle))
        refine canonicalFraction_padded (by decide) h (Nat.mul_one n) fun v hv hgrouped => ?_
        have hv := hsix v hv
        rw [isGrouped_iff] at hgrouped
        omega

end Timestamp

/-! ## What a clock of UTC shows -/

namespace Instant

/-- What a clock of UTC shows at an instant. -/
def reading (t : Instant) : ClockReading :=
  ⟨t.date, t.hour, t.minuteOfHour, t.second, t.nanosecond, 0⟩

variable (t : Instant)

theorem date_exists : t.date.Exists := Date.exists_ofDayNumber _

theorem dayNumber_date : t.date.dayNumber = t.minute / 1440 := Date.dayNumber_ofDayNumber _

theorem hour_lt : t.hour < 24 := by
  rw [hour]
  omega

theorem minuteOfHour_lt : t.minuteOfHour < 60 := Nat.mod_lt _ (by decide)

theorem year_bounds : -262143 ≤ t.date.year ∧ t.date.year ≤ 262142 := by
  have hfirst := t.first_le
  have hlast := t.lt_last
  have hdate := t.dayNumber_date
  constructor
  · exact t.date_exists.le_year (by omega)
  · exact Int.le_of_lt_add_one (t.date_exists.year_lt (y := 262143) (by omega))

theorem reading_exists : t.reading.Exists :=
  ⟨t.date_exists, t.year_bounds.1, t.year_bounds.2, t.hour_lt, t.minuteOfHour_lt, t.second_le,
    t.nanosecond_lt⟩

theorem utcMinute_reading : t.reading.utcMinute = t.minute := by
  simp only [reading, ClockReading.utcMinute, dayNumber_date, hour, minuteOfHour]
  omega

theorem reading_denotes : t.reading.Denotes t :=
  ClockReading.denotes_iff.2 ⟨t.reading_exists, t.utcMinute_reading, rfl, rfl⟩

end Instant

/-! ## A whole timestamp -/

namespace Timestamp

theorem canonical_written (t : Instant) : Canonical t.reading (written t) := by
  have hpart : ∀ {n}, n < 100 → CanonicalPart n (twoDigits n) := canonicalPart_twoDigits
  exact .mk (canonicalYear_written _)
    (hpart (Nat.lt_of_le_of_lt t.date_exists.2.1 (by decide)))
    (hpart (Nat.lt_of_le_of_lt t.date_exists.day_le (by decide)))
    (hpart (Nat.lt_trans t.hour_lt (by decide)))
    (hpart (Nat.lt_trans t.minuteOfHour_lt (by decide)))
    (hpart (Nat.lt_of_le_of_lt t.second_le (by decide)))
    (canonicalFraction_written t.nanosecond_lt)

/-- A text is read as an instant exactly if it names what a clock shows at it. -/
theorem read?_eq_some_iff {s : String} {t : Instant} :
    read? s = some t ↔ ∃ r, Spells r s.toList ∧ r.Denotes t := by
  refine Option.bind_eq_some_iff.trans (exists_congr fun r => ?_)
  rw [reading?_eq_some_iff, ClockReading.instant?_eq_some_iff]

/-- Every instant is read back from its timestamp. -/
theorem read?_print (t : Instant) : read? (print t) = some t := by
  rw [read?_eq_some_iff, print, String.toList_ofList]
  exact ⟨t.reading, (canonical_written t).spells, t.reading_denotes⟩

theorem print_inj {t u : Instant} : print t = print u ↔ t = u := by
  refine ⟨fun h => ?_, congrArg print⟩
  have hread := read?_print t
  rw [h, read?_print] at hread
  exact (Option.some.inj hread).symm

/-- A leap second that a clock an hour ahead shows on the day after a leap day. -/
example : (read? "2024-3-1t0:30:60.0005+01:00").map print =
    some "2024-02-29T23:30:60.000500Z" := by decide +kernel

end Timestamp

end JournalCache

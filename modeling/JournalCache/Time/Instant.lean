import JournalCache.Time.Calendar

/-!
# Instants

An instant is given by its minute, its second within the minute and its nanosecond. A minute may
have a second numbered 60, a leap second. Offsets from UTC are whole minutes, so a clock set by
another offset shows the same second and nanosecond and only another minute. Instants are kept for
the years from -262143 to 262142.
-/

namespace JournalCache

/-- An instant of UTC: the minute, counted from the start of 1 March of year 0, the second within
it, and the nanosecond within that. -/
@[ext] structure Instant where
  minute : Int
  second : Nat
  nanosecond : Nat
  first_le : (Date.mk (-262143) 1 1).dayNumber * 1440 ≤ minute
  lt_last : minute < (Date.mk 262143 1 1).dayNumber * 1440
  second_le : second ≤ 60
  nanosecond_lt : nanosecond < 1000000000
  deriving DecidableEq

namespace Instant

/-- The start of 1 March of year 0. -/
def zero : Instant := ⟨0, 0, 0, by decide, by decide, by decide, by decide⟩

instance : Inhabited Instant := ⟨zero⟩

/-- The instant with this minute, second and nanosecond, where they are in range. -/
def make? (minute : Int) (second nanosecond : Nat) : Option Instant :=
  if h : (Date.mk (-262143) 1 1).dayNumber * 1440 ≤ minute
      ∧ minute < (Date.mk 262143 1 1).dayNumber * 1440 ∧ second ≤ 60 ∧ nanosecond < 1000000000 then
    some ⟨minute, second, nanosecond, h.1, h.2.1, h.2.2.1, h.2.2.2⟩
  else none

def date (t : Instant) : Date := Date.ofDayNumber (t.minute / 1440)

def hour (t : Instant) : Nat := (t.minute % 1440).toNat / 60

def minuteOfHour (t : Instant) : Nat := (t.minute % 1440).toNat % 60

end Instant

/-- What a clock shows: a date that exists and a time of day, with the offset in minutes by which
the clock is ahead of UTC. -/
structure ClockReading where
  date : Date
  hour : Nat
  minute : Nat
  second : Nat
  nanosecond : Nat
  ahead : Int
  deriving DecidableEq, Repr

namespace ClockReading

/-- Whether there is such a date and such a time of day, in a year for which instants are kept. -/
def Exists (r : ClockReading) : Prop :=
  r.date.Exists ∧ -262143 ≤ r.date.year ∧ r.date.year ≤ 262142
    ∧ r.hour < 24 ∧ r.minute < 60 ∧ r.second ≤ 60 ∧ r.nanosecond < 1000000000

instance (r : ClockReading) : Decidable r.Exists := inferInstanceAs (Decidable (_ ∧ _))

/-- The minute of UTC at which a clock shows `r`. -/
def utcMinute (r : ClockReading) : Int :=
  r.date.dayNumber * 1440 + (r.hour * 60 + r.minute : Nat) - r.ahead

/-- The instant at which a clock shows `r`, if the reading exists and the instant is kept. -/
def instant? (r : ClockReading) : Option Instant :=
  if r.Exists then Instant.make? r.utcMinute r.second r.nanosecond else none

end ClockReading

end JournalCache

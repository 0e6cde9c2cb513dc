/-!
# Journal offsets

A record of the journal is found at an offset, a 64-bit word. The largest word is reserved: no
record is expected there, and a mark that holds it stands for "no offset yet".
-/

namespace JournalCache

/-- The position of a record in the journal. -/
abbrev Offset := UInt64

/-- The offset that no record has; a mark set to it is an absent mark. -/
def reservedOffset : Offset := 0xFFFFFFFFFFFFFFFF

/-- The offset that a mark shows, absent when the mark holds the reserved word. -/
def shownOffset (mark : Offset) : Option Offset :=
  if mark = reservedOffset then none else some mark

@[simp] theorem shownOffset_reservedOffset : shownOffset reservedOffset = none := by
  simp [shownOffset]

theorem shownOffset_eq_none {mark : Offset} :
    shownOffset mark = none ↔ mark = reservedOffset := by
  simp [shownOffset]

theorem shownOffset_eq_some {mark o : Offset} :
    shownOffset mark = some o ↔ mark = o ∧ o ≠ reservedOffset := by
  unfold shownOffset
  split
  · next h => simp only [reduceCtorEq, false_iff, not_and, Decidable.not_not]; rintro rfl; exact h
  · next h => simp only [Option.some.injEq, iff_self_and]; rintro rfl; exact h

/-- No offset lies above the reserved one. -/
theorem le_reservedOffset (o : Offset) : o ≤ reservedOffset := by
  have := o.toNat_lt
  simp only [UInt64.le_iff_toNat_le, reservedOffset]
  show o.toNat ≤ 18446744073709551615
  omega

end JournalCache

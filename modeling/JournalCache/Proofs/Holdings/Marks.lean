import JournalCache.Proofs.Coverage.Marks
import JournalCache.Proofs.Holdings.Merge

/-!
# What moves the marks

The lowest mark goes down and never up. A batch lowers it to the offset of its first message, a
backfill also to the start of the range that was asked for, a record of the tail to its own offset;
nothing else moves it. The highest mark is raised by the messages of the tail and by nothing else.
-/

namespace JournalCache

namespace Holdings

/-- What is held after the messages of a fetch were merged and the lowest mark was lowered to the
start of its range. -/
def backfill (h : Holdings) (o : Outlet) (batch : List Message) (first : Offset) :
    Holdings × Outlet :=
  ({ (h.merge o batch).1 with coverage := (h.merge o batch).1.coverage.lower first },
    (h.merge o batch).2)

variable (h : Holdings) (o : Outlet)

theorem lowMark_merge_le_iff (batch : List Message) {p : Offset} :
    (h.merge o batch).1.coverage.lowMark ≤ p ↔
      h.coverage.lowMark ≤ p ∨ ∃ m, batch.head? = some m ∧ m.offset ≤ p := by
  rw [coverage_merge]
  cases batch with
  | nil => simp
  | cons m ms => simp [Coverage.lowMark_lower_le_iff]

theorem lowMark_backfill_le_iff (batch : List Message) (first : Offset) {p : Offset} :
    (h.backfill o batch first).1.coverage.lowMark ≤ p ↔
      h.coverage.lowMark ≤ p ∨ first ≤ p ∨ ∃ m, batch.head? = some m ∧ m.offset ≤ p := by
  rw [backfill, Coverage.lowMark_lower_le_iff, lowMark_merge_le_iff, or_assoc,
    or_comm (b := first ≤ p)]

theorem coverage_ingest_lowMark (r : Delivery) :
    (h.ingest o r).1.coverage.lowMark = min h.coverage.lowMark r.offset := by
  cases r with
  | marker p => rfl
  | message m =>
      change ((h.merge o [m]).1.coverage.raise m.offset).lowMark = _
      rw [Coverage.lowMark_raise, coverage_merge]
      rfl

theorem lowMark_ingest_le_iff (r : Delivery) {p : Offset} :
    (h.ingest o r).1.coverage.lowMark ≤ p ↔ h.coverage.lowMark ≤ p ∨ r.offset ≤ p := by
  rw [coverage_ingest_lowMark, Std.min_le]

theorem highMark_merge (batch : List Message) :
    (h.merge o batch).1.coverage.highMark = h.coverage.highMark := by
  rw [coverage_merge]
  cases batch <;> rfl

theorem highMark_backfill (batch : List Message) (first : Offset) :
    (h.backfill o batch first).1.coverage.highMark = h.coverage.highMark := highMark_merge h o batch

theorem coverage_ingest (r : Delivery) :
    (h.ingest o r).1.coverage =
      match r with
      | .marker p => h.coverage.lower p.offset
      | .message m => (h.coverage.lower m.offset).raise m.offset := by
  cases r with
  | marker p => rfl
  | message m => exact congrArg (·.raise m.offset) (coverage_merge h o [m])

end Holdings

end JournalCache

import JournalCache.Offset
import JournalCache.SortedMap.Basic

/-!
# The queue of one agent

A queue holds one item per offset and lists them by offset. It only grows: an item is overwritten by
a later item of the same offset and never removed. Readers go through it page by page.
-/

namespace JournalCache

/-- Items by offset. -/
abbrev Queue (α : Type) := SortedMap Offset α

namespace Queue

variable {α : Type}

/-- The queue after its items at the offsets of `staged` are overwritten by those of `staged`. -/
def putStaged (q staged : Queue α) : Queue α := q.insertAll staged.entries

/-- The first `limit` items at or above `low`. -/
def page (q : Queue α) (low : Offset) (limit : Nat) : List (Offset × α) :=
  (q.entriesFrom low).take limit

end Queue

end JournalCache

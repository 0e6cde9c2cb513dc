import JournalCache.Coverage

/-!
# What a cache did and where it stands

`Activity` counts what a cache did. `Snapshot` is a view of a cache at one moment.
-/

namespace JournalCache

structure Activity where
  /-- Records of the tail that were handled, markers included. -/
  handled : Nat
  /-- Fetches that were begun. -/
  fetches : Nat
  /-- Queries that waited and then found the range covered by another query. -/
  skipped : Nat
  /-- Queries that waited too long. -/
  timeouts : Nat
  deriving DecidableEq, Repr

namespace Activity

def none : Activity := ⟨0, 0, 0, 0⟩

instance : Inhabited Activity := ⟨none⟩

end Activity

structure Snapshot where
  agents : Nat
  items : Nat
  lowest : Option Offset
  highest : Option Offset
  activity : Activity
  deriving DecidableEq, Repr

namespace Snapshot

/-- The number of offsets between the two marks, both counted. -/
def span (s : Snapshot) : UInt64 := Coverage.span s.lowest s.highest

end Snapshot

end JournalCache

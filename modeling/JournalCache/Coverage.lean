import JournalCache.Offset

/-!
# Which offsets a cache covers

A cache covers every offset from its lowest mark up to where tail ingestion stands; the highest mark
is the largest offset that tail ingestion met. Each mark is a word in which the reserved offset
means "no mark yet". For the lowest mark that word is simply the largest candidate, so lowering to
it changes nothing. For the highest mark it is above every candidate, so raising to it takes the
mark away, and the next candidate sets it again.
-/

namespace JournalCache

/-- The two marks of a cache, as words in which `reservedOffset` means absent. -/
structure Coverage where
  /-- The lowest fully covered offset. -/
  lowMark : Offset
  /-- The largest offset met by tail ingestion. -/
  highMark : Offset
  deriving DecidableEq, Repr

namespace Coverage

def unseeded : Coverage := ⟨reservedOffset, reservedOffset⟩

instance : Inhabited Coverage := ⟨unseeded⟩

def lowest? (c : Coverage) : Option Offset := shownOffset c.lowMark

def highest? (c : Coverage) : Option Offset := shownOffset c.highMark

/-- Whether a record was met. -/
def isSeeded (c : Coverage) : Bool := c.lowest?.isSome

/-- Lowers the lowest mark to `o` unless it is there or below. -/
def lower (c : Coverage) (o : Offset) : Coverage := { c with lowMark := min c.lowMark o }

/-- Raises the highest mark to `o` unless it is there or above; an absent mark is set to `o`. -/
def raise (c : Coverage) (o : Offset) : Coverage :=
  if c.highMark = reservedOffset ∨ c.highMark < o then { c with highMark := o } else c

/-- The lowest mark that whoever lowers to `o` is told. -/
def loweredMark (c : Coverage) (o : Offset) : Offset := min c.lowMark o

/-- The highest mark that whoever raises to `o` is told: `o` where it became the mark, and else the
mark that stayed. -/
def raisedMark (c : Coverage) (o : Offset) : Offset :=
  if c.highMark = reservedOffset ∨ c.highMark < o then o else c.highMark

/-- The number of offsets from `low` to `high`, both counted, or zero where one is absent or they
stand the other way round. -/
def span (low high : Option Offset) : UInt64 :=
  match low, high with
  | some l, some h => if l ≤ h then h - l + 1 else 0
  | _, _ => 0

@[simp] theorem lowMark_raise (c : Coverage) (o : Offset) : (c.raise o).lowMark = c.lowMark := by
  unfold raise; split <;> rfl

@[simp] theorem highMark_lower (c : Coverage) (o : Offset) :
    (c.lower o).highMark = c.highMark := rfl

theorem highMark_raise (c : Coverage) (o : Offset) : (c.raise o).highMark = c.raisedMark o := by
  unfold raise raisedMark; split <;> rfl

end Coverage

end JournalCache

import JournalCache.Settings.Basic
import JournalCache.Text.Blank

/-!
# Settings from the environment

Each setting has a variable of its own. A variable that is unset or does not hold UTF-8 leaves the
standard setting. A duration is written as a number of milliseconds that fits in 64 bits; any other
text leaves the standard setting too. The flag is on for `1` and for `true` in any case, with blanks
around it or not, and off for any other text.
-/

namespace JournalCache

/-- The values of the three variables, absent where one is unset. -/
structure Environment where
  fetchWait : Option ByteArray
  closeWait : Option ByteArray
  registersQueues : Option ByteArray

namespace Environment

/-- The text of a variable, absent if it is unset or no UTF-8. -/
def text? (value : Option ByteArray) : Option String := value.bind String.fromUTF8?

/-- Reads a number of milliseconds that fits in 64 bits. -/
def duration? (s : String) : Option Duration :=
  match Decimal.unsigned? s.toList with
  | some n => if n < UInt64.size then some (.ofMilliseconds n) else none
  | none => none

/-- The letter in lower case, if it is a capital of ASCII. -/
def lowerLetter (c : Char) : Char := if 'A' ≤ c ∧ c ≤ 'Z' then Char.ofNat (c.toNat + 32) else c

def flag (s : String) : Bool :=
  let cs := Text.trimBlanks s.toList
  cs.map lowerLetter == ['t', 'r', 'u', 'e'] || cs == ['1']

def settings (e : Environment) : Settings :=
  { fetchWait := ((text? e.fetchWait).bind duration?).getD Settings.standard.fetchWait
    closeWait := ((text? e.closeWait).bind duration?).getD Settings.standard.closeWait
    registersQueues := ((text? e.registersQueues).map flag).getD Settings.standard.registersQueues }

end Environment

end JournalCache

import JournalCache.Offset
import JournalCache.Text.Numeral

/-!
# What can go wrong

Each fault is a cause with what is known about it. A fault belongs to one of four parties; `summary`
words the cause alone, `message` puts the party in front.
-/

namespace JournalCache

inductive Fault where
  /-- The cache has met no record of the journal. -/
  | notReady
  /-- Another query kept the right to fetch for longer than a query waits. The milliseconds are any
  number: they are not cut to 64 bits. -/
  | timedOut (waitedMilliseconds : Nat)
  /-- The journal did not answer for the range from `first` up to, not with, `upTo`. -/
  | fetchFailed (first upTo : Offset) (reason : String)
  | subscribeFailed (reason : String)
  | closeFailed (reason : String)
  | registerFailed (agent reason : String)
  | unregisterFailed (agent reason : String)
  /-- A setting has a value that it must not have. -/
  | invalidValue (field value reason : String)
  deriving DecidableEq, Repr

inductive Fault.Party where
  | cache
  | journal
  | registry
  | settings
  deriving DecidableEq, Repr

namespace Fault

def party : Fault → Party
  | .notReady | .timedOut .. => .cache
  | .fetchFailed .. | .subscribeFailed .. | .closeFailed .. => .journal
  | .registerFailed .. | .unregisterFailed .. => .registry
  | .invalidValue .. => .settings

/-- The cause in words. -/
def summary : Fault → String
  | .notReady => "Cache not ready: no journal record observed yet"
  | .timedOut ms =>
    "Backfill timed out after waiting " ++ Decimal.text ms ++ "ms for the head poller"
  | .fetchFailed first upTo reason =>
    "Fetching range [" ++ Decimal.text first.toNat ++ ", " ++ Decimal.text upTo.toNat
      ++ ") failed: " ++ reason
  | .subscribeFailed reason => "Subscribing to the journal tail failed: " ++ reason
  | .closeFailed reason => "Closing the journal consumer failed: " ++ reason
  | .registerFailed agent reason =>
    "Registering queue for agent " ++ agent ++ " failed: " ++ reason
  | .unregisterFailed agent reason =>
    "Unregistering queue for agent " ++ agent ++ " failed: " ++ reason
  | .invalidValue field value reason =>
    "Invalid value for " ++ field ++ ": " ++ value ++ " - " ++ reason

def Party.label : Party → String
  | .cache => "Cache error"
  | .journal => "Journal error"
  | .registry => "Registry error"
  | .settings => "Config error"

/-- The cause in words, behind the party it belongs to. -/
def message (f : Fault) : String := f.party.label ++ ": " ++ f.summary

def isNotReady : Fault → Bool
  | .notReady => true
  | _ => false

def isTimeout : Fault → Bool
  | .timedOut _ => true
  | _ => false

end Fault

end JournalCache

import JournalCache.Fault
import JournalCache.Package.Message
import JournalCache.SortedMap.Basic

/-!
# A journal in memory

The journal keeps a log of messages by offset and answers fetches from it. It delivers what is
published to the one consumer that subscribed last. Ending a subscription, whoever's it was, leaves
the journal without consumer. Each of its services can be told to fail. A fetch takes as long as
its delay says, but never more than thirty years.
-/

namespace JournalCache

structure Journal where
  /-- The stored messages. -/
  log : SortedMap Offset Message
  /-- The number of the consumer that is delivered to. -/
  consumer : Option Nat
  /-- The ranges that were fetched, in order. -/
  fetches : List (Offset × Offset)
  /-- How often a subscription was ended. -/
  closes : Nat
  /-- The delay of each fetch, in milliseconds. -/
  delay : Nat
  failsFetches : Bool
  failsSubscriptions : Bool
  failsCloses : Bool

namespace Journal

def empty : Journal :=
  { log := .empty, consumer := none, fetches := [], closes := 0, delay := 0
    failsFetches := false, failsSubscriptions := false, failsCloses := false }

instance : Inhabited Journal := ⟨empty⟩

/-- Stores messages without delivering them. -/
def store (j : Journal) (ms : List Message) : Journal :=
  { j with log := j.log.insertAll (ms.map fun m => (m.offset, m)) }

def keep (j : Journal) : Delivery → Journal
  | .marker _ => j
  | .message m => j.store [m]

/-- Makes `consumer` the one that is delivered to. -/
def subscribe (j : Journal) (consumer : Nat) : Except Fault Journal :=
  if j.failsSubscriptions then .error (.subscribeFailed "journal unavailable")
  else .ok { j with consumer := some consumer }

/-- Ends a subscription, and tells whether that failed. -/
def unsubscribe (j : Journal) : Journal × Except Fault Unit :=
  ({ j with closes := j.closes + 1, consumer := none },
    if j.failsCloses then .error (.closeFailed "consumer already closed") else .ok ())

/-- The longest time that a fetch waits, in milliseconds: thirty years of 365 days. -/
def longestWait : Nat := 30 * 365 * 86400000

def waitOf (delay : Nat) : Nat := min delay longestWait

def beginFetch (j : Journal) (first upTo : Offset) : Journal :=
  { j with fetches := j.fetches ++ [(first, upTo)] }

/-- The answer to a fetch at its end. -/
def answer (j : Journal) (first upTo : Offset) : Except Fault (List Message) :=
  if j.failsFetches then .error (.fetchFailed first upTo "injected failure")
  else .ok ((j.log.entriesWithin first upTo).map (·.2))

end Journal

end JournalCache

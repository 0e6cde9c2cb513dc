import JournalCache.Fault
import JournalCache.Time.Duration

/-!
# Settings of a cache

How long a query waits for the right to fetch, how long closing waits for tail ingestion to stop,
and whether queues are registered. Both durations must be positive.
-/

namespace JournalCache

structure Settings where
  /-- How long a query waits for the right to fetch. -/
  fetchWait : Duration
  /-- How long closing waits for tail ingestion to stop. -/
  closeWait : Duration
  /-- Whether the queues of new agents are registered. -/
  registersQueues : Bool
  deriving DecidableEq, Repr

namespace Settings

/-- One minute, five seconds, and queues are registered. -/
def standard : Settings :=
  { fetchWait := .ofSeconds 60, closeWait := .ofSeconds 5, registersQueues := true }

instance : Inhabited Settings := ⟨standard⟩

def zeroDuration (field : String) : Fault :=
  .invalidValue field (Duration.mk 0).text (field ++ " must be positive")

/-- Refuses a duration of zero; where both are zero, the wait of queries is named. -/
def validate (s : Settings) : Except Fault Unit :=
  if s.fetchWait.nanoseconds = 0 then .error (zeroDuration "max_fetch_wait")
  else if s.closeWait.nanoseconds = 0 then .error (zeroDuration "close_timeout")
  else .ok ()

end Settings

end JournalCache

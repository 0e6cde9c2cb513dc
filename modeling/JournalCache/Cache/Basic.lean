import JournalCache.Cache.Activity
import JournalCache.Cache.FetchRight
import JournalCache.Holdings
import JournalCache.Settings.Basic

/-!
# The cache

A cache is kept by two parties: tail ingestion, which handles the records that the journal delivers,
oldest first, and the queries, which fetch older records (`Cache/Query.lean`). Nothing here takes
time: each function is one step of one party, between two moments at which that party waits, and any
step of another party may come in between. So that the others are not kept waiting, tail ingestion
handles only so many records in one go.
-/

namespace JournalCache

structure Cache where
  settings : Settings
  holdings : Holdings
  activity : Activity
  right : FetchRight
  /-- The delivered records that tail ingestion has not handled, oldest first. -/
  inbox : List Delivery
  /-- Whether tail ingestion runs. -/
  isFollowing : Bool
  /-- Whether tail ingestion was told to stop. -/
  isShutDown : Bool
  /-- Whether the subscription to the journal's tail was not yet ended by closing. -/
  isSubscribed : Bool
  deriving Inhabited

namespace Cache

/-- A cache that has met no record and follows the tail. -/
def start (number : Nat) (settings : Settings) : Cache :=
  { settings
    holdings := .empty number settings.registersQueues
    activity := .none
    right := .free
    inbox := []
    isFollowing := true
    isShutDown := false
    isSubscribed := true }

def lowest? (c : Cache) : Option Offset := c.holdings.coverage.lowest?

def highest? (c : Cache) : Option Offset := c.holdings.coverage.highest?

def queue (c : Cache) (agent : String) : Queue Item := c.holdings.table.queue agent

def snapshot (c : Cache) : Snapshot :=
  { agents := c.holdings.table.size
    items := c.holdings.table.total
    lowest := c.lowest?
    highest := c.highest?
    activity := c.activity }

/-! ## Tail ingestion -/

/-- The number of records that an inbox has room for. -/
def capacity : Nat := 1024

def deliver (c : Cache) (r : Delivery) : Cache := { c with inbox := c.inbox ++ [r] }

def ingest (c : Cache) (o : Outlet) (r : Delivery) : Cache × Outlet :=
  let (h, o) := c.holdings.ingest o r
  ({ c with
      holdings := h
      activity := { c.activity with handled := c.activity.handled + 1 } }, o)

/-- Tail ingestion handles the oldest record that was delivered. -/
def handleNext (c : Cache) (o : Outlet) : Cache × Outlet :=
  match c.inbox with
  | [] => (c, o)
  | r :: rs => { c with inbox := rs }.ingest o r

/-- The number of records that tail ingestion handles in one go. -/
def share : Nat := 128

def handleShare (c : Cache) (o : Outlet) : Cache × Outlet :=
  (c.inbox.take share).foldl (fun s _ => s.1.handleNext s.2) (c, o)

/-- Whether a share of records is there to be handled. -/
def hasFullShare (c : Cache) : Bool := c.isFollowing && !c.isShutDown && share ≤ c.inbox.length

/-- Tail ingestion ends; what it has not handled is lost. -/
def stop (c : Cache) : Cache := { c with isFollowing := false, inbox := [] }

end Cache

end JournalCache

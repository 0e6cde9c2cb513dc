import JournalCache.Cache.Basic

/-!
# Closing a cache, and a cache in words

Closing has two parts, since tail ingestion is waited for between them: it is told to stop, and
later the registrations are released. What the cache holds stays readable.
-/

namespace JournalCache

namespace Cache

/-- Tells tail ingestion to stop, and gives the subscription back if it still has it. -/
def shutDown (c : Cache) : Cache := { c with isShutDown := true, isSubscribed := false }

def releaseQueues (c : Cache) (o : Outlet) : Cache × Outlet :=
  let (table, registry) := c.holdings.table.release o.registry
  ({ c with holdings := { c.holdings with table } }, { o with registry })

def describe (c : Cache) : String :=
  "PubQueueCache \x7b queues: " ++ c.holdings.table.describe
    ++ ", watermarks: Watermarks \x7b min: " ++ Decimal.text c.holdings.coverage.lowMark.toNat
    ++ ", max: " ++ Decimal.text c.holdings.coverage.highMark.toNat
    ++ " \x7d, config: CacheConfig \x7b max_fetch_wait: " ++ c.settings.fetchWait.text
    ++ ", close_timeout: " ++ c.settings.closeWait.text ++ ", register_queues: "
    ++ Text.flag c.settings.registersQueues ++ " \x7d, .. \x7d"

end Cache

end JournalCache

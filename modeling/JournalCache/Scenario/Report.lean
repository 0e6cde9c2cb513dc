import JournalCache.Scenario.Step

/-!
# Reports on a scenario

After each step a report tells what the step answered and what can be seen of the site.
-/

namespace JournalCache

namespace Scenario

/-- What a look at a held queue shows. -/
structure View where
  queue : Queue Item
  page : Option (List (Offset × Item))
  item : Option Item

inductive Reply where
  | nothing
  | event (answer : Answer)
  | accepted (flags : List Bool)
  | view (view : View)
  | registered (queue : Option (Queue Item))
  | fetches (calls : List (Offset × Offset))
  | settings (settings : Settings)
  | text (text : String)
  | failed (fault : Fault)
  /-- The step needs a cache and there is none. -/
  | dropped
  /-- What came of events that went on together, with the milliseconds each took. -/
  | together (results : List (Nat × Answer))

structure CacheView where
  lowest : Option Offset
  highest : Option Offset
  isSeeded : Bool
  items : Nat
  agents : List String
  snapshot : Snapshot

def CacheView.ofCache (c : Cache) : CacheView :=
  { lowest := c.lowest?
    highest := c.highest?
    isSeeded := c.holdings.coverage.isSeeded
    items := c.holdings.table.total
    agents := c.holdings.table.agents
    snapshot := c.snapshot }

/-- What a step answered and what can be seen after it. -/
structure Report where
  reply : Reply
  hasConsumer : Bool
  closes : Nat
  registered : List String
  released : List String
  /-- The ranges that were asked for since the last report. -/
  fetches : List (Offset × Offset)
  /-- What the listener wrote down since the last report. -/
  remarks : List Remark
  current : Option CacheView
  other : Option CacheView

end Scenario

end JournalCache

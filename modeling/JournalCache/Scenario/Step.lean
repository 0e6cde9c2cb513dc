import JournalCache.Timeline.Run

/-!
# Scenarios

A scenario is a list of steps that somebody takes at a site, one after another. It looks at two
caches, the current one and the other one; a step refers to the current one. Queues that queries
answered can be held under a name and read later.
-/

namespace JournalCache

namespace Scenario

/-- What a journal and a registry are told to fail; an absent flag stays as it is. -/
structure Failures where
  fetches : Option Bool
  closes : Option Bool
  registrations : Option Bool
  releases : Option Bool

structure Look where
  name : String
  /-- The start and the length of a page to read. -/
  page : Option (Offset × Nat)
  /-- The offset of an item to read. -/
  offset : Option Offset

inductive Step where
  /-- A record is published, and not waited for. -/
  | publish (record : Delivery)
  /-- Time passes, so that tail ingestion handles all that was delivered. -/
  | settle
  /-- Records are published one after another; then time passes. -/
  | deliver (records : List Delivery)
  /-- Messages are stored in the journal's log. -/
  | store (messages : List Message)
  /-- Answers to fetches are prepared. -/
  | prepare (answers : List PreparedAnswer)
  | fail (failures : Failures)
  /-- A query; its queue is held under a name if one is given. -/
  | query (agent : String) (requested : Offset) (hold : Option String)
  | look (look : Look)
  /-- Looks at the queue that is registered for an agent. -/
  | registered (agent : String)
  /-- Looks at the fetches of the journal itself. -/
  | fetches
  | close
  | settings
  | describe
  | drop
  /-- Another cache is started on the site and becomes the current one. -/
  | start (failsSubscriptions : Option Bool)
  /-- The current cache and the other one change places. -/
  | swap
  /-- Events of the current cache go on together, each begun after some milliseconds. -/
  | together (events : List (Nat × Event))

structure Setup where
  settings : Settings
  /-- Whether the first cache reports to nobody and has the standard settings. -/
  isQuiet : Bool
  /-- The delay of each fetch of the journal, in milliseconds. -/
  fetchDelay : Nat
  failsSubscriptions : Bool

end Scenario

end JournalCache

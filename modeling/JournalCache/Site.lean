import JournalCache.Cache.Closing
import JournalCache.Journal.Prepared

/-!
# Caches over one journal

A site is a journal, a registry, a listener, and the caches that were started over them, numbered in
the order of their start. The journal delivers to one cache only, the one that subscribed last, and
ending the subscription of any of them leaves the journal without consumer. A cache may also be
started with no registry and no listener to report to.
-/

namespace JournalCache

structure Member where
  cache : Cache
  /-- Whether the cache reports to nobody. -/
  isQuiet : Bool
  /-- Whether the cache was dropped. -/
  isDropped : Bool
  deriving Inhabited

/-- What the listener wrote down when it was told of messages. -/
structure Remark where
  agent : String
  offsets : List Offset
  /-- The lowest covered offset of the first cache at that moment, absent if it was dropped. -/
  lowest : Option Offset
  deriving DecidableEq, Repr

/-- A journal with a registry, a listener and caches. -/
structure Site where
  journal : PreparedJournal
  registry : Registry
  members : List Member
  /-- What the listener wrote down, in order. -/
  remarks : List Remark
  deriving Inhabited

namespace Site

def ofJournal (j : Journal) : Site :=
  { journal := .ofJournal j, registry := .empty, members := [], remarks := [] }

def cache? (s : Site) (i : Nat) : Option Cache := s.members[i]?.map (·.cache)

/-- The lowest covered offset of the first cache, absent once it is dropped. -/
def firstLowest (s : Site) : Option Offset :=
  match s.members with
  | m :: _ => if m.isDropped then none else m.cache.lowest?
  | [] => none

def overJournal (s : Site) (f : Journal → Journal) : Site :=
  { s with journal := { s.journal with journal := f s.journal.journal } }

def remark (s : Site) (i : Nat) (n : Notice) : Remark :=
  { agent := n.agent
    offsets := n.messages.map (·.offset)
    lowest :=
      if i = 0 then
        if s.members.head?.all (·.isDropped) then none else n.holdings.coverage.lowest?
      else s.firstLowest }

/-- One step of cache `i`, which reports to the registry and the listener of the site unless it is
quiet. -/
def stepCache {α : Type} (s : Site) (i : Nat) (f : Cache → Outlet → Cache × Outlet × α) :
    Site × Option α :=
  match s.members[i]? with
  | none => (s, none)
  | some m =>
    if m.isQuiet then
      let (c, _, a) := f m.cache .empty
      ({ s with members := s.members.set i { m with cache := c } }, some a)
    else
      let (c, o, a) := f m.cache ⟨s.registry, []⟩
      ({ s with
          members := s.members.set i { m with cache := c }
          registry := o.registry
          remarks := s.remarks ++ o.notices.map (s.remark i) }, some a)

/-- A step of cache `i` that answers nothing. -/
def changeCache (s : Site) (i : Nat) (f : Cache → Outlet → Cache × Outlet) : Site :=
  (s.stepCache i fun c o => let (c, o) := f c o; (c, o, ())).1

def overCache {α : Type} (s : Site) (i : Nat) (f : Cache → Cache × α) : Site × Option α :=
  s.stepCache i fun c o => let (c, a) := f c; (c, o, a)

/-! ## Starting and publishing -/

/-- Starts a cache: the settings are checked first, then the cache subscribes to the journal. -/
def start (s : Site) (settings : Settings) (isQuiet : Bool) : Except Fault Site := do
  settings.validate
  let number := s.members.length
  let j ← s.journal.journal.subscribe number
  pure
    { s.overJournal fun _ => j with
      members := s.members ++ [⟨.start number settings, isQuiet, false⟩] }

def deliver (s : Site) (i : Nat) (r : Delivery) : Site :=
  (s.overCache i fun c => (c.deliver r, ())).1

/-- Publishes a record: it is stored, and delivered to the consumer if there is one. Answers the
number of the consumer. -/
def publish (s : Site) (r : Delivery) : Site × Option Nat :=
  let s := s.overJournal (·.keep r)
  match s.journal.journal.consumer with
  | none => (s, none)
  | some i => (s.deliver i r, some i)

/-- The number of records that were delivered and not handled. -/
def backlog (s : Site) : Nat := s.members.foldl (fun n m => n + m.cache.inbox.length) 0

/-! ## Tail ingestion -/

/-- The turn of tail ingestion of cache `i`: told to stop, it ends at once; else it handles its
share of what was delivered. If that is all, it ends if the journal delivers to it no longer. -/
def turnTail (s : Site) (i : Nat) : Site :=
  match s.cache? i with
  | none => s
  | some c =>
    if !c.isFollowing then s
    else if c.isShutDown then (s.overCache i fun c => (c.stop, ())).1
    else
      let s := s.changeCache i Cache.handleShare
      if c.hasFullShare || s.journal.journal.consumer = some i then s
      else (s.overCache i fun c => (c.stop, ())).1

/-! ## Closing -/

/-- The first part of closing cache `i`: tail ingestion is told to stop, and the subscription is
ended unless that was done before. Answers whether tail ingestion has to be waited for. -/
def beginClose (s : Site) (i : Nat) : Site × Bool :=
  match s.cache? i with
  | none => (s, false)
  | some c =>
    let s' := (s.overCache i fun c => (c.shutDown, ())).1
    if c.isSubscribed then (s'.overJournal fun j => j.unsubscribe.1, c.isFollowing)
    else (s', false)

/-- The last part of closing cache `i`: the registrations are released. -/
def endClose (s : Site) (i : Nat) : Site := s.changeCache i Cache.releaseQueues

/-- Drops cache `i`: it is closed without waiting. -/
def drop (s : Site) (i : Nat) : Site :=
  let s := (s.beginClose i).1
  let s := ((s.overCache i fun c => (c.stop, ())).1).endClose i
  { s with
    members := s.members.modify i fun m => { m with isDropped := true } }

end Site

end JournalCache

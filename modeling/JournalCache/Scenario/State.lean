import JournalCache.Scenario.Report

/-!
# Where a scenario stands

A scenario has a timeline, two caches that it looks at, and the queues it holds under names. This
module says what the steps that are not events of one cache do to it.
-/

namespace JournalCache

namespace Scenario

/-- A held queue: the queue of an agent of a cache, or one that is empty for ever. -/
inductive HeldQueue where
  | ofAgent (cache : Nat) (agent : String)
  | empty

/-- Where a scenario stands. -/
structure State where
  timeline : Timeline
  /-- The settings of caches that are started later. -/
  settings : Settings
  current : Option Nat
  other : Option Nat
  held : List (String × HeldQueue)

namespace State

def overSite (s : State) (f : Site → Site) : State :=
  { s with timeline := { s.timeline with site := f s.timeline.site } }

def overJournal (s : State) (f : Journal → Journal) : State := s.overSite (·.overJournal f)

def heldQueue (s : State) : HeldQueue → Queue Item
  | .ofAgent i agent => ((s.timeline.site.cache? i).map (·.queue agent)).getD .empty
  | .empty => .empty

/-- The queue that a query for an agent answers. -/
def queueOf (s : State) (i : Nat) (agent : String) : HeldQueue :=
  match (s.timeline.site.cache? i).bind fun c => c.holdings.table.queue? agent with
  | some _ => .ofAgent i agent
  | none => .empty

def view (q : Queue Item) (l : Look) : View :=
  { queue := q
    page := l.page.map fun p => q.page p.1 p.2
    item := l.offset.bind q.get? }

def publish (s : State) (r : Delivery) : State × Bool :=
  let (timeline, accepted) := s.timeline.publishNow r
  ({ s with timeline }, accepted)

def publishAll (s : State) : List Delivery → State × List Bool
  | [] => (s, [])
  | r :: rs =>
    let (s, accepted) := s.publish r
    let (s, flags) := s.publishAll rs
    (s, accepted :: flags)

/-- Time passes. -/
def settle (s : State) : State := { s with timeline := s.timeline.settle }

def dropCache (s : State) (i : Nat) : State :=
  let consumer := s.timeline.site.journal.journal.consumer
  let s := s.overSite (·.drop i)
  if s.timeline.site.journal.journal.consumer = consumer then s
  else { s with timeline := s.timeline.wakeConsumer consumer }

/-- Starts a cache; tail ingestion of it, and of the one that the journal delivered to, get a turn.
Answers its number. -/
def startCache (s : State) (settings : Settings) (isQuiet : Bool) : Except Fault (State × Nat) := do
  let number := s.timeline.site.members.length
  let consumer := s.timeline.site.journal.journal.consumer
  let site ← s.timeline.site.start settings isQuiet
  pure
    ({ s with timeline := ({ s.timeline with site }.wakeConsumer consumer).wakeTail number },
      number)

/-- Sets the flags that are given. -/
def fail (s : State) (f : Failures) : State :=
  s.overSite fun site =>
    let site := site.overJournal fun j =>
      { j with
        failsFetches := f.fetches.getD j.failsFetches
        failsCloses := f.closes.getD j.failsCloses }
    { site with
      registry :=
        { site.registry with
          refusesQueues := f.registrations.getD site.registry.refusesQueues
          failsReleases := f.releases.getD site.registry.failsReleases } }

/-- Starts another cache and makes it the current one. The one that was current becomes the other
one, and the one that was the other one is dropped. -/
def startAnother (s : State) (failsSubscriptions : Option Bool) : State × Reply :=
  let s := s.overJournal fun j =>
    { j with failsSubscriptions := failsSubscriptions.getD j.failsSubscriptions }
  match s.startCache s.settings false with
  | .error e => (s, .failed e)
  | .ok (s, number) =>
    let previous := s.other
    let s := { s with current := some number, other := s.current }
    let s := match previous with
      | some i => s.dropCache i
      | none => s
    (s.settle, .nothing)

end State

end Scenario

end JournalCache

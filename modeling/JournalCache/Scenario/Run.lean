import JournalCache.Scenario.State

/-!
# Running a scenario

`run` starts the first cache and takes the steps in order; it reports on the start and on each step.
-/

namespace JournalCache

namespace Scenario

namespace State

/-- Takes a step that needs a cache. -/
def withCurrent (s : State) (f : Nat → State × Reply) : State × Reply :=
  match s.current with
  | some i => f i
  | none => (s, .dropped)

/-- Runs one event of cache `i` by itself. -/
def alone (s : State) (i : Nat) (e : Event) : State × Reply :=
  let (timeline, answer) := s.timeline.alone i e
  ({ s with timeline }, (answer.map Reply.event).getD .nothing)

/-- A query of cache `i`, whose queue is held under a name if one is given. -/
def query (s : State) (i : Nat) (agent : String) (requested : Offset) (hold : Option String) :
    State × Reply :=
  match s.alone i (.query agent requested none), hold with
  | (s, .event (.queue q)), some name =>
    ({ s with held := (name, s.queueOf i agent) :: s.held }, .event (.queue q))
  | result, _ => result

def step (s : State) : Step → State × Reply
  | .publish r =>
    let (s, accepted) := s.publish r
    (s, .event (.accepted accepted))
  | .settle => (s.settle, .nothing)
  | .deliver rs =>
    let (s, flags) := s.publishAll rs
    (s.settle, .accepted flags)
  | .store ms => (s.overJournal (·.store ms), .nothing)
  | .prepare as =>
    (s.overSite fun site =>
      { site with journal := { site.journal with prepared := site.journal.prepared ++ as } },
      .nothing)
  | .fail f => (s.fail f, .nothing)
  | .query agent requested hold => s.withCurrent fun i => s.query i agent requested hold
  | .look l =>
    match s.held.find? fun h => h.1 == l.name with
    | some h => (s, .view (view (s.heldQueue h.2) l))
    | none => (s, .nothing)
  | .registered agent =>
    let site := s.timeline.site
    (s, .registered ((site.registry.listing? agent).map fun l =>
      s.heldQueue (.ofAgent l.table l.agent)))
  | .fetches => (s, .fetches s.timeline.site.journal.journal.fetches)
  | .close => s.withCurrent fun i => s.alone i .close
  | .settings =>
    s.withCurrent fun i =>
      (s, ((s.timeline.site.cache? i).map fun c => Reply.settings c.settings).getD .nothing)
  | .describe =>
    s.withCurrent fun i =>
      (s, ((s.timeline.site.cache? i).map fun c => Reply.text c.describe).getD .nothing)
  | .drop =>
    match s.current with
    | some i => ({ s.dropCache i with current := none }, .nothing)
    | none => (s, .nothing)
  | .start failsSubscriptions => s.startAnother failsSubscriptions
  | .swap => ({ s with current := s.other, other := s.current }, .nothing)
  | .together events =>
    s.withCurrent fun i =>
      let (timeline, results) := s.timeline.together i events
      ({ s with timeline }, .together results)

def cacheView (s : State) (i : Option Nat) : Option CacheView :=
  i.bind fun i => (s.timeline.site.cache? i).map CacheView.ofCache

/-- Reports on a step; what it reports once is not reported again. -/
def report (s : State) (reply : Reply) : State × Report :=
  let site := s.timeline.site
  (s.overSite fun site =>
      { site with journal := { site.journal with calls := [] }, remarks := [] },
    { reply
      hasConsumer := site.journal.journal.consumer.isSome
      closes := site.journal.journal.closes
      registered := site.registry.agents
      released := site.registry.released
      fetches := site.journal.calls
      remarks := site.remarks
      current := s.cacheView s.current
      other := s.cacheView s.other })

/-- Takes steps and reports on each. -/
def steps (s : State) : List Step → List Report
  | [] => []
  | t :: ts =>
    let (s, reply) := s.step t
    let (s, r) := s.report reply
    r :: s.steps ts

/-- Where a scenario stands before its first cache is started. -/
def ofSetup (u : Setup) : State :=
  let journal :=
    { Journal.empty with delay := u.fetchDelay, failsSubscriptions := u.failsSubscriptions }
  { timeline := .ofSite (.ofJournal journal)
    settings := u.settings
    current := none
    other := none
    held := [] }

end State

/-- What came of a scenario: the fault that kept the first cache from starting, and whether the
journal had a consumer then; or the reports. -/
inductive Result where
  | notStarted (fault : Fault) (hasConsumer : Bool)
  | reports (reports : List Report)

/-- Runs a scenario. -/
def run (u : Setup) (steps : List Step) : Result :=
  let s := State.ofSetup u
  match s.startCache (if u.isQuiet then .standard else u.settings) u.isQuiet with
  | .error e => .notStarted e s.timeline.site.journal.journal.consumer.isSome
  | .ok (s, number) =>
    let (s, r) := { s with current := some number }.report .nothing
    .reports (r :: s.steps steps)

end Scenario

end JournalCache

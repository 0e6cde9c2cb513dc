import JournalCache.Timeline.Turn

/-!
# Running a timeline

Turns are taken from the agenda until every task has ended. When no turn is due, those who rest get
one; only when nobody rests does the clock move, to the time of the next turn.
-/

namespace JournalCache

namespace Timeline

/-- The first turn of the agenda is taken, at the time at which it is due. -/
def step (tl : Timeline) : Timeline :=
  let tl := if tl.agenda.any (·.due ≤ tl.now) then tl else tl.rouse
  match tl.agenda with
  | [] => tl
  | t :: ts => { tl with agenda := ts, now := max tl.now t.due }.turn t.party

/-- Turns are taken until every task has ended, but at most `n` turns. -/
def run : Nat → Timeline → Timeline
  | 0, tl => tl
  | n + 1, tl => if tl.tasks.all fun t => t.result?.isSome then tl else run n tl.step

/-- As many turns as can be taken without a task: each turn of tail ingestion that makes it rest
handles a record. -/
def idleLimit (tl : Timeline) : Nat := tl.agenda.length + tl.resting.length + tl.site.backlog

/-- More turns than can be taken: each task is due at most eight times (its start, its wake-up, its
limit, its patience, the right passed to it, the ends of the two parts of its fetch and the end of
tail ingestion), adds at most one record to the backlog and gives a turn to at most two tails. -/
def turnLimit (tl : Timeline) : Nat := 16 * tl.tasks.length + tl.idleLimit

def steps : Nat → Timeline → Timeline
  | 0, tl => tl
  | n + 1, tl => steps n tl.step

/-- Forgets the tasks, and the turns they were still to take. -/
def clearTasks (tl : Timeline) : Timeline :=
  { tl with
    tasks := []
    line := []
    agenda := tl.agenda.filter fun t =>
      match t.party with
      | .tail _ => true
      | .task _ => false }

/-- The results of the tasks, with the times since `start` at which they ended. -/
def results (tl : Timeline) (start : Nat) : List (Nat × Answer) :=
  tl.tasks.filterMap fun t => t.result?.map fun r => (r.1 - start, r.2)

def task (tl : Timeline) (i : Nat) (delay : Nat) (e : Event) : Task :=
  { event := e, cache := i, stage := .asleep (tl.now + delay), quitAt := none }

/-- Waits for a millisecond, so that all that is delivered is handled. -/
def settle (tl : Timeline) : Timeline :=
  let tl := steps tl.idleLimit tl
  { tl with now := tl.now + 1 }

/-- All that is ready takes a turn. -/
def everyTurn (tl : Timeline) : Timeline :=
  tl.agenda.foldl (fun (tl : Timeline) t => tl.turn t.party) { tl with agenda := [] }

/-- Publishes a record, ahead of all that is ready. If there is no room for it, all that is ready
takes a turn first. Answers whether it was accepted. -/
def publishNow (tl : Timeline) (r : Delivery) : Timeline × Bool :=
  let isFull := tl.site.journal.journal.consumer.any fun i => tl.room i == 0
  let tl := if isFull then tl.everyTurn.rouse else tl
  let (site, consumer) := tl.site.publish r
  ({ tl with site }.wakeConsumer consumer, consumer.isSome)

/-- Runs events of one cache together, each begun after some milliseconds, in their order behind all
that is ready; then settles. -/
def together (tl : Timeline) (i : Nat) (events : List (Nat × Event)) :
    Timeline × List (Nat × Answer) :=
  let start := tl.now
  let tasks := events.map fun e => tl.task i e.1 e.2
  let tl := { tl with tasks }
  let tl := (List.range tasks.length).foldl (fun tl k => tl.schedule tl.now (.task k)) tl
  let tl := run tl.turnLimit tl
  (tl.clearTasks.settle, tl.results start)

/-- Runs one event of a cache, ahead of all that is ready. Who rests at its end gets a turn. -/
def alone (tl : Timeline) (i : Nat) (e : Event) : Timeline × Option Answer :=
  let tl := { tl with tasks := [tl.task i 0 e], agenda := ⟨tl.now, .task 0⟩ :: tl.agenda }
  let tl := run tl.turnLimit tl
  (tl.clearTasks.rouse, (tl.results 0).head?.map (·.2))

end Timeline

end JournalCache

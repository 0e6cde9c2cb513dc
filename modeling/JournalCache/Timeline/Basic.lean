import JournalCache.Cache.Query
import JournalCache.Site

/-!
# Overlapping activities in virtual time

On a timeline several activities go on at once: queries, publications, closings, and tail ingestion
of each cache. Time is a clock of whole milliseconds that stands still as long as anybody has
something to do. The agenda lists who has to be looked at and when, earliest first and, at one
instant, in the order in which they were put there: that order is the order in which activities take
turns. In its turn an activity goes on until it has to wait, by the steps of `Site` and `Cache`.

A query waits for the right to fetch and then for the answer. When its wait ends it first looks for
what it waited for and then at its limit, so a right that has passed to it is used even when the
limit is over. A publication waits for room in the inbox of the cache that the journal delivers to.
Tail ingestion that handled a full share of records rests, and gets its next turn only when nobody
else has one at that instant.
-/

namespace JournalCache

/-- What somebody does on a timeline. -/
inductive Event where
  /-- A query, which its caller gives up after a number of milliseconds if a patience is given. -/
  | query (agent : String) (requested : Offset) (patience : Option Nat)
  | publish (record : Delivery)
  | close
  /-- The journal is told to fail fetches, or not to. -/
  | failFetches (on : Bool)

inductive Answer where
  | nothing
  /-- Whether the journal had a consumer for a record. -/
  | accepted (wasAccepted : Bool)
  /-- The queue that a query asked for, as it was at the end of the query. -/
  | queue (items : Queue Item)
  | failed (fault : Fault)
  /-- The query was given up. -/
  | givenUp

/-- How far an event has come. -/
inductive Stage where
  | asleep (wakeAt : Nat)
  /-- Waits for the right to fetch. -/
  | waiting (limit : Nat)
  /-- Waits for a prepared answer. -/
  | prepared (readyAt : Nat) (reply : Option (Except Fault (List Message))) (first upTo : Offset)
  /-- Waits for the answer of the journal. -/
  | fetching (readyAt : Nat) (first upTo : Offset)
  /-- Waits to deliver a record to the inbox of a cache, until it is admitted. -/
  | sending (consumer : Nat) (record : Delivery) (isAdmitted : Bool)
  /-- Waits for tail ingestion to end. -/
  | closing
  | ended (time : Nat) (answer : Answer)

structure Task where
  event : Event
  /-- The number of the cache. -/
  cache : Nat
  stage : Stage
  /-- When the caller gives the event up. -/
  quitAt : Option Nat

/-- The time at which a task ended and what came of it. -/
def Task.result? (t : Task) : Option (Nat × Answer) :=
  match t.stage with
  | .ended time answer => some (time, answer)
  | _ => none

inductive Party where
  | task (number : Nat)
  /-- Tail ingestion of a cache. -/
  | tail (cache : Nat)
  deriving DecidableEq, Repr

structure Turn where
  due : Nat
  party : Party
  deriving DecidableEq, Repr

/-- A site in virtual time. -/
structure Timeline where
  site : Site
  now : Nat
  /-- The turns to come, earliest first. -/
  agenda : List Turn
  /-- The caches whose tail ingestion rests. -/
  resting : List Nat
  tasks : List Task
  /-- The tasks that wait for room in an inbox and are not admitted yet, longest first. -/
  line : List Nat

namespace Timeline

def ofSite (s : Site) : Timeline :=
  { site := s, now := 0, agenda := [], resting := [], tasks := [], line := [] }

/-- Puts a turn behind all that are due no later. -/
def insertTurn (t : Turn) : List Turn → List Turn
  | [] => [t]
  | u :: us => if t.due < u.due then t :: u :: us else u :: insertTurn t us

def schedule (tl : Timeline) (due : Nat) (p : Party) : Timeline :=
  { tl with agenda := insertTurn ⟨due, p⟩ tl.agenda }

/-- Schedules a turn of tail ingestion of a cache for now, unless there is one to come or it
rests. -/
def wakeTail (tl : Timeline) (i : Nat) : Timeline :=
  if tl.resting.contains i || tl.agenda.any (fun t => t.party == .tail i) then tl
  else tl.schedule tl.now (.tail i)

/-- Those who rest get a turn now. -/
def rouse (tl : Timeline) : Timeline :=
  tl.resting.foldl (fun tl i => tl.schedule tl.now (.tail i)) { tl with resting := [] }

/-- Schedules a turn of tail ingestion of the cache that the journal delivers to, if any. -/
def wakeConsumer (tl : Timeline) (consumer : Option Nat) : Timeline :=
  match consumer with
  | some i => tl.wakeTail i
  | none => tl

def setStage (tl : Timeline) (k : Nat) (stage : Stage) : Timeline :=
  { tl with tasks := tl.tasks.modify k fun t => { t with stage } }

def finish (tl : Timeline) (k : Nat) (answer : Answer) : Timeline :=
  tl.setStage k (.ended tl.now answer)

def sleep (tl : Timeline) (k : Nat) (due : Nat) (stage : Stage) : Timeline :=
  (tl.setStage k stage).schedule due (.task k)

def right (tl : Timeline) (i : Nat) : FetchRight := ((tl.site.cache? i).map (·.right)).getD .free

/-- Changes the site by a step of cache `i`. If that passes the right to fetch to another query, the
query takes its turn now. -/
def stepCache {α : Type} (tl : Timeline) (i : Nat) (f : Cache → Outlet → Cache × Outlet × α) :
    Timeline × Option α :=
  let (site, a) := tl.site.stepCache i f
  let after := { tl with site }
  match (after.right i).holder with
  | some (.passedTo w) =>
    if (tl.right i).holder = some (.passedTo w) then (after, a)
    else (after.schedule tl.now (.task w.ticket), a)
  | _ => (after, a)

def overCache {α : Type} (tl : Timeline) (i : Nat) (f : Cache → Cache × α) :
    Timeline × Option α :=
  tl.stepCache i fun c o => let (c, a) := f c; (c, o, a)

end Timeline

end JournalCache

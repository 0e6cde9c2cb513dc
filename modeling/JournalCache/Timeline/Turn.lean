import JournalCache.Timeline.Publishing

/-!
# Turns

What happens in one turn: an event begins or goes on with what it waited for, and a query whose
caller has no patience left is given up; or tail ingestion of a cache handles its share of what was
delivered. Closing a cache gives a turn to its own tail ingestion, which is told to stop, and to
that of the consumer, which is delivered to no longer.
-/

namespace JournalCache

namespace Timeline

/-! ## Closing -/

/-- The first part of closing a cache. Tail ingestion of the cache, and of the one that the journal
delivered to, get a turn. -/
def beginClose (tl : Timeline) (i : Nat) : Timeline × Bool :=
  let consumer := tl.site.journal.journal.consumer
  let (site, waits) := tl.site.beginClose i
  let tl := { tl with site }.wakeTail i
  if site.journal.journal.consumer = consumer then (tl, waits)
  else (tl.wakeConsumer consumer, waits)

def endClose (tl : Timeline) (i : Nat) : Timeline := { tl with site := tl.site.endClose i }

/-! ## The turns of tasks and tails -/

def beginEvent (tl : Timeline) (k : Nat) (t : Task) : Timeline :=
  match t.event with
  | .query agent requested _ =>
    match tl.overCache t.cache fun c => c.ask ⟨k, requested⟩ with
    | (tl, some p) => tl.proceed k t.cache agent p
    | (tl, none) => tl
  | .publish r => tl.publish k r
  | .close =>
    match tl.beginClose t.cache with
    | (tl, true) => tl.setStage k .closing
    | (tl, false) => (tl.endClose t.cache).finish k .nothing
  | .failFetches on =>
    let tl := { tl with site := tl.site.overJournal ({ · with failsFetches := on }) }
    tl.finish k .nothing

/-- Sets the time at which the caller of a query that has begun gives it up. -/
def limitPatience (tl : Timeline) (k : Nat) (t : Task) : Timeline :=
  match t.event with
  | .query _ _ (some patience) =>
    let tl := { tl with
      tasks := tl.tasks.modify k fun t => { t with quitAt := some (tl.now + patience) } }
    tl.schedule (tl.now + patience) (.task k)
  | _ => tl

/-- An event goes on with what it waited for, if that is there. -/
def advance (tl : Timeline) (k : Nat) (t : Task) : Timeline :=
  let agent := match t.event with
    | .query agent _ _ => agent
    | _ => ""
  match t.stage with
  | .asleep wakeAt =>
    if tl.now < wakeAt then tl.schedule wakeAt (.task k)
    else (tl.beginEvent k t).limitPatience k t
  | .waiting limit => tl.turnWaiting k t.cache agent limit
  | .prepared readyAt reply first upTo =>
    if tl.now < readyAt then tl else tl.afterPrepared k t.cache agent reply first upTo
  | .fetching readyAt first upTo =>
    if tl.now < readyAt then tl
    else tl.conclude k t.cache agent (tl.site.journal.journal.answer first upTo)
  | .sending consumer record isAdmitted => tl.turnSending k consumer record isAdmitted
  | .closing =>
    if (tl.site.cache? t.cache).any (·.isFollowing) then tl
    else (tl.endClose t.cache).finish k .nothing
  | .ended .. => tl

/-- A query whose caller's patience is over is given up, unless it has ended. -/
def quit (tl : Timeline) (k : Nat) : Timeline :=
  match tl.tasks[k]? with
  | some { stage := .ended .., .. } => tl
  | some { quitAt := some time, cache := i, .. } =>
    if time ≤ tl.now then
      ((tl.overCache i fun c => (c.withdraw k, ())).1).finish k .givenUp
    else tl
  | _ => tl

def turnTask (tl : Timeline) (k : Nat) : Timeline :=
  match tl.tasks[k]? with
  | some t => (tl.advance k t).quit k
  | none => tl

/-- The tasks that wait for tail ingestion of a cache to end. -/
def closers (tl : Timeline) (i : Nat) : List Nat :=
  (List.range tl.tasks.length).filter fun k =>
    match tl.tasks[k]? with
    | some { stage := .closing, cache := j, .. } => i == j
    | _ => false

/-- Tail ingestion of a cache has its turn. It makes room in the inbox, and rests if it handled a
full share. If it ends, those who waited to publish get a turn, and those who waited for its end. -/
def turnTail (tl : Timeline) (i : Nat) : Timeline :=
  let rests := (tl.site.cache? i).any (·.hasFullShare)
  let tl := { tl with site := tl.site.turnTail i }
  if (tl.site.cache? i).any (·.isFollowing) then
    let tl := tl.giveRoom i
    if rests then { tl with resting := tl.resting ++ [i] } else tl
  else
    let tl := tl.call (tl.waitingFor i)
    (tl.closers i).foldl (fun tl k => tl.schedule tl.now (.task k)) tl

def turn (tl : Timeline) : Party → Timeline
  | .task k => tl.turnTask k
  | .tail i => tl.turnTail i

end Timeline

end JournalCache

import JournalCache.Timeline.Query

/-!
# Publications

A record that is published is stored and then delivered to the inbox of the consumer, whose tail
ingestion gets a turn. An inbox has room for so many records. A publication that finds none waits in
a line; as tail ingestion makes room, those who wait longest are admitted, and each delivers its
record in its next turn. When tail ingestion ends, nobody accepts what was not delivered.
-/

namespace JournalCache

namespace Timeline

/-- Whether a task was admitted to the inbox of cache `i` and has not delivered its record yet. -/
def isAdmitted (i : Nat) (t : Task) : Bool :=
  match t.stage with
  | .sending j _ admitted => i == j && admitted
  | _ => false

/-- The room in the inbox of cache `i` that nobody was admitted to. -/
def room (tl : Timeline) (i : Nat) : Nat :=
  Cache.capacity - ((tl.site.cache? i).map (·.inbox.length)).getD 0
    - (tl.tasks.filter (isAdmitted i)).length

/-- A record is delivered to cache `i`; its tail ingestion gets a turn. -/
def deliver (tl : Timeline) (i : Nat) (r : Delivery) : Timeline :=
  { tl with site := tl.site.deliver i r }.wakeTail i

/-- A task publishes a record: it is delivered at once if there is room, and else has to wait. -/
def publish (tl : Timeline) (k : Nat) (r : Delivery) : Timeline :=
  let tl := { tl with site := tl.site.overJournal (·.keep r) }
  match tl.site.journal.journal.consumer with
  | none => tl.finish k (.accepted false)
  | some i =>
    if 0 < tl.room i then (tl.deliver i r).finish k (.accepted true)
    else { tl.setStage k (.sending i r false) with line := tl.line ++ [k] }

/-- A publication that waited for room has its turn. -/
def turnSending (tl : Timeline) (k i : Nat) (r : Delivery) (isAdmitted : Bool) : Timeline :=
  if !(tl.site.cache? i).any (·.isFollowing) then tl.finish k (.accepted false)
  else if isAdmitted then (tl.deliver i r).finish k (.accepted true)
  else tl

/-- The tasks that wait for room in the inbox of cache `i`, longest first. -/
def waitingFor (tl : Timeline) (i : Nat) : List Nat :=
  tl.line.filter fun k =>
    match tl.tasks[k]? with
    | some { stage := .sending j .., .. } => i == j
    | _ => false

/-- Calls tasks out of the line: each gets a turn now. -/
def call (tl : Timeline) (ks : List Nat) : Timeline :=
  ks.foldl (fun tl k => tl.schedule tl.now (.task k))
    { tl with line := tl.line.filter fun k => !ks.contains k }

/-- Lets a task into the inbox that it waits for. -/
def letIn (tl : Timeline) (k : Nat) : Timeline :=
  match tl.tasks[k]? with
  | some { stage := .sending i r _, .. } => tl.setStage k (.sending i r true)
  | _ => tl

/-- Lets as many tasks into the inbox of cache `i` as there is room for. -/
def giveRoom (tl : Timeline) (i : Nat) : Timeline :=
  let ks := (tl.waitingFor i).take (tl.room i)
  (ks.foldl letIn tl).call ks

end Timeline

end JournalCache

import JournalCache.Cache.Closing
import JournalCache.Cache.Query

/-!
# Courses of events

A course of events is what a cache goes through while its queries, the journal, tail ingestion and
closing take their steps in whatever order. Each move is one step of one party, by the functions
that the cache itself runs, from one place where the party waits to the next one. What is done
without waiting is one indivisible step: nobody comes in between while a batch is merged, while tail
ingestion looks whether it was told to stop and handles a record, while the registrations are
released, or while a view of a cache is taken. The parties take turns only where they wait: for the
right to fetch, for the journal, for a record, or for tail ingestion to end. There nothing restricts
which party is next, how long a query waits before its limit is over, what the journal delivers and
what it replies. So what holds in every reachable course holds however the parties take turns and
however long a fetch takes, on a timeline too (`Timeline.run_courses`).

Beside the cache a course keeps what the others see of it: the queries that have not returned, the
calls that the journal received, and, in the order of time, what came to an end.
-/

namespace JournalCache

structure Query where
  /-- Tells the query from the others under way. -/
  ticket : Nat
  agent : String
  requested : Offset
  deriving DecidableEq, Repr

def Query.waiter (q : Query) : Waiter := ⟨q.ticket, q.requested⟩

abbrev FetchReply := Except Fault (List Message)

inductive CallState where
  | outstanding
  | answered (reply : FetchReply)
  /-- The query that made the call was given up. -/
  | abandoned

structure Call where
  fetch : Fetch
  state : CallState

namespace Call

def awaits (k : Call) (ticket : Nat) : Bool :=
  match k.state with
  | .outstanding => k.fetch.ticket == ticket
  | _ => false

/-- The call after the one of a query has ended. -/
def close (ticket : Nat) (state : CallState) (k : Call) : Call :=
  if k.awaits ticket then { k with state } else k

def isOutstanding (k : Call) : Bool := k.awaits k.fetch.ticket

def isSuccess (k : Call) : Bool :=
  match k.state with
  | .answered (.ok _) => true
  | _ => false

end Call

inductive Deed where
  /-- A query returned. The reply of the journal to its call is absent if it made none. -/
  | returned (query : Query) (reply : Option FetchReply) (result : Except Fault (Queue Item))
  /-- Tail ingestion handled a record. -/
  | handled (record : Delivery)
  /-- The registrations of the queues were released. -/
  | released

/-- A cache among those who use it. -/
structure Course where
  cache : Cache
  outlet : Outlet
  /-- The queries that have not returned, longest under way first. -/
  pending : List Query
  /-- The calls that the journal received, in order. -/
  calls : List Call
  /-- What came to an end, in order. -/
  deeds : List Deed

inductive Move where
  /-- A query begins. -/
  | ask (query : Query)
  /-- A query to which the right to fetch has passed goes on. -/
  | resume (ticket : Nat)
  /-- The limit of a query that waits is over. -/
  | expire (ticket : Nat)
  /-- A query is given up by its caller. -/
  | withdraw (ticket : Nat)
  /-- The journal answers the call of a query. -/
  | answer (ticket : Nat) (reply : FetchReply)
  /-- The journal delivers a record. -/
  | deliver (record : Delivery)
  /-- Tail ingestion handles the oldest record that was delivered. -/
  | handle
  /-- Tail ingestion is told to stop. -/
  | shutDown
  /-- Tail ingestion ends. -/
  | stop
  /-- The registrations of the queues are released. -/
  | release

namespace Course

/-- A cache that has met no record, and nobody uses it. -/
def start (number : Nat) (settings : Settings) (registry : Registry) : Course :=
  { cache := .start number settings, outlet := ⟨registry, []⟩, pending := [], calls := []
    deeds := [] }

def lowest? (c : Course) : Option Offset := c.cache.lowest?

def handled (c : Course) : List Delivery :=
  c.deeds.filterMap fun
    | .handled r => some r
    | _ => none

/-- A query returns with what the cache then has for it. -/
def finish (c : Course) (ticket : Nat) (reply : Option FetchReply) (outcome : Except Fault Unit) :
    Course :=
  { c with
    pending := c.pending.filter fun q => q.ticket != ticket
    deeds := c.deeds ++ (c.pending.filter fun q => q.ticket == ticket).map fun q =>
      .returned q reply (outcome.map fun _ => c.cache.queue q.agent) }

/-- What the others see of a step of a query. -/
def proceed (c : Course) (ticket : Nat) (reply : Option FetchReply) : Progress → Course
  | .waiting => c
  | .fetching first upTo => { c with calls := c.calls ++ [⟨⟨ticket, first, upTo⟩, .outstanding⟩] }
  | .ended outcome => c.finish ticket reply outcome

/-- The course after a move. A move of a party that has nothing to do changes nothing. -/
def move (c : Course) : Move → Course
  | .ask q =>
    let (cache, p) := c.cache.ask q.waiter
    { c with cache, pending := c.pending ++ [q] }.proceed q.ticket none p
  | .resume ticket =>
    if c.cache.right.isHolder ticket then
      let (cache, p) := c.cache.resume
      { c with cache }.proceed ticket none p
    else c
  | .expire ticket =>
    let (cache, p) := c.cache.expire ticket
    { c with cache }.proceed ticket none p
  | .withdraw ticket =>
    { c with
      cache := c.cache.withdraw ticket
      pending := c.pending.filter fun q => q.ticket != ticket
      calls := c.calls.map (Call.close ticket .abandoned) }
  | .answer ticket reply =>
    if c.calls.any fun k => k.awaits ticket then
      let (cache, outlet, p) := c.cache.answer c.outlet reply
      { c with cache, outlet, calls := c.calls.map (Call.close ticket (.answered reply)) }.proceed
        ticket (some reply) p
    else c
  | .deliver r => { c with cache := c.cache.deliver r }
  | .handle =>
    match c.cache.inbox with
    | [] => c
    | r :: _ =>
      if c.cache.isFollowing && !c.cache.isShutDown then
        let (cache, outlet) := c.cache.handleNext c.outlet
        { c with cache, outlet, deeds := c.deeds ++ [.handled r] }
      else c
  | .shutDown => { c with cache := c.cache.shutDown }
  | .stop => { c with cache := c.cache.stop }
  | .release =>
    let (cache, outlet) := c.cache.releaseQueues c.outlet
    { c with cache, outlet, deeds := c.deeds ++ [.released] }

/-- Whether a move can be made: no two queries under way share a ticket. -/
def Allows (c : Course) : Move → Prop
  | .ask q => ∀ p ∈ c.pending, p.ticket ≠ q.ticket
  | _ => True

instance (c : Course) : (m : Move) → Decidable (c.Allows m)
  | .ask q => inferInstanceAs (Decidable (∀ p ∈ c.pending, p.ticket ≠ q.ticket))
  | .resume _ | .expire _ | .withdraw _ | .answer .. | .deliver _ | .handle | .shutDown | .stop
  | .release => .isTrue trivial

def run (c : Course) (ms : List Move) : Course := ms.foldl move c

def AllowsAll (c : Course) : List Move → Prop
  | [] => True
  | m :: ms => c.Allows m ∧ (c.move m).AllowsAll ms

instance decidableAllowsAll : (c : Course) → (ms : List Move) → Decidable (c.AllowsAll ms)
  | _, [] => .isTrue trivial
  | c, m :: ms =>
    have := decidableAllowsAll (c.move m) ms
    inferInstanceAs (Decidable (c.Allows m ∧ (c.move m).AllowsAll ms))

inductive Reachable (number : Nat) (settings : Settings) (registry : Registry) : Course → Prop where
  | start : Reachable number settings registry (start number settings registry)
  | move {c : Course} (hc : Reachable number settings registry c) {m : Move} (hm : c.Allows m) :
      Reachable number settings registry (c.move m)

theorem run_append (c : Course) (ms ns : List Move) : c.run (ms ++ ns) = (c.run ms).run ns :=
  List.foldl_append

theorem allowsAll_append {c : Course} {ms ns : List Move} :
    c.AllowsAll (ms ++ ns) ↔ c.AllowsAll ms ∧ (c.run ms).AllowsAll ns := by
  induction ms generalizing c with
  | nil => simp [AllowsAll, run]
  | cons m ms ih => rw [List.cons_append, AllowsAll, AllowsAll, ih, and_assoc]; rfl

theorem Reachable.run {number : Nat} {settings : Settings} {registry : Registry} {c : Course}
    (hc : Reachable number settings registry c) {ms : List Move} (hms : c.AllowsAll ms) :
    Reachable number settings registry (c.run ms) := by
  induction ms generalizing c with
  | nil => exact hc
  | cons m ms ih => exact ih (hc.move hms.1) hms.2

end Course

end JournalCache

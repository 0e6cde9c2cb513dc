import JournalCache.Proofs.Lifetime.Ordered
import JournalCache.Proofs.Timeline.Courses

/-!
# Several caches over one journal

A fleet is a site whose caches are started one after another, follow the journal's tail, answer
queries, are closed and dropped, in any order, while records are published and the journal and the
registry are told to fail or not to. Every move is made by the functions of the site that a timeline
runs. Beside the site a fleet keeps the course that each cache goes through (`Fleet.Manned`), so
what a cache handled can be read off its course.

A publication that finds no room in the inbox waits, also while the journal turns to another cache;
what it has stored it delivers later, to the cache that it waited for.
-/

namespace JournalCache

inductive Service where
  | fetches
  | subscriptions
  | closes
  | registrations
  | releases

namespace Site

def query (s : Site) (i : Nat) : Move → Site
  | .ask q => (s.overCache i fun c => c.ask q.waiter).1
  | .resume _ => (s.overCache i Cache.resume).1
  | .expire ticket => (s.overCache i fun c => c.expire ticket).1
  | .withdraw ticket => (s.overCache i fun c => (c.withdraw ticket, ())).1
  | .answer _ reply => (s.stepCache i fun c o => c.answer o reply).1
  | .deliver _ | .handle | .shutDown | .stop | .release => s

/-- The journal or the registry is told to fail a service, or not to. -/
def tell (s : Site) (on : Bool) : Service → Site
  | .fetches => s.overJournal ({ · with failsFetches := on })
  | .subscriptions => s.overJournal ({ · with failsSubscriptions := on })
  | .closes => s.overJournal ({ · with failsCloses := on })
  | .registrations => { s with registry := { s.registry with refusesQueues := on } }
  | .releases => { s with registry := { s.registry with failsReleases := on } }

/-- The moves that the turn of tail ingestion of cache `i` makes of its course. -/
def tailMoves (s : Site) (i : Nat) : List Move :=
  match s.cache? i with
  | none => []
  | some c =>
    if !c.isFollowing then []
    else if c.isShutDown then [.stop]
    else
      ((c.inbox.take Cache.share).map fun _ => .handle) ++
        if c.hasFullShare || s.journal.journal.consumer = some i then [] else [.stop]

end Site

inductive FleetMove where
  /-- A cache is started, unless its settings are invalid or the journal refuses. -/
  | start (settings : Settings) (isQuiet : Bool)
  | publish (r : Delivery)
  /-- A publication that waited for room reaches the inbox of the cache. -/
  | deliver (cache : Nat) (r : Delivery)
  /-- Messages are stored and not delivered. -/
  | store (ms : List Message)
  /-- A query of the cache takes a step. -/
  | query (cache : Nat) (m : Move)
  /-- Tail ingestion of the cache has its turn. -/
  | turnTail (cache : Nat)
  | beginClose (cache : Nat)
  | endClose (cache : Nat)
  | drop (cache : Nat)
  | tell (service : Service) (on : Bool)

namespace FleetMove

/-- The cache that is closed or dropped. -/
def ended? : FleetMove → Option Nat
  | .beginClose i | .drop i => some i
  | _ => none

def ends (i : Nat) (m : FleetMove) : Bool := m.ended? == some i

def isTurnOf (i : Nat) : FleetMove → Bool
  | .turnTail j => j == i
  | _ => false

/-- The record that reaches the inbox of cache `i` if the journal delivers to it. -/
def arrival? (i : Nat) : FleetMove → Option Delivery
  | .publish r => some r
  | .deliver j r => if j = i then some r else none
  | _ => none

end FleetMove

structure Fleet where
  site : Site
  courses : Nat → Course

namespace Fleet

def empty : Fleet := ⟨.ofJournal .empty, fun i => .start i .standard .empty⟩

def count (f : Fleet) : Nat := f.site.members.length

def consumer (f : Fleet) : Option Nat := f.site.journal.journal.consumer

/-- The site changes, and cache `i` makes moves of its course. -/
def advance (f : Fleet) (i : Nat) (site : Site) (ms : List Move) : Fleet :=
  { site, courses := Function.update f.courses i ((f.courses i).run ms) }

/-- The courses after something is told. What the registry refuses, it refuses to every cache that
reports to it. -/
def toldCourses (f : Fleet) (on : Bool) : Service → Nat → Course
  | .registrations, i =>
    let c := f.courses i
    if f.site.members[i]?.any (·.isQuiet) then c
    else { c with outlet := { c.outlet with
      registry := { c.outlet.registry with refusesQueues := on } } }
  | _, i => f.courses i

def move (f : Fleet) : FleetMove → Fleet
  | .start settings isQuiet =>
    match f.site.start settings isQuiet with
    | .ok site =>
      { site
        courses := Function.update f.courses f.count
          (.start f.count settings (if isQuiet then .empty else f.site.registry)) }
    | .error _ => f
  | .publish r =>
    match f.site.publish r with
    | (site, some i) => f.advance i site [.deliver r]
    | (site, none) => { f with site }
  | .deliver i r => f.advance i (f.site.deliver i r) [.deliver r]
  | .store ms => { f with site := f.site.overJournal (·.store ms) }
  | .query i m => f.advance i (f.site.query i m) [m]
  | .turnTail i => f.advance i (f.site.turnTail i) (f.site.tailMoves i)
  | .beginClose i => f.advance i (f.site.beginClose i).1 [.shutDown]
  | .endClose i => f.advance i (f.site.endClose i) [.release]
  | .drop i => f.advance i (f.site.drop i) [.shutDown, .stop, .release]
  | .tell service on => ⟨f.site.tell on service, f.toldCourses on service⟩

/-- Whether a query can take the step: one goes on when the right to fetch has passed to it, and is
answered when it has made a call. -/
def AllowsQuery (c : Course) : Move → Prop
  | .ask q => c.Allows (.ask q)
  | .resume ticket => c.cache.right.isHolder ticket
  | .answer ticket _ => c.calls.any fun k => k.awaits ticket
  | .expire _ | .withdraw _ => True
  | .deliver _ | .handle | .shutDown | .stop | .release => False

/-- Whether a move can be made. What is done with a cache is done with one that was started. -/
def Allows (f : Fleet) : FleetMove → Prop
  | .start .. | .publish _ | .store _ | .tell .. => True
  | .deliver i _ => i < f.count ∧ (f.courses i).cache.isFollowing
  | .query i m => i < f.count ∧ AllowsQuery (f.courses i) m
  | .turnTail i | .beginClose i | .endClose i | .drop i => i < f.count

instance (c : Course) : (m : Move) → Decidable (AllowsQuery c m)
  | .ask q => inferInstanceAs (Decidable (c.Allows (.ask q)))
  | .resume ticket => inferInstanceAs (Decidable (c.cache.right.isHolder ticket = true))
  | .answer ticket _ =>
    inferInstanceAs (Decidable ((c.calls.any fun k => k.awaits ticket) = true))
  | .expire _ | .withdraw _ => .isTrue trivial
  | .deliver _ | .handle | .shutDown | .stop | .release => .isFalse nofun

instance (f : Fleet) : (m : FleetMove) → Decidable (f.Allows m)
  | .start .. | .publish _ | .store _ | .tell .. => .isTrue trivial
  | .deliver i _ =>
    inferInstanceAs (Decidable (i < f.count ∧ (f.courses i).cache.isFollowing = true))
  | .query i m => inferInstanceAs (Decidable (i < f.count ∧ AllowsQuery (f.courses i) m))
  | .turnTail i | .beginClose i | .endClose i | .drop i =>
    inferInstanceAs (Decidable (i < f.count))

def run (f : Fleet) (ms : List FleetMove) : Fleet := ms.foldl move f

def AllowsAll (f : Fleet) : List FleetMove → Prop
  | [] => True
  | m :: ms => f.Allows m ∧ (f.move m).AllowsAll ms

instance decidableAllowsAll : (f : Fleet) → (ms : List FleetMove) → Decidable (f.AllowsAll ms)
  | _, [] => .isTrue trivial
  | f, m :: ms =>
    have := decidableAllowsAll (f.move m) ms
    inferInstanceAs (Decidable (f.Allows m ∧ (f.move m).AllowsAll ms))

variable {f : Fleet} {ms ns : List FleetMove} {m : FleetMove}

theorem run_append (f : Fleet) (ms ns : List FleetMove) : f.run (ms ++ ns) = (f.run ms).run ns :=
  List.foldl_append

theorem run_concat (f : Fleet) (ms : List FleetMove) (m : FleetMove) :
    f.run (ms ++ [m]) = (f.run ms).move m := f.run_append ms [m]

theorem allowsAll_append : f.AllowsAll (ms ++ ns) ↔ f.AllowsAll ms ∧ (f.run ms).AllowsAll ns := by
  induction ms generalizing f with
  | nil => simp [AllowsAll, run]
  | cons m ms ih => rw [List.cons_append, AllowsAll, AllowsAll, ih, and_assoc]; rfl

theorem allowsAll_concat :
    f.AllowsAll (ms ++ [m]) ↔ f.AllowsAll ms ∧ (f.run ms).Allows m := by
  rw [allowsAll_append, AllowsAll, AllowsAll, and_true]

end Fleet

end JournalCache

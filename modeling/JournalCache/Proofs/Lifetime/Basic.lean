import JournalCache.Journal.Basic
import JournalCache.Proofs.Course.Basic

/-!
# The life of a cache

A cache that alone uses its journal and its registry, from its start on: its queries and tail
ingestion make the moves of its course, records are delivered to it, it is closed any number of
times, also while a closing still waits, and in the end it may be dropped. The journal may fail to
end the subscription, and the registry to make or release registrations, at any time.

A closing tells tail ingestion to stop and ends the subscription unless that was done; then it waits
until tail ingestion has ended, which it does once it sees what it was told, or because it is waited
for no longer; then the registrations are released. Only the closing that ended the subscription
waits.
-/

namespace JournalCache

/-- Whether the step is that of a query, or of tail ingestion that handles a record. -/
def Move.isWork : Move → Bool
  | .deliver _ | .shutDown | .stop | .release => false
  | _ => true

structure Lifetime where
  journal : Journal
  course : Course
  /-- The records that were delivered, in order. -/
  delivered : List Delivery
  /-- The number of closings that wait for tail ingestion to end. -/
  closing : Nat
  /-- The number of closings that are done. -/
  closed : Nat
  isDropped : Bool

inductive LifeMove where
  /-- A query or tail ingestion takes a step. -/
  | take (m : Move)
  | deliver (r : Delivery)
  /-- Tail ingestion ends. -/
  | stop
  /-- A closing begins. -/
  | beginClose
  /-- A closing that waited is done. -/
  | endClose
  | drop
  | failCloses (on : Bool)
  | failReleases (on : Bool)
  | refuseQueues (on : Bool)

/-- Whether the move belongs to a closing, or is the drop. -/
def LifeMove.isClosing : LifeMove → Bool
  | .stop | .beginClose | .endClose | .drop => true
  | _ => false

namespace Lifetime

/-- A cache that has just subscribed to a journal. -/
def start (j : Journal) (number : Nat) (settings : Settings) : Lifetime :=
  { journal := { j with consumer := some number }
    course := .start number settings .empty
    delivered := []
    closing := 0
    closed := 0
    isDropped := false }

def table (l : Lifetime) : AgentTable := l.course.cache.holdings.table

def registry (l : Lifetime) : Registry := l.course.outlet.registry

def isShutDown (l : Lifetime) : Bool := l.course.cache.isShutDown

/-- Tail ingestion is told to stop, and the subscription is ended unless that was done. -/
def shutDown (l : Lifetime) : Lifetime :=
  { l with
    course := l.course.move .shutDown
    journal := if l.course.cache.isSubscribed then l.journal.unsubscribe.1 else l.journal }

/-- Whether a closing that begins has to wait. -/
def waits (l : Lifetime) : Bool := l.course.cache.isSubscribed && l.course.cache.isFollowing

def release (l : Lifetime) : Lifetime := { l with course := l.course.move .release }

def overRegistry (l : Lifetime) (f : Registry → Registry) : Lifetime :=
  { l with course := { l.course with outlet := { l.course.outlet with registry := f l.registry } } }

def move (l : Lifetime) : LifeMove → Lifetime
  | .take m => { l with course := l.course.move m }
  | .deliver r =>
    { l with course := l.course.move (.deliver r), delivered := l.delivered ++ [r] }
  | .stop => { l with course := l.course.move .stop }
  | .beginClose =>
    if l.waits then { l.shutDown with closing := l.closing + 1 }
    else { l.shutDown.release with closed := l.closed + 1 }
  | .endClose => { l.release with closing := l.closing - 1, closed := l.closed + 1 }
  | .drop => { { l.shutDown with course := l.shutDown.course.move .stop }.release with
      isDropped := true }
  | .failCloses on => { l with journal := { l.journal with failsCloses := on } }
  | .failReleases on => l.overRegistry ({ · with failsReleases := on })
  | .refuseQueues on => l.overRegistry ({ · with refusesQueues := on })

/-- Whether a move can be made. What is delivered, and what closes, is not left to the course. Tail
ingestion takes records until it ends, and it ends when it was told to stop. -/
def Allows (l : Lifetime) : LifeMove → Prop
  | .take m => m.isWork ∧ l.course.Allows m
  | .deliver _ => l.course.cache.isFollowing
  | .stop => l.isShutDown
  | .endClose => 0 < l.closing ∧ l.course.cache.isFollowing = false
  | _ => True

def run (l : Lifetime) (ms : List LifeMove) : Lifetime := ms.foldl move l

def AllowsAll (l : Lifetime) : List LifeMove → Prop
  | [] => True
  | m :: ms => l.Allows m ∧ (l.move m).AllowsAll ms

instance (l : Lifetime) : (m : LifeMove) → Decidable (l.Allows m)
  | .take m => inferInstanceAs (Decidable (m.isWork ∧ l.course.Allows m))
  | .deliver _ => inferInstanceAs (Decidable (l.course.cache.isFollowing = true))
  | .stop => inferInstanceAs (Decidable (l.isShutDown = true))
  | .endClose =>
    inferInstanceAs (Decidable (0 < l.closing ∧ l.course.cache.isFollowing = false))
  | .beginClose | .drop | .failCloses _ | .failReleases _ | .refuseQueues _ => .isTrue trivial

instance decidableAllowsAll : (l : Lifetime) → (ms : List LifeMove) → Decidable (l.AllowsAll ms)
  | _, [] => .isTrue trivial
  | l, m :: ms =>
    have := decidableAllowsAll (l.move m) ms
    inferInstanceAs (Decidable (l.Allows m ∧ (l.move m).AllowsAll ms))

inductive Reachable (j : Journal) (number : Nat) (settings : Settings) : Lifetime → Prop where
  | start : Reachable j number settings (start j number settings)
  | move {l : Lifetime} (hl : Reachable j number settings l) {m : LifeMove} (hm : l.Allows m) :
      Reachable j number settings (l.move m)

theorem Reachable.run {j : Journal} {number : Nat} {settings : Settings} {l : Lifetime}
    (hl : Reachable j number settings l) {ms : List LifeMove} (hms : l.AllowsAll ms) :
    Reachable j number settings (l.run ms) := by
  induction ms generalizing l with
  | nil => exact hl
  | cons m ms ih => exact ih (hl.move hms.1) hms.2

end Lifetime

end JournalCache

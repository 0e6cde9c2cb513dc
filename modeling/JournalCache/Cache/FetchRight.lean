import JournalCache.Offset

/-!
# The right to fetch

A fetch from the journal is costly, so at most one query of a cache fetches at a time. The right to
do so is free, or held; the queries that want it meanwhile wait in the order of their arrival. A
right that is given up passes straight to the query that waited longest, and is held for it until it
looks whether it still has to fetch.
-/

namespace JournalCache

structure Waiter where
  /-- Tells the query from others. -/
  ticket : Nat
  /-- The offset from which on the query needs the journal covered. -/
  requested : Offset
  deriving DecidableEq, Repr

/-- A fetch under way, for the range from `first` up to, not with, `upTo`. -/
structure Fetch where
  ticket : Nat
  first : Offset
  upTo : Offset
  deriving DecidableEq, Repr

inductive Holder where
  /-- The right passed to a query that has not looked yet. -/
  | passedTo (waiter : Waiter)
  | fetching (fetch : Fetch)
  deriving DecidableEq, Repr

def Holder.ticket : Holder → Nat
  | .passedTo w => w.ticket
  | .fetching f => f.ticket

/-- The right to fetch: its holder, and the queries that wait for it, longest first. -/
structure FetchRight where
  holder : Option Holder
  waiting : List Waiter
  deriving DecidableEq, Repr

namespace FetchRight

def free : FetchRight := ⟨none, []⟩

instance : Inhabited FetchRight := ⟨free⟩

/-- The right after its holder gave it up. -/
def passOn (r : FetchRight) : FetchRight :=
  match r.waiting with
  | [] => free
  | w :: ws => ⟨some (.passedTo w), ws⟩

def isWaiting (r : FetchRight) (ticket : Nat) : Bool := r.waiting.any fun w => w.ticket == ticket

def isHolder (r : FetchRight) (ticket : Nat) : Bool :=
  match r.holder with
  | some h => h.ticket == ticket
  | none => false

/-- The right after a query went away: it waits no longer, and what it held passes on. -/
def withdraw (r : FetchRight) (ticket : Nat) : FetchRight :=
  if r.isHolder ticket then r.passOn
  else { r with waiting := r.waiting.filter fun w => w.ticket != ticket }

end FetchRight

end JournalCache

import JournalCache.Cache.Basic

/-!
# Queries of a cache

A query that needs older records than are covered fetches them. It takes the right to fetch or waits
for it, and once it has the right it looks again, since the query before it may have fetched enough.
The messages it fetched are merged before its range counts as covered. A query that fails, is given
up or has waited too long leaves what the cache holds as it is, and keeps the right from nobody.
-/

namespace JournalCache

/-- How a query stands after one of its steps. -/
inductive Progress where
  /-- It waits for the right to fetch. -/
  | waiting
  /-- It has asked the journal for the range from `first` up to, not with, `upTo`. -/
  | fetching (first upTo : Offset)
  /-- It has ended. -/
  | ended (outcome : Except Fault Unit)

namespace Cache

def passOn (c : Cache) : Cache := { c with right := c.right.passOn }

/-- A query that has just got the right looks whether it has to fetch. -/
def look (c : Cache) (w : Waiter) : Cache × Progress :=
  match c.lowest? with
  | some low =>
    if w.requested < low then
      ({ c with
          activity := { c.activity with fetches := c.activity.fetches + 1 }
          right := { c.right with holder := some (.fetching ⟨w.ticket, w.requested, low⟩) } },
        .fetching w.requested low)
    else ({ c with activity := { c.activity with skipped := c.activity.skipped + 1 } }.passOn,
      .ended (.ok ()))
  | none => ({ c with activity := { c.activity with skipped := c.activity.skipped + 1 } }.passOn,
      .ended (.ok ()))

/-- A query begins: it fails if the cache has met no record, ends if its offset is covered, and else
takes the right to fetch or waits for it. -/
def ask (c : Cache) (w : Waiter) : Cache × Progress :=
  match c.lowest? with
  | none => (c, .ended (.error .notReady))
  | some low =>
    if low ≤ w.requested then (c, .ended (.ok ()))
    else
      match c.right.holder with
      | none => c.look w
      | some _ => ({ c with right := { c.right with waiting := c.right.waiting ++ [w] } }, .waiting)

/-- The query to which the right has passed goes on. -/
def resume (c : Cache) : Cache × Progress :=
  match c.right.holder with
  | some (.passedTo w) => c.look w
  | _ => (c, .waiting)

/-- A query that waits has waited too long. -/
def expire (c : Cache) (ticket : Nat) : Cache × Progress :=
  if c.right.isWaiting ticket then
    ({ c with
        activity := { c.activity with timeouts := c.activity.timeouts + 1 }
        right := c.right.withdraw ticket },
      .ended (.error (.timedOut c.settings.fetchWait.milliseconds)))
  else (c, .waiting)

/-- A query is given up by its caller, wherever it stands. -/
def withdraw (c : Cache) (ticket : Nat) : Cache := { c with right := c.right.withdraw ticket }

/-- The journal answers the fetch under way: the messages are merged, the lowest mark is lowered to
the start of the range, and the right passes on. A failure ends the query and changes nothing. -/
def answer (c : Cache) (o : Outlet) (reply : Except Fault (List Message)) :
    Cache × Outlet × Progress :=
  match c.right.holder with
  | some (.fetching f) =>
    match reply with
    | .ok batch =>
      let (h, o) := c.holdings.merge o batch
      let h := { h with coverage := h.coverage.lower f.first }
      ({ c with holdings := h }.passOn, o, .ended (.ok ()))
    | .error e => (c.passOn, o, .ended (.error e))
  | _ => (c, o, .waiting)

end Cache

end JournalCache

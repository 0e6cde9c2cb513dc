import JournalCache.Timeline.Basic

/-!
# How a query goes on

A query asks the cache, waits for the right to fetch if another query holds it, then fetches: first
from the prepared answers, then from the journal itself. A part of the fetch that takes no time is
not waited for.
-/

namespace JournalCache

namespace Timeline

def finishQuery (tl : Timeline) (k i : Nat) (agent : String) (outcome : Except Fault Unit) :
    Timeline :=
  match outcome with
  | .ok _ => tl.finish k (.queue (((tl.site.cache? i).map (·.queue agent)).getD .empty))
  | .error e => tl.finish k (.failed e)

def conclude (tl : Timeline) (k i : Nat) (agent : String)
    (reply : Except Fault (List Message)) : Timeline :=
  match tl.stepCache i fun c o => c.answer o reply with
  | (tl, some (.ended outcome)) => tl.finishQuery k i agent outcome
  | (tl, _) => tl

/-- The prepared part of a fetch is over: if it left the reply open, the journal is asked. -/
def afterPrepared (tl : Timeline) (k i : Nat) (agent : String)
    (reply : Option (Except Fault (List Message))) (first upTo : Offset) : Timeline :=
  match reply with
  | some reply => tl.conclude k i agent reply
  | none =>
    let tl := { tl with site := tl.site.overJournal (·.beginFetch first upTo) }
    let j := tl.site.journal.journal
    let wait := Journal.waitOf j.delay
    if wait = 0 then tl.conclude k i agent (j.answer first upTo)
    else tl.sleep k (tl.now + wait) (.fetching (tl.now + wait) first upTo)

/-- A query goes on to where one of its steps has brought it. -/
def proceed (tl : Timeline) (k i : Nat) (agent : String) : Progress → Timeline
  | .waiting =>
    let wait := ((tl.site.cache? i).map (·.settings.fetchWait.ticks)).getD 0
    tl.sleep k (tl.now + wait) (.waiting (tl.now + wait))
  | .fetching first upTo =>
    let (journal, a) := tl.site.journal.ask first upTo
    let tl := { tl with site := { tl.site with journal } }
    let wait := Journal.waitOf a.delay
    if wait = 0 then tl.afterPrepared k i agent a.reply first upTo
    else tl.sleep k (tl.now + wait) (.prepared (tl.now + wait) a.reply first upTo)
  | .ended outcome => tl.finishQuery k i agent outcome

/-- A query that waits for the right to fetch has its turn. -/
def turnWaiting (tl : Timeline) (k i : Nat) (agent : String) (limit : Nat) : Timeline :=
  if (tl.right i).isHolder k then
    match tl.overCache i Cache.resume with
    | (tl, some p) => tl.proceed k i agent p
    | (tl, none) => tl
  else if limit ≤ tl.now then
    match tl.overCache i fun c => c.expire k with
    | (tl, some (.ended outcome)) => tl.finishQuery k i agent outcome
    | (tl, _) => tl
  else tl

end Timeline

end JournalCache

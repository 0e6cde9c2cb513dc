import JournalCache.Proofs.Course.Sound
import JournalCache.Proofs.Holdings.Marks

/-!
# What a move can do

`Course.Step` lists all that one move can do to a course in order, each with the situation in which
it happens; `step_move` says that nothing else happens. Every step keeps a course in order, so every
reachable course is (`Reachable.sound`), and whatever every step keeps holds in every reachable
course.
-/

namespace JournalCache

namespace Cache

/-! ## The steps of a query, case by case -/

variable {c : Cache} {w : Waiter} {low : Offset}

theorem look_of_lt (hlow : c.lowest? = some low) (hw : w.requested < low) :
    c.look w =
      ({ c with
          activity := { c.activity with fetches := c.activity.fetches + 1 }
          right := { c.right with holder := some (.fetching ⟨w.ticket, w.requested, low⟩) } },
        .fetching w.requested low) := by
  rw [look, hlow]
  exact if_pos hw

theorem look_of_covered (h : ∀ low, c.lowest? = some low → low ≤ w.requested) :
    c.look w =
      ({ c with
          activity := { c.activity with skipped := c.activity.skipped + 1 }
          right := c.right.passOn },
        .ended (.ok ())) := by
  rw [look]
  cases hlow : c.lowest? with
  | none => rfl
  | some low => exact if_neg (Std.not_lt.2 (h low hlow))

theorem lt_or_covered (c : Cache) (o : Offset) :
    (∃ low, c.lowest? = some low ∧ o < low) ∨ ∀ low, c.lowest? = some low → low ≤ o := by
  cases hlow : c.lowest? with
  | none => exact .inr (by simp)
  | some low =>
      by_cases h : o < low
      · exact .inl ⟨low, rfl, h⟩
      · refine .inr fun low' hlow' => ?_
        rw [← Option.some.inj hlow']
        exact Std.not_lt.1 h

theorem ask_of_none (hlow : c.lowest? = none) : c.ask w = (c, .ended (.error .notReady)) := by
  rw [ask, hlow]

theorem ask_of_covered (hlow : c.lowest? = some low) (hw : low ≤ w.requested) :
    c.ask w = (c, .ended (.ok ())) := by
  rw [ask, hlow]
  exact if_pos hw

theorem ask_of_free (hlow : c.lowest? = some low) (hw : w.requested < low)
    (hholder : c.right.holder = none) : c.ask w = c.look w := by
  rw [ask, hlow, hholder]
  exact if_neg (Std.not_le.2 hw)

theorem ask_of_held {h : Holder} (hlow : c.lowest? = some low) (hw : w.requested < low)
    (hholder : c.right.holder = some h) :
    c.ask w =
      ({ c with right := { c.right with waiting := c.right.waiting ++ [w] } }, .waiting) := by
  rw [ask, hlow, hholder]
  exact if_neg (Std.not_le.2 hw)

theorem resume_of_passed (hholder : c.right.holder = some (.passedTo w)) : c.resume = c.look w := by
  rw [resume, hholder]

theorem resume_of_fetching {f : Fetch} (hholder : c.right.holder = some (.fetching f)) :
    c.resume = (c, .waiting) := by
  rw [resume, hholder]

end Cache

namespace Course

/-- A query is the first in turn: it finds the right free, or the right has passed to it. -/
inductive InTurn (c : Course) (q : Query) : List Query → Prop where
  | free (hholder : c.cache.right.holder = none) (hpending : c.pending = []) : InTurn c q []
  | passed {rest : List Query} (hholder : c.cache.right.holder = some (.passedTo q.waiter))
      (hpending : c.pending = q :: rest) : InTurn c q rest

/-- The result of a query that needs no fetch. -/
inductive AtOnce (c : Course) (q : Query) : Except Fault (Queue Item) → Prop where
  | notReady (hlow : c.lowest? = none) : AtOnce c q (.error .notReady)
  | covered {low : Offset} (hlow : c.lowest? = some low) (hq : low ≤ q.requested) :
      AtOnce c q (.ok (c.cache.queue q.agent))

/-! ## What the steps leave -/

/-- The query that is first in turn asks the journal for what is missing below `low`. -/
def beginFetch (c : Course) (q : Query) (rest : List Query) (low : Offset) : Course :=
  { c with
    cache := { c.cache with
      activity := { c.cache.activity with fetches := c.cache.activity.fetches + 1 }
      right := { c.cache.right with holder := some (.fetching ⟨q.ticket, q.requested, low⟩) } }
    pending := q :: rest
    calls := c.calls ++ [⟨⟨q.ticket, q.requested, low⟩, .outstanding⟩] }

/-- The query to which the right has passed has nothing to fetch and returns. -/
def skip (c : Course) (q : Query) (rest : List Query) : Course :=
  { c with
    cache := { c.cache with
      activity := { c.cache.activity with skipped := c.cache.activity.skipped + 1 }
      right := c.cache.right.passOn }
    pending := rest
    deeds := c.deeds ++ [.returned q none (.ok (c.cache.queue q.agent))] }

def leaveLine (c : Course) (q : Query) : Course :=
  { c with
    cache := { c.cache with
      right := { c.cache.right with
        waiting := c.cache.right.waiting.filter fun w => w.ticket != q.ticket } }
    pending := c.pending.filter fun p => p.ticket != q.ticket }

def timeOut (c : Course) (q : Query) : Course :=
  { c.leaveLine q with
    cache := { (c.leaveLine q).cache with
      activity := { c.cache.activity with timeouts := c.cache.activity.timeouts + 1 } }
    deeds := c.deeds ++
      [.returned q none (.error (.timedOut c.cache.settings.fetchWait.milliseconds))] }

/-- The query that holds the right gives it up; if it fetched, its call is the last of `calls`. -/
def giveUp (c : Course) (rest : List Query) (calls : List Call) : Course :=
  { c with cache := c.cache.passOn, pending := rest, calls }

def succeed (c : Course) (q : Query) (rest : List Query) (upTo : Offset) (past : List Call)
    (batch : List Message) : Course :=
  { cache := { c.cache with
      holdings := (c.cache.holdings.backfill c.outlet batch q.requested).1
      right := c.cache.right.passOn }
    outlet := (c.cache.holdings.backfill c.outlet batch q.requested).2
    pending := rest
    calls := past ++ [⟨⟨q.ticket, q.requested, upTo⟩, .answered (.ok batch)⟩]
    deeds := c.deeds ++ [.returned q (some (.ok batch))
      (.ok ((c.cache.holdings.backfill c.outlet batch q.requested).1.table.queue q.agent))] }

def fail (c : Course) (q : Query) (rest : List Query) (upTo : Offset) (past : List Call)
    (e : Fault) : Course :=
  { c with
    cache := c.cache.passOn
    pending := rest
    calls := past ++ [⟨⟨q.ticket, q.requested, upTo⟩, .answered (.error e)⟩]
    deeds := c.deeds ++ [.returned q (some (.error e)) (.error e)] }

/-- Tail ingestion handles the record `r`, which leaves `rs` to be handled. -/
def takeIn (c : Course) (r : Delivery) (rs : List Delivery) : Course :=
  { c with
    cache := { c.cache with
      holdings := (c.cache.holdings.ingest c.outlet r).1
      activity := { c.cache.activity with handled := c.cache.activity.handled + 1 }
      inbox := rs }
    outlet := (c.cache.holdings.ingest c.outlet r).2
    deeds := c.deeds ++ [.handled r] }

/-- All that a move can do to a course. -/
inductive Step (c : Course) : Move → Course → Prop where
  | stays (m : Move) : Step c m c
  | returnsAtOnce {q : Query} {result : Except Fault (Queue Item)} (hresult : c.AtOnce q result) :
      Step c (.ask q) { c with deeds := c.deeds ++ [.returned q none result] }
  | waits {q : Query} {low : Offset} {h : Holder} (hfresh : ∀ p ∈ c.pending, p.ticket ≠ q.ticket)
      (hlow : c.lowest? = some low) (hq : q.requested < low)
      (hholder : c.cache.right.holder = some h) :
      Step c (.ask q) { c with
        cache := { c.cache with
          right := { c.cache.right with waiting := c.cache.right.waiting ++ [q.waiter] } }
        pending := c.pending ++ [q] }
  | fetches {q : Query} {rest : List Query} {low : Offset} {m : Move}
      (hm : m = .ask q ∨ m = .resume q.ticket) (hturn : c.InTurn q rest)
      (hlow : c.lowest? = some low) (hq : q.requested < low) : Step c m (c.beginFetch q rest low)
  | skips {q : Query} {rest : List Query}
      (hholder : c.cache.right.holder = some (.passedTo q.waiter))
      (hpending : c.pending = q :: rest)
      (hcovered : ∀ low, c.lowest? = some low → low ≤ q.requested) :
      Step c (.resume q.ticket) (c.skip q rest)
  | expires {q : Query} {h : Holder} (hq : q ∈ c.pending) (hholder : c.cache.right.holder = some h)
      (hne : h.ticket ≠ q.ticket) : Step c (.expire q.ticket) (c.timeOut q)
  | leavesLine {q : Query} {h : Holder} (hq : q ∈ c.pending)
      (hholder : c.cache.right.holder = some h) (hne : h.ticket ≠ q.ticket) :
      Step c (.withdraw q.ticket) (c.leaveLine q)
  | leavesRight {q : Query} {rest : List Query}
      (hholder : c.cache.right.holder = some (.passedTo q.waiter))
      (hpending : c.pending = q :: rest) : Step c (.withdraw q.ticket) (c.giveUp rest c.calls)
  | leavesFetch {q : Query} {rest : List Query} {upTo : Offset} {past : List Call}
      (hholder : c.cache.right.holder = some (.fetching ⟨q.ticket, q.requested, upTo⟩))
      (hpending : c.pending = q :: rest)
      (hcalls : c.calls = past ++ [⟨⟨q.ticket, q.requested, upTo⟩, .outstanding⟩])
      (hpast : ∀ k ∈ past, k.state ≠ .outstanding) :
      Step c (.withdraw q.ticket)
        (c.giveUp rest (past ++ [⟨⟨q.ticket, q.requested, upTo⟩, .abandoned⟩]))
  | succeeds {q : Query} {rest : List Query} {upTo : Offset} {past : List Call}
      {batch : List Message}
      (hholder : c.cache.right.holder = some (.fetching ⟨q.ticket, q.requested, upTo⟩))
      (hpending : c.pending = q :: rest)
      (hcalls : c.calls = past ++ [⟨⟨q.ticket, q.requested, upTo⟩, .outstanding⟩])
      (hpast : ∀ k ∈ past, k.state ≠ .outstanding) :
      Step c (.answer q.ticket (.ok batch)) (c.succeed q rest upTo past batch)
  | fails {q : Query} {rest : List Query} {upTo : Offset} {past : List Call} {e : Fault}
      (hholder : c.cache.right.holder = some (.fetching ⟨q.ticket, q.requested, upTo⟩))
      (hpending : c.pending = q :: rest)
      (hcalls : c.calls = past ++ [⟨⟨q.ticket, q.requested, upTo⟩, .outstanding⟩])
      (hpast : ∀ k ∈ past, k.state ≠ .outstanding) :
      Step c (.answer q.ticket (.error e)) (c.fail q rest upTo past e)
  | delivers (r : Delivery) : Step c (.deliver r) { c with cache := c.cache.deliver r }
  | handles {r : Delivery} {rs : List Delivery} (hinbox : c.cache.inbox = r :: rs)
      (hfollowing : c.cache.isFollowing) (hnotShutDown : c.cache.isShutDown = false) :
      Step c .handle (c.takeIn r rs)
  | shutsDown : Step c .shutDown { c with cache := c.cache.shutDown }
  | stops : Step c .stop { c with cache := c.cache.stop }
  | releases :
      Step c .release { c with
        cache := (c.cache.releaseQueues c.outlet).1
        outlet := (c.cache.releaseQueues c.outlet).2
        deeds := c.deeds ++ [.released] }

/-! ## All that a move can do -/

variable {c : Course}

theorem finish_mk {cache : Cache} {outlet : Outlet} {pending : List Query} {calls : List Call}
    {deeds : List Deed} {q : Query} (h : (pending.map (·.ticket)).Nodup) (hq : q ∈ pending)
    (reply : Option FetchReply) (outcome : Except Fault Unit) :
    (⟨cache, outlet, pending, calls, deeds⟩ : Course).finish q.ticket reply outcome =
      ⟨cache, outlet, pending.filter fun p => p.ticket != q.ticket, calls,
        deeds ++ [.returned q reply (outcome.map fun _ => cache.queue q.agent)]⟩ := by
  rw [finish, filter_ticket_beq h hq]
  rfl

theorem finish_mk_cons {cache : Cache} {outlet : Outlet} {rest : List Query} {calls : List Call}
    {deeds : List Deed} {q : Query} (h : ((q :: rest).map (·.ticket)).Nodup)
    (reply : Option FetchReply) (outcome : Except Fault Unit) :
    (⟨cache, outlet, q :: rest, calls, deeds⟩ : Course).finish q.ticket reply outcome =
      ⟨cache, outlet, rest, calls,
        deeds ++ [.returned q reply (outcome.map fun _ => cache.queue q.agent)]⟩ := by
  rw [finish_mk h List.mem_cons_self, filter_ticket_bne_cons h]

theorem move_ask {q : Query} {cache : Cache} {p : Progress}
    (h : c.cache.ask q.waiter = (cache, p)) :
    c.move (.ask q) = { c with cache, pending := c.pending ++ [q] }.proceed q.ticket none p := by
  rw [move, h]

theorem move_resume {t : Nat} {cache : Cache} {p : Progress} (ht : c.cache.right.isHolder t)
    (h : c.cache.resume = (cache, p)) :
    c.move (.resume t) = { c with cache }.proceed t none p := by
  rw [move, if_pos ht, h]

theorem move_expire {t : Nat} {cache : Cache} {p : Progress}
    (h : c.cache.expire t = (cache, p)) :
    c.move (.expire t) = { c with cache }.proceed t none p := by
  rw [move, h]

theorem finish_concat (hs : c.Sound) {q : Query} (hfresh : ∀ p ∈ c.pending, p.ticket ≠ q.ticket)
    (outcome : Except Fault Unit) :
    { c with pending := c.pending ++ [q] }.finish q.ticket none outcome =
      { c with deeds := c.deeds ++
        [.returned q none (outcome.map fun _ => c.cache.queue q.agent)] } := by
  rw [finish_mk (nodup_tickets_concat hs.nodup hfresh) (by simp), List.filter_append,
    filter_ticket_bne hfresh]
  simp

theorem move_ask_atOnce (hs : c.Sound) {q : Query} (hfresh : ∀ p ∈ c.pending, p.ticket ≠ q.ticket)
    {result : Except Fault (Queue Item)} (h : c.AtOnce q result) :
    c.move (.ask q) = { c with deeds := c.deeds ++ [.returned q none result] } := by
  cases h with
  | notReady hlow =>
      rw [move_ask (Cache.ask_of_none hlow), proceed, finish_concat hs hfresh]
      rfl
  | covered hlow hq =>
      rw [move_ask (Cache.ask_of_covered hlow hq), proceed, finish_concat hs hfresh]
      rfl

theorem move_ask_of_free (hs : c.Sound) {q : Query} {low : Offset} (hlow : c.lowest? = some low)
    (hlt : q.requested < low) (hholder : c.cache.right.holder = none) :
    c.move (.ask q) = c.beginFetch q [] low := by
  have hask := Cache.ask_of_free (w := q.waiter) hlow hlt hholder
  rw [Cache.look_of_lt hlow hlt] at hask
  rw [move_ask hask, proceed, hs.pending_of_free hholder]
  rfl

theorem step_ask (hs : c.Sound) {q : Query} (hfresh : ∀ p ∈ c.pending, p.ticket ≠ q.ticket) :
    c.Step (.ask q) (c.move (.ask q)) := by
  cases hlow : c.lowest? with
  | none =>
      rw [move_ask_atOnce hs hfresh (.notReady hlow)]
      exact .returnsAtOnce (.notReady hlow)
  | some low =>
      by_cases hq : low ≤ q.requested
      · rw [move_ask_atOnce hs hfresh (.covered hlow hq)]
        exact .returnsAtOnce (.covered hlow hq)
      · have hlt : q.requested < low := Std.not_le.1 hq
        cases hholder : c.cache.right.holder with
        | none =>
            rw [move_ask_of_free hs hlow hlt hholder]
            exact .fetches (.inl rfl) (.free hholder (hs.pending_of_free hholder)) hlow hlt
        | some h =>
            rw [move_ask (Cache.ask_of_held hlow hlt hholder), proceed]
            exact .waits hfresh hlow hlt hholder

theorem isHolder_of_passed {q : Query}
    (hholder : c.cache.right.holder = some (.passedTo q.waiter)) :
    c.cache.right.isHolder q.ticket := by
  simp [FetchRight.isHolder, hholder, Holder.ticket, Query.waiter]

theorem move_resume_of_lt {q : Query} {rest : List Query} {low : Offset}
    (hholder : c.cache.right.holder = some (.passedTo q.waiter)) (hpending : c.pending = q :: rest)
    (hlow : c.lowest? = some low) (hlt : q.requested < low) :
    c.move (.resume q.ticket) = c.beginFetch q rest low := by
  have hresume := Cache.resume_of_passed hholder
  rw [Cache.look_of_lt hlow hlt] at hresume
  rw [move_resume (isHolder_of_passed hholder) hresume, proceed, hpending]
  rfl

theorem move_resume_of_covered (hs : c.Sound) {q : Query} {rest : List Query}
    (hholder : c.cache.right.holder = some (.passedTo q.waiter)) (hpending : c.pending = q :: rest)
    (hcovered : ∀ low, c.lowest? = some low → low ≤ q.requested) :
    c.move (.resume q.ticket) = c.skip q rest := by
  have hnodup := hs.nodup
  have hresume := Cache.resume_of_passed hholder
  rw [Cache.look_of_covered (w := q.waiter) hcovered] at hresume
  rw [hpending] at hnodup
  rw [move_resume (isHolder_of_passed hholder) hresume, proceed, hpending, finish_mk_cons hnodup]
  rfl

theorem move_resume_of_fetching {f : Fetch} (hholder : c.cache.right.holder = some (.fetching f))
    (t : Nat) : c.move (.resume t) = c := by
  by_cases ht : c.cache.right.isHolder t
  · rw [move_resume ht (Cache.resume_of_fetching hholder), proceed]
  · rw [move, if_neg ht]

/-- A query goes on only if the right has passed to it, and then it is the one longest under way. -/
theorem Sound.move_resume_cases (hs : c.Sound) (t : Nat) :
    c.move (.resume t) = c ∨ ∃ q rest, t = q.ticket ∧
      c.cache.right.holder = some (.passedTo q.waiter) ∧ c.pending = q :: rest := by
  cases hholder : c.cache.right.holder with
  | none =>
      left
      rw [move, if_neg (by simp [FetchRight.isHolder, hholder])]
  | some held =>
      cases held with
      | fetching f => exact .inl (move_resume_of_fetching hholder t)
      | passedTo w =>
          obtain ⟨q, rest, hpending, hq, -⟩ := hs.pending_of_holder hholder
          obtain rfl : q.waiter = w := hq
          by_cases ht : q.ticket = t
          · exact .inr ⟨q, rest, ht.symm, rfl, hpending⟩
          · left
            rw [move, if_neg]
            simpa [FetchRight.isHolder, hholder, Holder.ticket, Query.waiter] using ht

theorem step_resume (hs : c.Sound) (t : Nat) : c.Step (.resume t) (c.move (.resume t)) := by
  rcases hs.move_resume_cases t with heq | ⟨q, rest, rfl, hholder, hpending⟩
  · rw [heq]
    exact .stays _
  · rcases c.cache.lt_or_covered q.requested with ⟨low, hlow, hlt⟩ | hcovered
    · rw [move_resume_of_lt hholder hpending hlow hlt]
      exact .fetches (.inr rfl) (.passed hholder hpending) hlow hlt
    · rw [move_resume_of_covered hs hholder hpending hcovered]
      exact .skips hholder hpending hcovered

theorem move_expire_of_waiting (hs : c.Sound) {q : Query} {h : Holder} (hq : q ∈ c.pending)
    (hholder : c.cache.right.holder = some h) (hne : h.ticket ≠ q.ticket) :
    c.move (.expire q.ticket) = c.timeOut q := by
  have hexpire : c.cache.expire q.ticket =
      ({ c.cache with
          activity := { c.cache.activity with timeouts := c.cache.activity.timeouts + 1 }
          right := c.cache.right.withdraw q.ticket },
        .ended (.error (.timedOut c.cache.settings.fetchWait.milliseconds))) := by
    rw [Cache.expire, if_pos (hs.isWaiting_iff.2 ⟨q, h, hq, rfl, hholder, hne⟩)]
  rw [FetchRight.withdraw_of_holder_ne hholder hne] at hexpire
  rw [move_expire hexpire, proceed, finish_mk hs.nodup hq]
  rfl

theorem step_expire (hs : c.Sound) (t : Nat) : c.Step (.expire t) (c.move (.expire t)) := by
  by_cases ht : c.cache.right.isWaiting t
  · obtain ⟨q, h, hq, rfl, hholder, hne⟩ := hs.isWaiting_iff.1 ht
    rw [move_expire_of_waiting hs hq hholder hne]
    exact .expires hq hholder hne
  · have hexpire : c.cache.expire t = (c.cache, .waiting) := by rw [Cache.expire, if_neg ht]
    rw [move_expire hexpire, proceed]
    exact .stays _

theorem move_withdraw (c : Course) (t : Nat) :
    c.move (.withdraw t) =
      { c with
        cache := { c.cache with right := c.cache.right.withdraw t }
        pending := c.pending.filter fun q => q.ticket != t
        calls := c.calls.map (Call.close t .abandoned) } := rfl

/-- A query that does not fetch has no call to close. -/
theorem Sound.map_close (hs : c.Sound) {t : Nat}
    (hnot : ∀ f, c.cache.right.holder = some (.fetching f) → f.ticket ≠ t) (state : CallState) :
    c.calls.map (Call.close t state) = c.calls := by
  apply map_close_of_not_awaits
  intro k hk
  apply Bool.eq_false_iff.2
  intro hawaits
  obtain ⟨f, hholder, hft⟩ := hs.holder_of_awaits hk hawaits
  exact hnot f hholder hft

theorem step_withdraw_holder (hs : c.Sound) {q : Query} {rest : List Query} {h : Holder}
    (hholder : c.cache.right.holder = some h) (hpending : c.pending = q :: rest)
    (hq : q.waiter = h.waiter) : c.Step (.withdraw q.ticket) (c.move (.withdraw q.ticket)) := by
  have hqt : h.ticket = q.ticket := by rw [← Holder.ticket_waiter, ← hq]; rfl
  have hnodup := hs.nodup
  rw [hpending] at hnodup
  rw [move_withdraw, hpending, filter_ticket_bne_cons hnodup, ← hqt,
    FetchRight.withdraw_of_holder hholder, hqt]
  cases h with
  | passedTo w =>
      obtain rfl : q.waiter = w := hq
      rw [hs.map_close (by simp [hholder])]
      exact .leavesRight hholder hpending
  | fetching f =>
      obtain ⟨past, hcalls, hpast⟩ := hs.calls_of_fetching hholder
      rcases f with ⟨ticket, first, upTo⟩
      obtain ⟨rfl, rfl⟩ : q.ticket = ticket ∧ q.requested = first := by
        simpa [Query.waiter, Holder.waiter] using hq
      rw [hcalls, map_close_append hpast ⟨q.ticket, q.requested, upTo⟩]
      exact .leavesFetch hholder hpending hcalls hpast

/-- Giving up a query that is not under way changes nothing. -/
theorem move_withdraw_of_none (hs : c.Sound) {t : Nat} (hnone : ∀ q ∈ c.pending, q.ticket ≠ t) :
    c.move (.withdraw t) = c := by
  have hengaged : ∀ w ∈ c.cache.right.engaged, w.ticket ≠ t := by
    intro w hw
    rw [← hs.engaged, List.mem_map] at hw
    rcases hw with ⟨q, hq, rfl⟩
    exact hnone q hq
  have hholder : ∀ h, c.cache.right.holder = some h → h.ticket ≠ t := by
    intro h hholder
    rw [← Holder.ticket_waiter]
    exact hengaged _ (by simp [FetchRight.engaged, hholder])
  have hnot : ¬ c.cache.right.isHolder t := by
    cases hh : c.cache.right.holder with
    | none => simp [FetchRight.isHolder, hh]
    | some h => simpa [FetchRight.isHolder, hh] using hholder h hh
  have hwaiting :
      (c.cache.right.waiting.filter fun w => w.ticket != t) = c.cache.right.waiting := by
    rw [List.filter_eq_self]
    intro w hw
    simpa using hengaged w (List.mem_append_right _ hw)
  rw [move_withdraw, FetchRight.withdraw, if_neg hnot, hwaiting, filter_ticket_bne hnone,
    hs.map_close fun f hf => hholder _ hf]

theorem step_withdraw (hs : c.Sound) (t : Nat) : c.Step (.withdraw t) (c.move (.withdraw t)) := by
  by_cases hq : ∃ q ∈ c.pending, q.ticket = t
  · rcases hq with ⟨q, hq, rfl⟩
    cases hholder : c.cache.right.holder with
    | none => rw [hs.pending_of_free hholder] at hq; cases hq
    | some h =>
        obtain ⟨p, rest, hpending, hp, -⟩ := hs.pending_of_holder hholder
        have hpt : h.ticket = p.ticket := by rw [← Holder.ticket_waiter, ← hp]; rfl
        by_cases hne : h.ticket = q.ticket
        · rw [← hne, hpt]
          exact step_withdraw_holder hs hholder hpending hp
        · rw [move_withdraw, FetchRight.withdraw_of_holder_ne hholder hne, hs.map_close]
          · exact .leavesLine hq hholder hne
          · intro f hf
            rw [hholder] at hf
            obtain rfl := Option.some.inj hf
            exact hne
  · rw [move_withdraw_of_none hs fun q hp hqt => hq ⟨q, hp, hqt⟩]
    exact .stays _

section Answer

variable {q : Query} {rest : List Query} {upTo : Offset} {past : List Call}

theorem awaits_of_calls
    (hcalls : c.calls = past ++ [⟨⟨q.ticket, q.requested, upTo⟩, .outstanding⟩]) :
    c.calls.any fun k => k.awaits q.ticket := by
  rw [hcalls]
  simp [Call.awaits]

theorem move_answer_ok (hs : c.Sound)
    (hholder : c.cache.right.holder = some (.fetching ⟨q.ticket, q.requested, upTo⟩))
    (hpending : c.pending = q :: rest)
    (hcalls : c.calls = past ++ [⟨⟨q.ticket, q.requested, upTo⟩, .outstanding⟩])
    (hpast : ∀ k ∈ past, k.state ≠ .outstanding) (batch : List Message) :
    c.move (.answer q.ticket (.ok batch)) = c.succeed q rest upTo past batch := by
  have hnodup := hs.nodup
  rw [hpending] at hnodup
  have hanswer : c.cache.answer c.outlet (.ok batch) =
      ({ c.cache with
          holdings := (c.cache.holdings.backfill c.outlet batch q.requested).1
          right := c.cache.right.passOn },
        (c.cache.holdings.backfill c.outlet batch q.requested).2, .ended (.ok ())) := by
    rw [Cache.answer, hholder]
    rfl
  rw [move, if_pos (awaits_of_calls hcalls), hanswer]
  simp only [proceed]
  rw [hcalls, map_close_append hpast ⟨q.ticket, q.requested, upTo⟩, hpending,
    finish_mk_cons hnodup]
  rfl

theorem move_answer_error (hs : c.Sound)
    (hholder : c.cache.right.holder = some (.fetching ⟨q.ticket, q.requested, upTo⟩))
    (hpending : c.pending = q :: rest)
    (hcalls : c.calls = past ++ [⟨⟨q.ticket, q.requested, upTo⟩, .outstanding⟩])
    (hpast : ∀ k ∈ past, k.state ≠ .outstanding) (e : Fault) :
    c.move (.answer q.ticket (.error e)) = c.fail q rest upTo past e := by
  have hnodup := hs.nodup
  rw [hpending] at hnodup
  have hanswer : c.cache.answer c.outlet (.error e) =
      (c.cache.passOn, c.outlet, .ended (.error e)) := by
    rw [Cache.answer, hholder]
  rw [move, if_pos (awaits_of_calls hcalls), hanswer]
  simp only [proceed]
  rw [hcalls, map_close_append hpast ⟨q.ticket, q.requested, upTo⟩, hpending,
    finish_mk_cons hnodup]
  rfl

end Answer

/-- The query that fetches is the one longest under way, and its call is the last. -/
theorem Sound.fetching (hs : c.Sound) {f : Fetch}
    (hholder : c.cache.right.holder = some (.fetching f)) :
    ∃ q rest past, f = ⟨q.ticket, q.requested, f.upTo⟩ ∧ c.pending = q :: rest ∧
      c.calls = past ++ [⟨f, .outstanding⟩] ∧ ∀ k ∈ past, k.state ≠ .outstanding := by
  obtain ⟨past, hcalls, hpast⟩ := hs.calls_of_fetching hholder
  obtain ⟨q, rest, hpending, hq, -⟩ := hs.pending_of_holder hholder
  rcases f with ⟨ticket, first, upTo⟩
  obtain ⟨rfl, rfl⟩ : q.ticket = ticket ∧ q.requested = first := by
    simpa [Query.waiter, Holder.waiter] using hq
  exact ⟨q, rest, past, rfl, hpending, hcalls, hpast⟩

/-- No reply comes while nobody fetches. -/
theorem Sound.move_answer_of_not_fetching (hs : c.Sound)
    (hholder : ∀ f, c.cache.right.holder ≠ some (.fetching f)) (t : Nat) (reply : FetchReply) :
    c.move (.answer t reply) = c := by
  rw [move, if_neg]
  intro hany
  obtain ⟨k, hk, hawaits⟩ := List.any_eq_true.1 hany
  obtain ⟨f, hf, -⟩ := hs.holder_of_awaits hk hawaits
  exact hholder f hf

theorem step_answer (hs : c.Sound) (t : Nat) (reply : FetchReply) :
    c.Step (.answer t reply) (c.move (.answer t reply)) := by
  by_cases ht : c.calls.any fun k => k.awaits t
  · obtain ⟨k, hk, hawaits⟩ := List.any_eq_true.1 ht
    obtain ⟨f, hholder, rfl⟩ := hs.holder_of_awaits hk hawaits
    obtain ⟨q, rest, past, hf, hpending, hcalls, hpast⟩ := hs.fetching hholder
    rw [hf] at hholder hcalls ⊢
    cases reply with
    | ok batch =>
        rw [move_answer_ok hs hholder hpending hcalls hpast]
        exact .succeeds hholder hpending hcalls hpast
    | error e =>
        rw [move_answer_error hs hholder hpending hcalls hpast]
        exact .fails hholder hpending hcalls hpast
  · rw [move, if_neg ht]
    exact .stays _

theorem move_handle {r : Delivery} {rs : List Delivery} (hinbox : c.cache.inbox = r :: rs)
    (hfollowing : c.cache.isFollowing) (hnotShutDown : c.cache.isShutDown = false) :
    c.move .handle = c.takeIn r rs := by
  have hnext : c.cache.handleNext c.outlet = { c.cache with inbox := rs }.ingest c.outlet r := by
    rw [Cache.handleNext, hinbox]
  rw [move, hinbox]
  dsimp only
  rw [if_pos (by simp [hfollowing, hnotShutDown]), hnext]
  rfl

/-- Tail ingestion handles nothing when it has nothing to handle, has ended or was told to stop. -/
theorem move_handle_of_not
    (h : c.cache.inbox = [] ∨ (c.cache.isFollowing && !c.cache.isShutDown) = false) :
    c.move .handle = c := by
  rw [move]
  cases hinbox : c.cache.inbox with
  | nil => rfl
  | cons r rs =>
      have hnot := h.resolve_left (by simp [hinbox])
      dsimp only
      rw [if_neg (by simp [hnot])]

theorem step_handle : c.Step .handle (c.move .handle) := by
  cases hinbox : c.cache.inbox with
  | nil =>
      rw [move_handle_of_not (.inl hinbox)]
      exact .stays _
  | cons r rs =>
      cases hruns : c.cache.isFollowing && !c.cache.isShutDown with
      | false =>
          rw [move_handle_of_not (.inr hruns)]
          exact .stays _
      | true =>
          obtain ⟨hfollowing, hnotShutDown⟩ := Bool.and_eq_true_iff.1 hruns
          rw [Bool.not_eq_true'] at hnotShutDown
          rw [move_handle hinbox hfollowing hnotShutDown]
          exact .handles hinbox hfollowing hnotShutDown

/-- The steps listed are all there are. -/
theorem step_move (hs : c.Sound) {m : Move} (hm : c.Allows m) : c.Step m (c.move m) := by
  cases m with
  | ask q => exact step_ask hs hm
  | resume t => exact step_resume hs t
  | expire t => exact step_expire hs t
  | withdraw t => exact step_withdraw hs t
  | answer t reply => exact step_answer hs t reply
  | deliver r => exact .delivers r
  | handle => exact step_handle
  | shutDown => exact .shutsDown
  | stop => exact .stops
  | release => exact .releases

/-! ## Every reachable course is in order -/

theorem InTurn.pending_eq {q : Query} {rest : List Query} (h : c.InTurn q rest) :
    c.pending = [] ∧ rest = [] ∨ c.pending = q :: rest := by
  cases h with
  | free _ hpending => exact .inl ⟨hpending, rfl⟩
  | passed _ hpending => exact .inr hpending

theorem InTurn.outstanding_eq {q : Query} {rest : List Query} (h : c.InTurn q rest) :
    c.cache.right.outstanding = [] := by
  cases h with
  | free hholder _ => rw [FetchRight.outstanding, hholder]
  | passed hholder _ => rw [FetchRight.outstanding, hholder]

theorem InTurn.waiting_eq (hs : c.Sound) {q : Query} {rest : List Query} (h : c.InTurn q rest) :
    c.cache.right.waiting = rest.map Query.waiter := by
  cases h with
  | free hholder _ => exact hs.waiting_of_free hholder
  | passed hholder hpending =>
      obtain ⟨p, rest', hpending', -, hrest⟩ := hs.pending_of_holder hholder
      rw [(List.cons.inj (hpending.symm.trans hpending')).2, hrest]

theorem Sound.fetch (hs : c.Sound) {q : Query} {rest : List Query} (hturn : c.InTurn q rest)
    {cache : Cache} {low : Offset}
    (hright : cache.right =
      { c.cache.right with holder := some (.fetching ⟨q.ticket, q.requested, low⟩) })
    (outlet : Outlet) (deeds : List Deed) :
    Sound ⟨cache, outlet, q :: rest,
      c.calls ++ [⟨⟨q.ticket, q.requested, low⟩, .outstanding⟩], deeds⟩ where
  engaged := by
    change (q :: rest).map Query.waiter = cache.right.engaged
    rw [hright, FetchRight.engaged, hturn.waiting_eq hs]
    rfl
  nodup := by
    rcases hturn.pending_eq with ⟨-, rfl⟩ | hpending
    · simp
    · have hnodup := hs.nodup
      rwa [hpending] at hnodup
  waiting_of_free := by
    intro hfree
    change cache.right.holder = none at hfree
    rw [hright] at hfree
    cases hfree
  calls := by
    rcases hs.calls with ⟨past, hcalls, hpast⟩
    rw [hturn.outstanding_eq, List.append_nil] at hcalls
    refine ⟨past, ?_, hpast⟩
    change c.calls ++ _ = past ++ cache.right.outstanding
    rw [hright, hcalls]
    rfl

theorem Step.sound (hs : c.Sound) {m : Move} {d : Course} (h : c.Step m d) : d.Sound := by
  -- a query that held the right without fetching has no call that has not ended
  have hover : ∀ w, c.cache.right.holder = some (.passedTo w) →
      ∀ k ∈ c.calls, k.state ≠ .outstanding := by
    intro w hholder
    rcases hs.calls with ⟨past, hcalls, hpast⟩
    rw [FetchRight.outstanding, hholder, List.append_nil] at hcalls
    rwa [hcalls]
  cases h with
  | stays => exact hs
  | returnsAtOnce => exact ⟨hs.engaged, hs.nodup, hs.waiting_of_free, hs.calls⟩
  | waits hfresh _ _ hholder => exact hs.wait hfresh hholder
  | fetches _ hturn => exact hs.fetch hturn rfl _ _
  | skips hholder hpending => exact hs.passOn hholder hpending rfl (hover _ hholder) _ _
  | expires _ hholder hne => exact hs.leave hholder hne rfl _
  | leavesLine _ hholder hne => exact hs.leave hholder hne rfl _
  | leavesRight hholder hpending => exact hs.passOn hholder hpending rfl (hover _ hholder) _ _
  | leavesFetch hholder hpending _ hpast =>
      exact hs.passOn hholder hpending rfl (not_outstanding_concat hpast (by simp)) _ _
  | succeeds hholder hpending _ hpast =>
      exact hs.passOn hholder hpending rfl (not_outstanding_concat hpast (by simp)) _ _
  | fails hholder hpending _ hpast =>
      exact hs.passOn hholder hpending rfl (not_outstanding_concat hpast (by simp)) _ _
  | delivers => exact ⟨hs.engaged, hs.nodup, hs.waiting_of_free, hs.calls⟩
  | handles => exact ⟨hs.engaged, hs.nodup, hs.waiting_of_free, hs.calls⟩
  | shutsDown => exact ⟨hs.engaged, hs.nodup, hs.waiting_of_free, hs.calls⟩
  | stops => exact ⟨hs.engaged, hs.nodup, hs.waiting_of_free, hs.calls⟩
  | releases => exact ⟨hs.engaged, hs.nodup, hs.waiting_of_free, hs.calls⟩

variable {number : Nat} {settings : Settings} {registry : Registry}

theorem sound_start : (start number settings registry).Sound where
  engaged := rfl
  nodup := .nil
  waiting_of_free := fun _ => rfl
  calls := ⟨[], rfl, by simp⟩

theorem Sound.run (hs : c.Sound) {ms : List Move} (hms : c.AllowsAll ms) : (c.run ms).Sound := by
  induction ms generalizing c with
  | nil => exact hs
  | cons m ms ih => exact ih ((step_move hs hms.1).sound hs) hms.2

theorem Reachable.sound (h : Reachable number settings registry c) : c.Sound := by
  induction h with
  | start => exact sound_start
  | move _ hm ih => exact (step_move ih hm).sound ih

theorem Reachable.step (h : Reachable number settings registry c) {m : Move} (hm : c.Allows m) :
    c.Step m (c.move m) := step_move h.sound hm

end Course

end JournalCache

import JournalCache.Proofs.Course.Bare
import JournalCache.Proofs.Course.Outcome
import JournalCache.Proofs.Lifetime.Ordered

/-!
# Closing a cache

However often a cache is closed, and also if a closing begins while another one waits, the
subscription is ended once, and from then on no record is handled. Closing takes nothing out of the
queues and moves no mark, and queries go on as if nothing had happened: all that they go by is as it
was (`Course.bare`). Only the registrations end: all of them are released, once and in the order of
their names, and nothing is registered any more.
-/

namespace JournalCache

/-- The step of a query, if the move is one. -/
def LifeMove.query? : LifeMove → Option Move
  | .take m => if m.ticket?.isSome then some m else none
  | _ => none

namespace Course

/-- The items are the agent's entry in the table of queues. If there is none, there are no items. -/
def Caches (c : Course) (agent : String) (items : Queue Item) : Prop :=
  c.cache.holdings.table.queue? agent = some items ∨
    c.cache.holdings.table.queue? agent = none ∧ items = .empty

/-- The call of a query is answered with messages. The query returns what is there for it
afterwards. -/
structure Backfills (c : Course) (q : Query) (batch : List Message) (d : Course) : Prop where
  move : c.move (.answer q.ticket (.ok batch)) = d
  returns : ∃ items, d.Caches q.agent items ∧
    d.deeds = c.deeds ++ [.returned q (some (.ok batch)) (.ok items)]
  lowered : ∃ low, d.lowest? = some low ∧ low ≤ q.requested
  agents : ∀ agent, (d.cache.holdings.table.queue? agent).isSome ↔
    (c.cache.holdings.table.queue? agent).isSome ∨ ∃ m ∈ Message.shown batch, m.agent = agent

variable {c : Course}

theorem Sound.backfills (hs : c.Sound) (hready : c.pending ≠ [] → c.lowest? ≠ none) {q : Query}
    (hq : q ∈ c.pending) {upTo : Offset}
    (hholder : c.cache.right.holder = some (.fetching ⟨q.ticket, q.requested, upTo⟩))
    (batch : List Message) : ∃ d, c.Backfills q batch d := by
  obtain ⟨rest, past, hpending, hcalls, hpast⟩ := hs.fetching_of_mem hq hholder
  have hmove := move_answer_ok hs hholder hpending hcalls hpast batch
  have hstep : c.Step _ (c.succeed q rest upTo past batch) :=
    .succeeds hholder hpending hcalls hpast
  have hmark : c.lowMark ≠ reservedOffset := by
    rw [Ne, ← lowest?_eq_none]
    exact hready (List.ne_nil_of_mem hq)
  have hle : (c.succeed q rest upTo past batch).lowMark ≤ q.requested :=
    (Holdings.lowMark_backfill_le_iff ..).2 (.inr (.inl (Std.le_refl _)))
  exact ⟨_, {
    move := hmove
    returns := ⟨_, queue?_or _ q.agent, rfl⟩
    lowered := ⟨_, lowest?_eq_some.2 ⟨rfl, hstep.lowMark_ne hmark⟩, hle⟩
    agents := Holdings.isSome_queue?_merge c.cache.holdings c.outlet batch }⟩

/-- Tail ingestion was told to stop, and has done nothing since `c₀`. -/
structure Frozen (c₀ c : Course) : Prop where
  isShutDown : c.cache.isShutDown
  handled : c.handled = c₀.handled
  counted : c.cache.activity.handled = c₀.cache.activity.handled
  highest : c.highest? = c₀.highest?

theorem frozen_self (h : c.cache.isShutDown) : c.Frozen c := ⟨h, rfl, rfl, rfl⟩

theorem Frozen.step {c₀ d : Course} {m : Move} (h : c₀.Frozen c) (hstep : c.Step m d) :
    c₀.Frozen d := by
  obtain ⟨hshutDown, hhandled, hcounted, hhighest⟩ := hstep.of_isShutDown h.isShutDown
  exact ⟨hshutDown, hhandled.trans h.handled, hcounted.trans h.counted, hhighest.trans h.highest⟩

theorem move_handle_of_isShutDown (h : c.cache.isShutDown) : c.move .handle = c := by
  rw [move, h, Bool.not_true, Bool.and_false]
  split <;> rfl

end Course

namespace Lifetime

/-! ## What is promised -/

/-- A cache is closed once, whatever overlaps, and goes on for its queries. -/
structure ClosesOnce (j : Journal) (l : Lifetime) : Prop where
  closes : l.journal.closes = j.closes + if l.isShutDown then 1 else 0
  once : 0 < l.closed ∨ l.isDropped → l.journal.closes = j.closes + 1
  handled : l.course.handled <+: l.delivered
  /-- Once tail ingestion was told to stop, no subscription is ended and no record handled. -/
  frozen : l.isShutDown → ∀ ms, l.AllowsAll ms →
    (l.run ms).journal.closes = l.journal.closes ∧ (l.run ms).course.handled = l.course.handled ∧
      (l.run ms).course.cache.activity.handled = l.course.cache.activity.handled ∧
      (l.run ms).course.highest? = l.course.highest?
  lossless : ∀ m : LifeMove, m.isClosing → (l.move m).table.queues = l.table.queues ∧
    (l.move m).course.cache.holdings.coverage = l.course.cache.holdings.coverage ∧
      (l.move m).course.bare = l.course.bare
  /-- Once tail ingestion was told to stop, queries do what they would do with nobody else. -/
  goesOn : l.isShutDown → ∀ ms, l.AllowsAll ms →
    (l.run ms).course.bare = (l.course.run (ms.filterMap LifeMove.query?)).bare
  covered : ∀ q low, l.course.Allows (.ask q) → l.course.lowest? = some low → low ≤ q.requested →
    ∃ items, l.course.Caches q.agent items ∧ l.course.Returns (.ask q) q none (.ok items)
  fetches : ∀ q low, l.course.pending = [] → l.course.lowest? = some low → q.requested < low →
    (l.course.move (.ask q)).calls =
      l.course.calls ++ [⟨⟨q.ticket, q.requested, low⟩, .outstanding⟩]
  answered : ∀ q upTo, q ∈ l.course.pending →
    l.course.cache.right.holder = some (.fetching ⟨q.ticket, q.requested, upTo⟩) →
      ∀ batch, ∃ d, l.course.Backfills q batch d
  released : 0 < l.closed ∨ l.isDropped → l.registry.released.Perm l.registry.agents ∧
    l.registry.released.Pairwise (· < ·)
  /-- Once a closing is done, nothing is registered or released, and so no agent whose queue is made
  later. -/
  settled : 0 < l.closed ∨ l.isDropped → ∀ ms, l.AllowsAll ms →
    (l.run ms).registry.listings = l.registry.listings ∧
      (l.run ms).registry.released = l.registry.released ∧
      ∀ agent, l.table.queue? agent = none → agent ∉ (l.run ms).registry.agents

variable {j : Journal} {number : Nat} {settings : Settings} {l : Lifetime} {m : LifeMove}

/-! ## What queries go by -/

theorem bare_move_of_isClosing (hm : m.isClosing) : (l.move m).course.bare = l.course.bare := by
  cases m with
  | stop => rfl
  | beginClose =>
      rw [move]
      split
      · rfl
      · exact Course.bare_release _
  | endClose => exact Course.bare_release _
  | drop => exact Course.bare_release _
  | take | deliver | failCloses | failReleases | refuseQueues => cases hm

/-- A move that is no step of a query leaves all that queries go by, once tail ingestion was told to
stop. -/
theorem bare_move_of_query?_none (hshutDown : l.isShutDown) (hm : l.Allows m)
    (hquery : m.query? = none) : (l.move m).course.bare = l.course.bare := by
  cases m with
  | take m =>
      have hticket : m.ticket? = none := by simpa [LifeMove.query?] using hquery
      cases m with
      | handle => exact congrArg Course.bare (Course.move_handle_of_isShutDown hshutDown)
      | deliver | shutDown | stop | release => cases hm.1
      | ask | resume | expire | withdraw | answer => cases hticket
  | stop | beginClose | endClose | drop => exact bare_move_of_isClosing rfl
  | deliver | failCloses | failReleases | refuseQueues => rfl

theorem move_of_query? {n : Move} (hquery : m.query? = some n) :
    n.ticket?.isSome ∧ (l.move m).course = l.course.move n := by
  cases m with
  | take m =>
      rw [LifeMove.query?] at hquery
      split at hquery
      · next hticket =>
          obtain rfl := Option.some.inj hquery
          exact ⟨hticket, rfl⟩
      · cases hquery
  | _ => cases hquery

/-! ## After tail ingestion was told to stop -/

theorem frozen_move {c₀ : Course} (h : c₀.Frozen l.course) (hs : l.course.Sound)
    (hm : l.Allows m) : c₀.Frozen (l.move m).course := by
  cases m with
  | take m => exact h.step (Course.step_move hs hm.2)
  | deliver r => exact h.step (.delivers r)
  | stop => exact h.step .stops
  | beginClose =>
      rw [Lifetime.move]
      split
      · exact h.step .shutsDown
      · exact (h.step .shutsDown).step .releases
  | endClose => exact h.step .releases
  | drop => exact ((h.step .shutsDown).step .stops).step .releases
  | failCloses | failReleases | refuseQueues =>
      exact ⟨h.isShutDown, h.handled, h.counted, h.highest⟩

theorem run_frozen {c₀ : Course} (h : c₀.Frozen l.course) (ho : l.Ordered j) {ms : List LifeMove}
    (hms : l.AllowsAll ms) : c₀.Frozen (l.run ms).course ∧ (l.run ms).Ordered j := by
  induction ms generalizing l with
  | nil => exact ⟨h, ho⟩
  | cons m ms ih => exact ih (frozen_move h ho.sound hms.1) (ho.move hms.1) hms.2

/-- Queries go on with nobody else. -/
theorem run_bare_eq (h : l.Ordered j) (hshutDown : l.isShutDown) {ms : List LifeMove}
    (hms : l.AllowsAll ms) :
    (l.run ms).course.bare = (l.course.run (ms.filterMap LifeMove.query?)).bare := by
  induction ms generalizing l with
  | nil => rfl
  | cons m ms ih =>
      have hfrozen := frozen_move (Course.frozen_self hshutDown) h.sound hms.1
      have hrest := ih (h.move hms.1) hfrozen.isShutDown hms.2
      change ((l.move m).run ms).course.bare = _
      rw [hrest]
      cases hquery : m.query? with
      | some n =>
          rw [List.filterMap_cons_some hquery, (move_of_query? hquery).2]
          rfl
      | none =>
          have htickets : ∀ n ∈ ms.filterMap LifeMove.query?, n.ticket?.isSome := by
            intro n hn
            obtain ⟨m, -, hm⟩ := List.mem_filterMap.1 hn
            exact (move_of_query? (l := l) hm).1
          rw [List.filterMap_cons_none hquery, ← Course.run_bare _ htickets,
            bare_move_of_query?_none hshutDown hms.1 hquery, Course.run_bare _ htickets]

/-! ## After the registrations were released -/

/-- Nothing is registered or released after what the registry `r₀` says. -/
def Settled (r₀ : Registry) (l : Lifetime) : Prop := l.table.Settled r₀ l.registry

variable {r₀ : Registry}

theorem Settled.move (h : l.Settled r₀) (hs : l.course.Sound) (hm : l.Allows m) :
    (l.move m).Settled r₀ := by
  cases m with
  | take m => exact (Course.step_move hs hm.2).settled h
  | beginClose =>
      rw [Lifetime.move]
      split
      · exact h
      · exact AgentTable.Settled.release h
  | endClose | drop => exact AgentTable.Settled.release h
  | deliver | stop | failCloses => exact h
  | failReleases | refuseQueues =>
      exact ⟨h.isReleased, h.registrations, h.listings, h.released⟩

theorem run_settled (h : l.Settled r₀) (ho : l.Ordered j) {ms : List LifeMove}
    (hms : l.AllowsAll ms) : (l.run ms).Settled r₀ := by
  induction ms generalizing l with
  | nil => exact h
  | cons m ms ih => exact ih (h.move ho.sound hms.1) (ho.move hms.1) hms.2

/-! ## The promise -/

theorem closes_once (h : Reachable j number settings l) : l.ClosesOnce j where
  closes := h.ordered.closes
  once := by
    intro hdone
    rw [h.ordered.closes, h.ordered.told (.inr hdone), if_pos rfl]
  handled := h.ordered.handled
  frozen := by
    intro hshutDown ms hms
    obtain ⟨hfrozen, ho⟩ := run_frozen (Course.frozen_self hshutDown) h.ordered hms
    refine ⟨?_, hfrozen.handled, hfrozen.counted, hfrozen.highest⟩
    have hshutDown' : (l.run ms).isShutDown := hfrozen.isShutDown
    rw [ho.closes, h.ordered.closes, hshutDown', hshutDown]
  lossless := by
    intro m hm
    have hbare := bare_move_of_isClosing (l := l) hm
    have hholdings := congrArg (fun c => c.cache.holdings) hbare
    exact ⟨congrArg (fun s => s.table.queues) hholdings, congrArg (fun s => s.coverage) hholdings,
      hbare⟩
  goesOn := fun hshutDown _ hms => run_bare_eq h.ordered hshutDown hms
  covered := by
    intro q low hm hlow hle
    refine ⟨_, l.course.queue?_or q.agent, ?_⟩
    rw [Course.Returns, Course.move_ask_atOnce h.ordered.sound hm (.covered hlow hle)]
  fetches := by
    intro q low hnil hlow hlt
    rw [Course.move_ask_of_free h.ordered.sound hlow hlt
      (h.ordered.sound.holder_of_pending_nil hnil)]
    rfl
  answered := fun _ _ hq hholder => h.ordered.sound.backfills h.ordered.ready hq hholder
  released := fun hdone => (h.ordered.enrolled.released (h.ordered.done hdone)).2
  settled := by
    intro hdone ms hms
    have hsettled := run_settled (h.ordered.enrolled.settled (h.ordered.done hdone)) h.ordered hms
    refine ⟨hsettled.listings, hsettled.released, ?_⟩
    intro agent hnone hagent
    rw [Registry.agents, hsettled.listings] at hagent
    have hsome := h.ordered.enrolled.known agent hagent
    rw [hnone] at hsome
    cases hsome

/-- While a query fetches, a second closing is done before the first one, though the journal and the
registry fail. The query then brings an agent that is new, and the cache is dropped. -/
def busyClosing : List LifeMove :=
  [.deliver (.message (Sample.message .zero 10 "a" .add)), .take .handle, .take (.ask ⟨1, "b", 5⟩),
    .deliver (.message (Sample.message .zero 11 "a" .add)), .failCloses true, .failReleases true,
    .beginClose, .beginClose, .stop, .endClose,
    .take (.answer 1 (.ok [Sample.message .zero 6 "b" .add])), .drop]

theorem closes_once_busyClosing :
    ((start .empty 0 .standard).run busyClosing).ClosesOnce .empty ∧
      ((start .empty 0 .standard).run busyClosing).journal.closes = 1 ∧
      ((start .empty 0 .standard).run busyClosing).course.handled.length = 1 ∧
      ((start .empty 0 .standard).run busyClosing).registry.released = ["a"] ∧
      ((start .empty 0 .standard).run busyClosing).table.agents = ["a", "b"] :=
  ⟨closes_once (Reachable.start.run (by decide)), by decide, by decide, by decide, by decide⟩

end Lifetime

end JournalCache

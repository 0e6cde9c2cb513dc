import JournalCache.Proofs.Course.Patience

/-!
# Overlapping queries as if one after another

The ends of a course, taken in order, tell another course: each query that returned is asked again
when nobody else is under way and is given the same reply of the journal, each record is handled
when it was handled. If nobody was timed out and the tail came in order, the two courses cannot be
told apart by what the queries returned, by what is held and by what was reported. What carries
this is that a fetch still ends where the lowest mark stands when its answer comes, so asked anew it
is the same fetch.
-/

namespace JournalCache

def Call.isAnswered (k : Call) : Bool :=
  match k.state with
  | .answered _ => true
  | _ => false

/-- The moves that bring an end about when nothing else is under way. -/
def Deed.moves : Deed → List Move
  | .returned q none _ => [.ask q]
  | .returned q (some reply) _ => [.ask q, .answer q.ticket reply]
  | .handled r => [.deliver r, .handle]
  | .released => [.release]

namespace Course

section

variable (number : Nat) (settings : Settings) (registry : Registry)

/-- The course in which ends are brought about one after another. -/
def serial (ds : List Deed) : Course := (start number settings registry).run (ds.flatMap Deed.moves)

/-- A course is as if its ends had been brought about one after another. -/
structure Serializable (c : Course) : Prop where
  allowed : (start number settings registry).AllowsAll (c.deeds.flatMap Deed.moves)
  /-- Nobody is under way between two ends, and each query returns what it returned. -/
  oneByOne : ∀ ds, ds <+: c.deeds →
    (serial number settings registry ds).pending = [] ∧
      (serial number settings registry ds).deeds = ds
  holdings : (serial number settings registry c.deeds).cache.holdings = c.cache.holdings
  outlet : (serial number settings registry c.deeds).outlet = c.outlet
  answered : (serial number settings registry c.deeds).calls = c.calls.filter Call.isAnswered
  calls : c.pending = [] → (∀ k ∈ c.calls, k.state ≠ .abandoned) →
    (serial number settings registry c.deeds).calls = c.calls

end

/-! ## The course that mirrors another -/

/-- Nothing is under way in `s`, which holds and reported what `c` does. -/
structure Mirrors (c s : Course) : Prop where
  sound : s.Sound
  holdings : s.cache.holdings = c.cache.holdings
  outlet : s.outlet = c.outlet
  deeds : s.deeds = c.deeds
  calls : s.calls = c.calls.filter Call.isAnswered
  right : s.cache.right = .free
  inbox : s.cache.inbox = []
  isFollowing : s.cache.isFollowing = true
  isShutDown : s.cache.isShutDown = false

variable {c d s : Course}

namespace Mirrors

theorem pending (h : Mirrors c s) : s.pending = [] :=
  h.sound.pending_of_free (by rw [h.right]; rfl)

theorem fresh (h : Mirrors c s) (q : Query) : ∀ p ∈ s.pending, p.ticket ≠ q.ticket := by
  simp [h.pending]

theorem lowest? (h : Mirrors c s) : s.lowest? = c.lowest? := by
  rw [Course.lowest?, Cache.lowest?, h.holdings]
  rfl

theorem queue (h : Mirrors c s) (agent : String) : s.cache.queue agent = c.cache.queue agent := by
  rw [Cache.queue, h.holdings]
  rfl

theorem not_outstanding (h : Mirrors c s) : ∀ k ∈ s.calls, k.state ≠ .outstanding := by
  rw [h.calls]
  intro k hk hstate
  have hanswered := (List.mem_filter.1 hk).2
  rw [Call.isAnswered, hstate] at hanswered
  cases hanswered

theorem atOnce (h : Mirrors c s) {q : Query} {result : Except Fault (Queue Item)}
    (hresult : c.AtOnce q result) : s.AtOnce q result := by
  cases hresult with
  | notReady hlow => exact .notReady (h.lowest?.trans hlow)
  | covered hlow hq =>
      rw [← h.queue]
      exact .covered (h.lowest?.trans hlow) hq

/-- A query that needs no fetch is mirrored by one that is asked and returns. -/
theorem ask (h : Mirrors c s) {q : Query} {result : Except Fault (Queue Item)}
    (hresult : c.AtOnce q result) (hholdings : d.cache.holdings = c.cache.holdings)
    (houtlet : d.outlet = c.outlet) (hdeeds : d.deeds = c.deeds ++ [.returned q none result])
    (hcalls : d.calls = c.calls) :
    s.AllowsAll [.ask q] ∧ Mirrors d (s.run [.ask q]) := by
  have hallowed : s.AllowsAll [.ask q] := ⟨h.fresh q, trivial⟩
  have hrun : s.run [.ask q] = { s with deeds := s.deeds ++ [.returned q none result] } :=
    move_ask_atOnce h.sound (h.fresh q) (h.atOnce hresult)
  refine ⟨hallowed, ?_⟩
  have hsound := h.sound.run hallowed
  rw [hrun] at hsound ⊢
  exact
    { h with
      sound := hsound
      holdings := h.holdings.trans hholdings.symm
      outlet := h.outlet.trans houtlet.symm
      deeds := by rw [hdeeds, ← h.deeds]
      calls := by rw [hcalls, ← h.calls] }

/-- A query that needs a fetch makes the same call when nobody else is under way. -/
theorem run_ask (h : Mirrors c s) {q : Query} {low : Offset} (hlow : c.lowest? = some low)
    (hlt : q.requested < low) : s.run [.ask q] = s.beginFetch q [] low :=
  move_ask_of_free h.sound (h.lowest?.trans hlow) hlt (by rw [h.right]; rfl)

theorem allowsAll_fetch (h : Mirrors c s) (q : Query) (reply : FetchReply) :
    s.AllowsAll [.ask q, .answer q.ticket reply] := ⟨h.fresh q, trivial, trivial⟩

theorem sound_beginFetch (h : Mirrors c s) {q : Query} {low : Offset}
    (hlow : c.lowest? = some low) (hlt : q.requested < low) : (s.beginFetch q [] low).Sound :=
  h.run_ask hlow hlt ▸ h.sound.run ⟨h.fresh q, trivial⟩

theorem run_answer (h : Mirrors c s) {q : Query} {low : Offset} (hlow : c.lowest? = some low)
    (hlt : q.requested < low) (reply : FetchReply) :
    s.run [.ask q, .answer q.ticket reply] =
      (s.beginFetch q [] low).move (.answer q.ticket reply) := by
  rw [← h.run_ask hlow hlt]
  rfl

/-- When the fetch is over nobody waits for the right. -/
theorem passOn_beginFetch (h : Mirrors c s) (q : Query) (low : Offset) :
    (s.beginFetch q [] low).cache.right.passOn = .free := by
  apply FetchRight.passOn_of_waiting_nil
  change s.cache.right.waiting = []
  rw [h.right]
  rfl

theorem calls_answered (h : Mirrors c s) {f : Fetch} {past : List Call}
    (hcalls : c.calls = past ++ [⟨f, .outstanding⟩]) (reply : FetchReply) :
    s.calls ++ [⟨f, .answered reply⟩] =
      (past ++ [(⟨f, .answered reply⟩ : Call)]).filter Call.isAnswered := by
  rw [h.calls, hcalls]
  simp [List.filter_append, List.filter_cons, Call.isAnswered]

theorem succeed (h : Mirrors c s) {q : Query} {rest : List Query} {low : Offset}
    {past : List Call} (hlow : c.lowest? = some low) (hlt : q.requested < low)
    (hcalls : c.calls = past ++ [⟨⟨q.ticket, q.requested, low⟩, .outstanding⟩])
    (batch : List Message) :
    s.AllowsAll [.ask q, .answer q.ticket (.ok batch)] ∧
      Mirrors (c.succeed q rest low past batch) (s.run [.ask q, .answer q.ticket (.ok batch)]) := by
  have hallowed := h.allowsAll_fetch q (.ok batch)
  have hmove := move_answer_ok (h.sound_beginFetch hlow hlt) rfl rfl rfl h.not_outstanding batch
  have hbackfill : s.cache.holdings.backfill s.outlet batch q.requested =
      c.cache.holdings.backfill c.outlet batch q.requested := by rw [h.holdings, h.outlet]
  have hsound := h.sound.run hallowed
  refine ⟨hallowed, ?_⟩
  rw [h.run_answer hlow hlt, hmove] at hsound ⊢
  exact
    { sound := hsound
      holdings := congrArg Prod.fst hbackfill
      outlet := congrArg Prod.snd hbackfill
      deeds := by
        change s.deeds ++ [Deed.returned q (some (.ok batch)) (.ok
          ((s.cache.holdings.backfill s.outlet batch q.requested).1.table.queue q.agent))] = _
        rw [hbackfill, h.deeds]
        rfl
      calls := h.calls_answered hcalls _
      right := h.passOn_beginFetch q low
      inbox := h.inbox
      isFollowing := h.isFollowing
      isShutDown := h.isShutDown }

theorem fail (h : Mirrors c s) {q : Query} {rest : List Query} {low : Offset}
    {past : List Call} (hlow : c.lowest? = some low) (hlt : q.requested < low)
    (hcalls : c.calls = past ++ [⟨⟨q.ticket, q.requested, low⟩, .outstanding⟩]) (e : Fault) :
    s.AllowsAll [.ask q, .answer q.ticket (.error e)] ∧
      Mirrors (c.fail q rest low past e) (s.run [.ask q, .answer q.ticket (.error e)]) := by
  have hallowed := h.allowsAll_fetch q (.error e)
  have hmove := move_answer_error (h.sound_beginFetch hlow hlt) rfl rfl rfl h.not_outstanding e
  have hsound := h.sound.run hallowed
  refine ⟨hallowed, ?_⟩
  rw [h.run_answer hlow hlt, hmove] at hsound ⊢
  exact
    { sound := hsound
      holdings := h.holdings
      outlet := h.outlet
      deeds := congrArg (· ++ [_]) h.deeds
      calls := h.calls_answered hcalls _
      right := h.passOn_beginFetch q low
      inbox := h.inbox
      isFollowing := h.isFollowing
      isShutDown := h.isShutDown }

theorem takeIn (h : Mirrors c s) (r : Delivery) (rs : List Delivery) :
    s.AllowsAll [.deliver r, .handle] ∧
      Mirrors (c.takeIn r rs) (s.run [.deliver r, .handle]) := by
  have hallowed : s.AllowsAll [.deliver r, .handle] := ⟨trivial, trivial, trivial⟩
  have hinbox : (s.move (.deliver r)).cache.inbox = [r] := by
    change s.cache.inbox ++ [r] = [r]
    rw [h.inbox, List.nil_append]
  have hrun : s.run [.deliver r, .handle] = (s.move (.deliver r)).takeIn r [] :=
    move_handle hinbox h.isFollowing h.isShutDown
  have hingest : s.cache.holdings.ingest s.outlet r = c.cache.holdings.ingest c.outlet r := by
    rw [h.holdings, h.outlet]
  have hsound := h.sound.run hallowed
  refine ⟨hallowed, ?_⟩
  rw [hrun] at hsound ⊢
  exact
    { sound := hsound
      holdings := congrArg Prod.fst hingest
      outlet := congrArg Prod.snd hingest
      deeds := congrArg (· ++ [_]) h.deeds
      calls := h.calls
      right := h.right
      inbox := rfl
      isFollowing := h.isFollowing
      isShutDown := h.isShutDown }

theorem release (h : Mirrors c s) :
    s.AllowsAll [.release] ∧ Mirrors (c.move .release) (s.run [.release]) := by
  have hallowed : s.AllowsAll [.release] := ⟨trivial, trivial⟩
  have hrelease : s.cache.holdings.table.release s.outlet.registry =
      c.cache.holdings.table.release c.outlet.registry := by rw [h.holdings, h.outlet]
  refine ⟨hallowed, ?_⟩
  exact
    { sound := h.sound.run hallowed
      holdings := by
        change { s.cache.holdings with
          table := (s.cache.holdings.table.release s.outlet.registry).1 } = _
        rw [hrelease, h.holdings]
        rfl
      outlet := by
        change { s.outlet with
          registry := (s.cache.holdings.table.release s.outlet.registry).2 } = _
        rw [hrelease, h.outlet]
        rfl
      deeds := congrArg (· ++ [_]) h.deeds
      calls := h.calls
      right := h.right
      inbox := h.inbox
      isFollowing := h.isFollowing
      isShutDown := h.isShutDown }

/-- A step that brings nothing about and leaves the answered calls is not mirrored. -/
theorem stay (h : Mirrors c s) (hholdings : d.cache.holdings = c.cache.holdings)
    (houtlet : d.outlet = c.outlet) (hdeeds : d.deeds = c.deeds)
    (hcalls : d.calls.filter Call.isAnswered = c.calls.filter Call.isAnswered) : Mirrors d s :=
  { h with
    holdings := h.holdings.trans hholdings.symm
    outlet := h.outlet.trans houtlet.symm
    deeds := h.deeds.trans hdeeds.symm
    calls := h.calls.trans hcalls.symm }

end Mirrors

/-! ## Every course -/

theorem Step.timeouts_le (h : c.Step m d) :
    c.cache.activity.timeouts ≤ d.cache.activity.timeouts := by
  cases h with
  | expires => exact Nat.le_succ _
  | _ => exact Nat.le_refl _

theorem filter_isAnswered_concat {past : List Call} {f : Fetch} {state : CallState}
    (hcalls : c.calls = past ++ [⟨f, .outstanding⟩])
    (hstate : (⟨f, state⟩ : Call).isAnswered = false) :
    (past ++ [(⟨f, state⟩ : Call)]).filter Call.isAnswered = c.calls.filter Call.isAnswered := by
  have hnone : [(⟨f, state⟩ : Call)].filter Call.isAnswered = [] := by simp [hstate]
  rw [hcalls, List.filter_append, List.filter_append, hnone]
  rfl

variable {number : Nat} {settings : Settings} {registry : Registry}

/-- A query that skips finds its offset covered: the cache met a record before it waited. -/
theorem Reachable.atOnce_of_skips (h : Reachable number settings registry c) {q : Query}
    (hq : q ∈ c.pending) (hcovered : ∀ low, c.lowest? = some low → low ≤ q.requested) :
    c.AtOnce q (.ok (c.cache.queue q.agent)) := by
  have hlow : c.lowest? = some c.lowMark :=
    lowest?_eq_some.2 ⟨rfl, (h.requested_ne_reserved q hq).1⟩
  exact .covered hlow (hcovered _ hlow)

/-- A fetch whose answer comes is still the fetch for what is missing below the lowest mark. -/
theorem Reachable.fetch_of_outstanding (h : Reachable number settings registry c)
    (hinc : c.TailIncreases) {q : Query} {upTo : Offset} {past : List Call} (hq : q ∈ c.pending)
    (hcalls : c.calls = past ++ [⟨⟨q.ticket, q.requested, upTo⟩, .outstanding⟩]) :
    c.lowest? = some upTo ∧ q.requested < upTo := by
  have hmem : (⟨⟨q.ticket, q.requested, upTo⟩, .outstanding⟩ : Call) ∈ c.calls := by simp [hcalls]
  have hupTo : upTo = c.lowMark := h.upTo_eq_lowMark hinc _ hmem rfl
  have hne : upTo ≠ reservedOffset := hupTo ▸ (h.requested_ne_reserved q hq).1
  exact ⟨lowest?_eq_some.2 ⟨hupTo.symm, hne⟩, h.descending.nonempty _ hmem⟩

/-- Each step is mirrored by what it brings about, if anything. -/
theorem Mirrors.step (h : Mirrors c s) (hc : Reachable number settings registry c)
    (hstep : c.Step m d) (hinc : d.TailIncreases) (htimeouts : d.cache.activity.timeouts = 0) :
    ∃ ds, d.deeds = c.deeds ++ ds ∧ ds.length ≤ 1 ∧ s.AllowsAll (ds.flatMap Deed.moves) ∧
      Mirrors d (s.run (ds.flatMap Deed.moves)) := by
  have hstays : d.deeds = c.deeds → Mirrors d s → ∃ ds, d.deeds = c.deeds ++ ds ∧
      ds.length ≤ 1 ∧ s.AllowsAll (ds.flatMap Deed.moves) ∧
      Mirrors d (s.run (ds.flatMap Deed.moves)) :=
    fun hdeeds hd => ⟨[], by rw [hdeeds, List.append_nil], Nat.zero_le _, trivial, hd⟩
  have hincc := hstep.tailIncreases hinc
  cases hstep with
  | returnsAtOnce hresult =>
      exact ⟨[_], rfl, Nat.le_refl _, h.ask hresult rfl rfl rfl rfl⟩
  | @skips q rest _ hpending hcovered =>
      have hresult := hc.atOnce_of_skips (hpending ▸ List.mem_cons_self) hcovered
      exact ⟨[_], rfl, Nat.le_refl _, h.ask hresult rfl rfl rfl rfl⟩
  | expires => cases htimeouts
  | succeeds _ hpending hcalls =>
      obtain ⟨hlow, hlt⟩ :=
        hc.fetch_of_outstanding hincc (hpending ▸ List.mem_cons_self) hcalls
      exact ⟨[_], rfl, Nat.le_refl _, h.succeed hlow hlt hcalls _⟩
  | fails _ hpending hcalls =>
      obtain ⟨hlow, hlt⟩ :=
        hc.fetch_of_outstanding hincc (hpending ▸ List.mem_cons_self) hcalls
      exact ⟨[_], rfl, Nat.le_refl _, h.fail hlow hlt hcalls _⟩
  | handles => exact ⟨[_], rfl, Nat.le_refl _, h.takeIn _ _⟩
  | releases => exact ⟨[_], rfl, Nat.le_refl _, h.release⟩
  | fetches =>
      refine hstays rfl (h.stay rfl rfl rfl ?_)
      simp [beginFetch, Call.isAnswered]
  | leavesFetch _ _ hcalls =>
      exact hstays rfl (h.stay rfl rfl rfl (filter_isAnswered_concat hcalls rfl))
  | _ => exact hstays rfl (h.stay rfl rfl rfl rfl)

theorem serial_append (ds es : List Deed) :
    serial number settings registry (ds ++ es) =
      (serial number settings registry ds).run (es.flatMap Deed.moves) := by
  rw [serial, List.flatMap_append, run_append]
  rfl

theorem mirrors_start :
    Mirrors (start number settings registry) (start number settings registry) where
  sound := sound_start
  holdings := rfl
  outlet := rfl
  deeds := rfl
  calls := rfl
  right := rfl
  inbox := rfl
  isFollowing := rfl
  isShutDown := rfl

theorem Reachable.mirrors (h : Reachable number settings registry c)
    (htimeouts : c.cache.activity.timeouts = 0) (hinc : c.TailIncreases) :
    (Course.start number settings registry).AllowsAll (c.deeds.flatMap Deed.moves) ∧
      Mirrors c (serial number settings registry c.deeds) ∧
      ∀ ds, ds <+: c.deeds → (serial number settings registry ds).pending = [] ∧
        (serial number settings registry ds).deeds = ds := by
  induction h with
  | start =>
      refine ⟨trivial, mirrors_start, fun ds hds => ?_⟩
      obtain rfl : ds = [] := List.prefix_nil.1 hds
      exact ⟨rfl, rfl⟩
  | @move c hc m hm ih =>
      have hstep := hc.step hm
      have htimeoutsc : c.cache.activity.timeouts = 0 :=
        Nat.le_zero.1 (htimeouts ▸ hstep.timeouts_le)
      obtain ⟨hallowed, hmirrors, hprefix⟩ := ih htimeoutsc (hstep.tailIncreases hinc)
      obtain ⟨ds, hds, hlength, hallowed', hmirrors'⟩ := hmirrors.step hc hstep hinc htimeouts
      rw [← serial_append, ← hds] at hmirrors'
      refine ⟨?_, hmirrors', ?_⟩
      · rw [hds, List.flatMap_append, allowsAll_append]
        exact ⟨hallowed, hallowed'⟩
      · intro es hes
        by_cases hall : es = (c.move m).deeds
        · rw [hall]
          exact ⟨hmirrors'.pending, hmirrors'.deeds⟩
        · cases ds with
          | nil =>
              rw [hds, List.append_nil] at hes
              exact hprefix es hes
          | cons x xs =>
              have hxs : xs.length ≤ 0 := Nat.le_of_succ_le_succ hlength
              obtain rfl : xs = [] := List.length_eq_zero_iff.1 (Nat.le_zero.1 hxs)
              rw [hds] at hes hall
              exact hprefix es ((List.prefix_concat_iff.1 hes).resolve_left hall)

/-- Overlapping queries are as good as queries that come one after another: when nobody was timed
out and the tail came in order, bringing about the same ends one by one gives every query the same
result and leaves the same holdings, reports and calls. -/
theorem serializable (h : Reachable number settings registry c)
    (htimeouts : c.cache.activity.timeouts = 0) (hinc : c.TailIncreases) :
    c.Serializable number settings registry := by
  obtain ⟨hallowed, hmirrors, hprefix⟩ := h.mirrors htimeouts hinc
  refine ⟨hallowed, hprefix, hmirrors.holdings, hmirrors.outlet, hmirrors.calls, ?_⟩
  intro hpending habandoned
  rw [hmirrors.calls, List.filter_eq_self]
  intro k hk
  have houtstanding : k.state ≠ .outstanding := by
    intro hstate
    obtain ⟨f, hholder, -⟩ := h.sound.holder_of_awaits hk (t := k.fetch.ticket)
      (by simp [Call.awaits, hstate])
    obtain ⟨q, rest, hcons, -⟩ := h.sound.pending_of_holder hholder
    rw [hpending] at hcons
    cases hcons
  unfold Call.isAnswered
  cases hstate : k.state with
  | outstanding => exact absurd hstate houtstanding
  | answered => rfl
  | abandoned => exact absurd hstate (habandoned k hk)

/-- Three queries overlap: one fetches, one finds its offset covered when its turn comes, and one
fetches older records and fails; a record of the tail comes in between. -/
def crowded : List Move :=
  [.deliver (Sample.marker .zero 10), .handle, .ask ⟨1, "a", 5⟩, .ask ⟨2, "a", 7⟩,
    .ask ⟨3, "b", 2⟩, .deliver (.message (Sample.message .zero 11 "b" .add)), .handle,
    .answer 1 (.ok (Sample.messages .zero "a" [5, 8])), .resume 2, .resume 3,
    .answer 3 (.error (.fetchFailed 2 5 "unavailable"))]

theorem serializable_crowded :
    ((start 0 .standard .empty).run crowded).Serializable 0 .standard .empty ∧
      ((start 0 .standard .empty).run crowded).calls.map (·.fetch) = [⟨1, 5, 10⟩, ⟨3, 2, 5⟩] :=
  ⟨serializable (Reachable.start.run (by decide)) (by decide)
    (by unfold TailIncreases; decide), by decide⟩

end Course

end JournalCache

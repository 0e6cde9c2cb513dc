import JournalCache.Journal.Sample
import JournalCache.Proofs.Course.Bystanders
import JournalCache.Proofs.Course.Patience

/-!
# What becomes of a query

A query is followed from its call on, through the moves of all parties, until it returns. While it
is under way it stands in one of two ways: it has made no call and counted nothing, or it holds the
right, its one call is outstanding and one fetch was counted (`Underway`). Each of its own moves but
the answer that succeeds leaves alone what the cache holds and what was reported. So a query that
fails leaves nothing behind but a count and a call, and since it does not keep the right, it may be
asked again.
-/

namespace JournalCache

namespace Course

/-! ## From the call of a query to its return -/

/-- In a move a query returns. The reply of the journal to its call is absent if it made none. -/
def Returns (c : Course) (m : Move) (q : Query) (reply : Option FetchReply)
    (result : Except Fault (Queue Item)) : Prop :=
  (c.move m).deeds = c.deeds ++ [.returned q reply result]

structure Stride where
  before : Course
  move : Move

def Stride.after (s : Stride) : Course := s.before.move s.move

/-- A query that was called in `c` is under way in `d`, with the moves made since. -/
inductive Visit (c : Course) (q : Query) : List Stride → Course → Prop where
  | calls (hm : c.Allows (.ask q)) (hq : q ∈ (c.move (.ask q)).pending) :
      Visit c q [⟨c, .ask q⟩] (c.move (.ask q))
  | goesOn {made : List Stride} {d : Course} (h : Visit c q made d) {m : Move} (hm : d.Allows m)
      (hq : q ∈ (d.move m).pending) : Visit c q (made ++ [⟨d, m⟩]) (d.move m)

/-- A query that was called in `c` returns, at once or after it was under way for some moves. -/
inductive Ends (c : Course) (q : Query) (reply : Option FetchReply)
    (result : Except Fault (Queue Item)) : List Stride → Course → Prop where
  | atOnce (hm : c.Allows (.ask q)) (hreturns : c.Returns (.ask q) q reply result) :
      Ends c q reply result [⟨c, .ask q⟩] (c.move (.ask q))
  | later {made : List Stride} {d : Course} (h : Visit c q made d) {m : Move} (hm : d.Allows m)
      (hreturns : d.Returns m q reply result) :
      Ends c q reply result (made ++ [⟨d, m⟩]) (d.move m)

def own (q : Query) (made : List Stride) : List Stride :=
  made.filter fun s => s.move.ticket? = some q.ticket

/-- The moves in which a query counted something. -/
def counted (q : Query) (made : List Stride) : List Stride :=
  (own q made).filter fun s => s.after.cache.activity ≠ s.before.cache.activity

/-- Beside the counters and the right to fetch, a move changes nothing of the cache, and it reports
nothing. -/
structure Stride.Quiet (s : Stride) : Prop where
  cache : { s.after.cache with
    activity := s.before.cache.activity, right := s.before.cache.right } = s.before.cache
  outlet : s.after.outlet = s.before.outlet

end Course

namespace Activity

/-- One thing more that a query does was counted. -/
def OneMore (a b : Activity) : Prop :=
  b = { a with fetches := a.fetches + 1 } ∨ b = { a with skipped := a.skipped + 1 } ∨
    b = { a with timeouts := a.timeouts + 1 }

theorem OneMore.ne {a b : Activity} (h : a.OneMore b) : b ≠ a := by
  rintro rfl
  rcases h with h | h | h
  · exact absurd (congrArg Activity.fetches h) (Nat.ne_of_lt (Nat.lt_succ_self _))
  · exact absurd (congrArg Activity.skipped h) (Nat.ne_of_lt (Nat.lt_succ_self _))
  · exact absurd (congrArg Activity.timeouts h) (Nat.ne_of_lt (Nat.lt_succ_self _))

end Activity

namespace Course

/-! ## What is promised -/

/-- A query that is asked when nobody else is under way gets what it asks for: at once if its offset
is covered, and else as soon as the journal answers its one call, for what is missing. -/
structure Succeeds (c : Course) (q : Query) (low : Offset) : Prop where
  covered : low ≤ q.requested →
    c.Returns (.ask q) q none (.ok (c.cache.queue q.agent)) ∧ (c.move (.ask q)).calls = c.calls
  fetched : q.requested < low →
    (c.move (.ask q)).calls = c.calls ++ [⟨⟨q.ticket, q.requested, low⟩, .outstanding⟩] ∧
      ∀ made d, c.Visit q made d → ∀ batch,
        (∃ items, d.Returns (.answer q.ticket (.ok batch)) q (some (.ok batch)) (.ok items)) ∧
        (d.move (.answer q.ticket (.ok batch))).callsOf q.ticket = c.callsOf q.ticket ++
          [⟨⟨q.ticket, q.requested, low⟩, .answered (.ok batch)⟩]

/-- What a query that was called in `c` and has returned in `e` got and left behind. -/
structure Outcome (c : Course) (q : Query) (reply : Option FetchReply)
    (result : Except Fault (Queue Item)) (made : List Stride) (e : Course) : Prop where
  /-- It made one call if there is a reply to it, and else none. -/
  calls : ∃ upTo, e.callsOf q.ticket = c.callsOf q.ticket ++
    (reply.map fun r => (⟨⟨q.ticket, q.requested, upTo⟩, .answered r⟩ : Call)).toList
  /-- It is refused exactly if no record was met when it was called, unless the journal refused. -/
  notReady : result = .error .notReady ↔ c.lowest? = none ∨ reply = some (.error .notReady)
  uncalled : c.lowest? = none → reply = none
  ok : ∀ items, result = .ok items → e.Covers q.requested ∧
    (e.cache.holdings.table.queue? q.agent = some items ∨
      e.cache.holdings.table.queue? q.agent = none ∧ items = .empty)
  /-- A failure that is not of the cache is what the journal replied. -/
  failed : ∀ f, result = .error f → f.party ≠ .cache → reply = some (.error f)
  timedOut : ∀ ms, result = .error (.timedOut ms) →
    reply = none ∨ reply = some (.error (.timedOut ms))
  quiet : ∀ f, result = .error f → ∀ s ∈ own q made, s.Quiet
  counted : ∀ f, result = .error f → (counted q made).length ≤ 1 ∧
    ∀ s ∈ Course.counted q made, s.before.cache.activity.OneMore s.after.cache.activity
  /-- It neither has the right to fetch nor waits for it. -/
  leaves : e.cache.right.isHolder q.ticket = false ∧ e.cache.right.isWaiting q.ticket = false
  again : ∀ ms, e.AllowsAll ms → (e.run ms).pending = [] → ∀ low, (e.run ms).lowest? = some low →
    ∀ p : Query, (e.run ms).Succeeds p low

/-! ## The own moves of a query -/

variable {c d e : Course} {m : Move} {q : Query} {made : List Stride}

theorem counted_nil (q : Query) : counted q [] = [] := rfl

theorem own_concat_of_ne (hm : m.ticket? ≠ some q.ticket) :
    own q (made ++ [⟨d, m⟩]) = own q made := by
  rw [own, List.filter_append, List.filter_cons_of_neg (by simpa using hm), List.filter_nil,
    List.append_nil]
  rfl

theorem own_concat (hm : m.ticket? = some q.ticket) :
    own q (made ++ [⟨d, m⟩]) = own q made ++ [⟨d, m⟩] := by
  rw [own, List.filter_append, List.filter_cons_of_pos (by simpa using hm), List.filter_nil]
  rfl

theorem counted_concat_of_ne (hm : m.ticket? ≠ some q.ticket) :
    counted q (made ++ [⟨d, m⟩]) = counted q made := by
  rw [counted, own_concat_of_ne hm]
  rfl

theorem counted_concat_of_eq (made : List Stride)
    (h : (d.move m).cache.activity = d.cache.activity) :
    counted q (made ++ [⟨d, m⟩]) = counted q made := by
  by_cases hm : m.ticket? = some q.ticket
  · rw [counted, own_concat hm, List.filter_append,
      List.filter_cons_of_neg (by simp [Stride.after, h]), List.filter_nil, List.append_nil]
    rfl
  · exact counted_concat_of_ne hm

theorem counted_concat (hm : m.ticket? = some q.ticket)
    (h : (d.move m).cache.activity ≠ d.cache.activity) :
    counted q (made ++ [⟨d, m⟩]) = counted q made ++ [⟨d, m⟩] := by
  rw [counted, own_concat hm, List.filter_append,
    List.filter_cons_of_pos (by simp [Stride.after, h]), List.filter_nil]
  rfl

theorem Sound.ticket_ne_of_mem_rest (hs : c.Sound) {p : Query} {rest : List Query}
    (hpending : c.pending = p :: rest) : ∀ q ∈ rest, q.ticket ≠ p.ticket := by
  have hnodup := hs.nodup
  rw [hpending, List.map_cons, List.nodup_cons] at hnodup
  exact fun q hq hticket => hnodup.1 (List.mem_map.2 ⟨q, hq, hticket⟩)

theorem Sound.notMem_rest (hs : c.Sound) {p : Query} {rest : List Query}
    (hpending : c.pending = p :: rest) (hticket : p.ticket = q.ticket) : q ∉ rest :=
  fun hq => hs.ticket_ne_of_mem_rest hpending q hq hticket.symm

theorem notMem_filter_ticket {qs : List Query} {t : Nat} (h : t = q.ticket) :
    q ∉ qs.filter fun p => p.ticket != t := by
  simp [h]

/-- A query that is under way before and after a move of its own has got the right and begun to
fetch, or nothing happened. -/
theorem Sound.own_move (hs : c.Sound) (hm : c.Allows m) (hq : q ∈ c.pending)
    (hown : m.ticket? = some q.ticket) (hq' : q ∈ (c.move m).pending) :
    c.move m = c ∨ ∃ rest low, c.cache.right.holder = some (.passedTo q.waiter) ∧
      c.lowest? = some low ∧ q.requested < low ∧ c.move m = c.beginFetch q rest low := by
  have hstep := step_move hs hm
  have hfresh : ∀ p, m = .ask p → p.ticket ≠ q.ticket := by
    rintro p rfl heq
    exact hm q hq heq.symm
  generalize c.move m = d at hstep hq'
  have hticket : ∀ {p : Query}, m.ticket? = some p.ticket → p.ticket = q.ticket :=
    fun hp => Option.some.inj (hp.symm.trans hown)
  cases hstep with
  | stays => exact .inl rfl
  | returnsAtOnce => exact absurd (hticket rfl) (hfresh _ rfl)
  | waits => exact absurd (hticket rfl) (hfresh _ rfl)
  | @fetches p rest low _ hpm hturn hlow hlt =>
      rcases hpm with rfl | rfl
      · exact absurd (hticket rfl) (hfresh _ rfl)
      · cases hturn with
        | free _ hpending => rw [hpending] at hq; cases hq
        | passed hholder hpending =>
            obtain rfl : q = p := by
              rw [hpending] at hq
              exact (List.mem_cons.1 hq).resolve_right (hs.notMem_rest hpending (hticket rfl))
            exact .inr ⟨rest, low, hholder, hlow, hlt, rfl⟩
  | skips _ hpending => exact absurd hq' (hs.notMem_rest hpending (hticket rfl))
  | expires => exact absurd hq' (notMem_filter_ticket (hticket rfl))
  | leavesLine => exact absurd hq' (notMem_filter_ticket (hticket rfl))
  | leavesRight _ hpending => exact absurd hq' (hs.notMem_rest hpending (hticket rfl))
  | leavesFetch _ hpending => exact absurd hq' (hs.notMem_rest hpending (hticket rfl))
  | succeeds _ hpending => exact absurd hq' (hs.notMem_rest hpending (hticket rfl))
  | fails _ hpending => exact absurd hq' (hs.notMem_rest hpending (hticket rfl))
  | delivers | handles | shutsDown | stops | releases => cases hown

/-! ## How a query under way stands -/

/-- The query waits for the right: it made no call and counted nothing. -/
structure Waiting (c : Course) (q : Query) (made : List Stride) (d : Course) : Prop where
  calls : d.callsOf q.ticket = c.callsOf q.ticket
  counted : counted q made = []
  holder : ∀ f, d.cache.right.holder = some (.fetching f) → f.ticket ≠ q.ticket

/-- The query fetches: its one call is outstanding, and it counted that. -/
structure Fetching (c : Course) (q : Query) (upTo : Offset) (made : List Stride) (d : Course) :
    Prop where
  calls : d.callsOf q.ticket =
    c.callsOf q.ticket ++ [⟨⟨q.ticket, q.requested, upTo⟩, .outstanding⟩]
  counted : ∃ s, counted q made = [s] ∧ s.before.cache.activity.OneMore s.after.cache.activity
  holder : d.cache.right.holder = some (.fetching ⟨q.ticket, q.requested, upTo⟩)

theorem oneMore_beginFetch (c : Course) (q : Query) (rest : List Query) (low : Offset) :
    c.cache.activity.OneMore (c.beginFetch q rest low).cache.activity := .inl rfl

theorem callsOf_beginFetch (c : Course) (q : Query) (rest : List Query) (low : Offset) :
    (c.beginFetch q rest low).callsOf q.ticket =
      c.callsOf q.ticket ++ [⟨⟨q.ticket, q.requested, low⟩, .outstanding⟩] := by
  have hcalls : (c.beginFetch q rest low).calls =
      c.calls ++ [⟨⟨q.ticket, q.requested, low⟩, .outstanding⟩] := rfl
  rw [callsOf_concat hcalls, if_pos rfl]
  rfl

theorem quiet_beginFetch {rest : List Query} {low : Offset}
    (h : d.move m = d.beginFetch q rest low) : Stride.Quiet ⟨d, m⟩ := by
  constructor
  · rw [Stride.after, h]
    rfl
  · rw [Stride.after, h]
    rfl

theorem quiet_nil (q : Query) : ∀ s ∈ own q [], s.Quiet := by simp [own]

theorem quiet_concat (hmade : ∀ s ∈ own q made, s.Quiet)
    (hlast : m.ticket? = some q.ticket → Stride.Quiet ⟨d, m⟩) :
    ∀ s ∈ own q (made ++ [⟨d, m⟩]), s.Quiet := by
  by_cases hown : m.ticket? = some q.ticket
  · rw [own_concat hown]
    intro s hs
    rcases List.mem_append.1 hs with hs | hs
    · exact hmade s hs
    · obtain rfl := List.mem_singleton.1 hs
      exact hlast hown
  · rw [own_concat_of_ne hown]
    exact hmade

theorem fetching_of_beginFetch {rest : List Query} {low : Offset} (hcounted : counted q made = [])
    (hcalls : d.callsOf q.ticket = c.callsOf q.ticket) (hown : m.ticket? = some q.ticket)
    (h : d.move m = d.beginFetch q rest low) :
    c.Fetching q low (made ++ [⟨d, m⟩]) (d.move m) := by
  have hmore := oneMore_beginFetch d q rest low
  refine ⟨?_, ⟨⟨d, m⟩, ?_, ?_⟩, ?_⟩
  · rw [h, callsOf_beginFetch, hcalls]
  · rw [counted_concat hown (h ▸ hmore.ne), hcounted]
    rfl
  · rw [Stride.after, h]
    exact hmore
  · rw [h]
    rfl

/-- A query that waits goes on waiting, or gets the right and fetches. -/
theorem Waiting.goesOn (h : c.Waiting q made d) (hs : d.Sound) (hm : d.Allows m)
    (hq : q ∈ d.pending) (hq' : q ∈ (d.move m).pending) :
    c.Waiting q (made ++ [⟨d, m⟩]) (d.move m) ∨
      ∃ upTo, c.Fetching q upTo (made ++ [⟨d, m⟩]) (d.move m) := by
  by_cases hown : m.ticket? = some q.ticket
  · rcases hs.own_move hm hq hown hq' with heq | ⟨rest, low, hholder, hlow, hlt, heq⟩
    · refine .inl ⟨?_, ?_, ?_⟩
      · rw [heq, h.calls]
      · rw [counted_concat_of_eq made (by rw [heq]), h.counted]
      · rw [heq]
        exact h.holder
    · exact .inr ⟨low, fetching_of_beginFetch h.counted h.calls hown heq⟩
  · have hstep := step_move hs hm
    refine .inl ⟨?_, ?_, ?_⟩
    · rw [hstep.callsOf_of_ne hown, h.calls]
    · rw [counted_concat_of_ne hown, h.counted]
    · intro f hf hticket
      exact h.holder f (hstep.fetching_of_ne hown hf hticket) hticket

theorem Fetching.goesOn {upTo : Offset} (h : c.Fetching q upTo made d) (hs : d.Sound)
    (hm : d.Allows m) (hq : q ∈ d.pending) (hq' : q ∈ (d.move m).pending) :
    c.Fetching q upTo (made ++ [⟨d, m⟩]) (d.move m) := by
  by_cases hown : m.ticket? = some q.ticket
  · rcases hs.own_move hm hq hown hq' with heq | ⟨rest, low, hholder, -⟩
    · refine ⟨?_, ?_, ?_⟩
      · rw [heq, h.calls]
      · rw [counted_concat_of_eq made (by rw [heq])]
        exact h.counted
      · rw [heq, h.holder]
    · rw [h.holder] at hholder
      cases hholder
  · have hstep := step_move hs hm
    refine ⟨?_, ?_, ?_⟩
    · rw [hstep.callsOf_of_ne hown, h.calls]
    · rw [counted_concat_of_ne hown]
      exact h.counted
    · exact (hstep.keeps hown).fetching _ rfl h.holder

/-! ## The whole visit -/

/-- A query that is called and does not return at once waits, or gets the right and fetches. -/
theorem Sound.ask_pending (hs : c.Sound) (hm : c.Allows (.ask q))
    (hq : q ∈ (c.move (.ask q)).pending) :
    (∃ low, c.lowest? = some low ∧ c.move (.ask q) = { c with
        cache := { c.cache with
          right := { c.cache.right with waiting := c.cache.right.waiting ++ [q.waiter] } }
        pending := c.pending ++ [q] }) ∨
      ∃ rest low, c.lowest? = some low ∧ c.move (.ask q) = c.beginFetch q rest low := by
  have hstep := step_move hs hm
  have hfresh : q ∉ c.pending := fun hmem => hm q hmem rfl
  generalize c.move (.ask q) = d at hstep hq ⊢
  generalize hmove : Move.ask q = m at hstep
  cases hstep with
  | stays => exact absurd hq hfresh
  | returnsAtOnce => exact absurd hq hfresh
  | waits _ hlow =>
      cases hmove
      exact .inl ⟨_, hlow, rfl⟩
  | fetches hpm _ hlow =>
      rcases hpm with rfl | rfl
      · cases hmove
        exact .inr ⟨_, _, hlow, rfl⟩
      · cases hmove
  | _ => cases hmove

/-- How a query under way stands. -/
structure Underway (c : Course) (q : Query) (made : List Stride) (d : Course) : Prop where
  pending : q ∈ d.pending
  quiet : ∀ s ∈ own q made, s.Quiet
  stands : c.Waiting q made d ∨ ∃ upTo, c.Fetching q upTo made d

theorem Visit.sound (hs : c.Sound) (h : c.Visit q made d) : d.Sound := by
  induction h with
  | calls hm hq => exact (step_move hs hm).sound hs
  | goesOn h hm hq ih => exact (step_move ih hm).sound ih

/-- The query that fetches is under way. -/
theorem Sound.ticket_ne_of_fresh (hs : c.Sound) (hfresh : ∀ p ∈ c.pending, p.ticket ≠ q.ticket)
    {f : Fetch} (hf : c.cache.right.holder = some (.fetching f)) : f.ticket ≠ q.ticket := by
  obtain ⟨p, rest, -, hfp, hpending, -⟩ := hs.fetching hf
  rw [hfp]
  exact hfresh p (hpending ▸ List.mem_cons_self)

theorem Visit.underway (hs : c.Sound) (h : c.Visit q made d) : c.Underway q made d := by
  induction h with
  | calls hm hq =>
      rcases hs.ask_pending hm hq with ⟨low, -, heq⟩ | ⟨rest, low, -, heq⟩
      · refine ⟨hq, quiet_concat (quiet_nil q) fun _ => ?_, .inl ⟨?_, ?_, ?_⟩⟩
        · exact ⟨by rw [Stride.after, heq], by rw [Stride.after, heq]⟩
        · rw [heq]
          rfl
        · exact counted_concat_of_eq [] (by rw [heq])
        · rw [heq]
          exact fun f => hs.ticket_ne_of_fresh hm
      · exact ⟨hq, quiet_concat (quiet_nil q) fun _ => quiet_beginFetch heq,
          .inr ⟨low, fetching_of_beginFetch (counted_nil q) rfl rfl heq⟩⟩
  | goesOn h hm hq ih =>
      have hd := h.sound hs
      refine ⟨hq, quiet_concat ih.quiet fun hown => ?_, ?_⟩
      · rcases hd.own_move hm ih.pending hown hq with heq | ⟨rest, low, -, -, -, heq⟩
        · exact ⟨by rw [Stride.after, heq], by rw [Stride.after, heq]⟩
        · exact quiet_beginFetch heq
      · rcases ih.stands with hwaits | ⟨upTo, hfetches⟩
        · exact hwaits.goesOn hd hm ih.pending hq
        · exact .inr ⟨upTo, hfetches.goesOn hd hm ih.pending hq⟩

/-- Who is under way met a mark, which no move takes away. -/
theorem Visit.lowMark_ne (hs : c.Sound) (h : c.Visit q made d) :
    c.lowMark ≠ reservedOffset ∧ d.lowMark ≠ reservedOffset := by
  induction h with
  | calls hm hq =>
      have hc : c.lowMark ≠ reservedOffset := by
        rcases hs.ask_pending hm hq with ⟨low, hlow, -⟩ | ⟨rest, low, hlow, -⟩ <;>
        · obtain ⟨rfl, hne⟩ := lowest?_eq_some.1 hlow
          exact hne
      exact ⟨hc, (step_move hs hm).lowMark_ne hc⟩
  | goesOn h hm _ ih => exact ⟨ih.1, (step_move (h.sound hs) hm).lowMark_ne ih.2⟩

/-! ## The return -/

/-- A query that is not under way neither has the right to fetch nor waits for it. -/
theorem Sound.leaves (hs : c.Sound) {t : Nat} (hnone : ∀ p ∈ c.pending, p.ticket ≠ t) :
    c.cache.right.isHolder t = false ∧ c.cache.right.isWaiting t = false := by
  have hengaged : ∀ w ∈ c.cache.right.engaged, w.ticket ≠ t := by
    rw [← hs.engaged]
    exact List.forall_mem_map.2 hnone
  constructor
  · cases hholder : c.cache.right.holder with
    | none => simp [FetchRight.isHolder, hholder]
    | some h =>
        have hne := hengaged h.waiter (by simp [FetchRight.engaged, hholder])
        rw [Holder.ticket_waiter] at hne
        simpa [FetchRight.isHolder, hholder] using hne
  · rw [FetchRight.isWaiting, List.any_eq_false]
    exact fun w hw => by simpa using hengaged w (List.mem_append_right _ hw)

/-- With nobody under way the right is free. -/
theorem Sound.holder_of_pending_nil (hs : c.Sound) (h : c.pending = []) :
    c.cache.right.holder = none := by
  cases hholder : c.cache.right.holder with
  | none => rfl
  | some holder =>
      obtain ⟨q, rest, hpending, -⟩ := hs.pending_of_holder hholder
      rw [h] at hpending
      cases hpending

/-- A query under way that fetches is the one longest under way, and its call is the last. -/
theorem Sound.fetching_of_mem (hs : c.Sound) (hq : q ∈ c.pending) {upTo : Offset}
    (hholder : c.cache.right.holder = some (.fetching ⟨q.ticket, q.requested, upTo⟩)) :
    ∃ rest past, c.pending = q :: rest ∧
      c.calls = past ++ [⟨⟨q.ticket, q.requested, upTo⟩, .outstanding⟩] ∧
        ∀ k ∈ past, k.state ≠ .outstanding := by
  obtain ⟨p, rest, past, hf, hpending, hcalls, hpast⟩ := hs.fetching hholder
  obtain rfl : q = p := by
    rw [hpending] at hq
    exact (List.mem_cons.1 hq).resolve_right
      (hs.notMem_rest hpending (congrArg Fetch.ticket hf).symm)
  exact ⟨rest, past, hpending, hcalls, hpast⟩

/-- The answer to the call of a query that fetches. -/
theorem Fetching.answer_ok {upTo : Offset} (h : c.Fetching q upTo made d) (hs : d.Sound)
    (hq : q ∈ d.pending) (batch : List Message) :
    ∃ rest past, d.move (.answer q.ticket (.ok batch)) = d.succeed q rest upTo past batch ∧
      d.calls = past ++ [⟨⟨q.ticket, q.requested, upTo⟩, .outstanding⟩] := by
  obtain ⟨rest, past, hpending, hcalls, hpast⟩ := hs.fetching_of_mem hq h.holder
  exact ⟨rest, past, move_answer_ok hs h.holder hpending hcalls hpast batch, hcalls⟩

/-- The last call, which is the query's own, ends. -/
theorem callsOf_of_answered {past : List Call} {upTo : Offset} {reply : FetchReply}
    {calls : List Call} (hcalls : d.calls = past ++ [⟨⟨q.ticket, q.requested, upTo⟩, .outstanding⟩])
    (hown : d.callsOf q.ticket =
      calls ++ [⟨⟨q.ticket, q.requested, upTo⟩, .outstanding⟩])
    (he : e.calls = past ++ [⟨⟨q.ticket, q.requested, upTo⟩, .answered reply⟩]) :
    e.callsOf q.ticket = calls ++ [⟨⟨q.ticket, q.requested, upTo⟩, .answered reply⟩] := by
  rw [callsOf_concat hcalls, if_pos rfl] at hown
  rw [callsOf_concat he, if_pos rfl, (List.append_inj' hown rfl).1]

/-- When nobody is under way, a query succeeds as far as the journal does. -/
theorem Sound.succeeds (hs : c.Sound) (hnil : c.pending = []) {low : Offset}
    (hlow : c.lowest? = some low) (q : Query) : c.Succeeds q low where
  covered := by
    intro hle
    have hask := move_ask_atOnce hs (q := q) (by simp [hnil]) (.covered hlow hle)
    exact ⟨by rw [Returns, hask], by rw [hask]⟩
  fetched := by
    intro hlt
    have hask := move_ask_of_free hs hlow hlt (hs.holder_of_pending_nil hnil)
    refine ⟨by rw [hask]; rfl, ?_⟩
    intro made d h batch
    have hfetches : c.Fetching q low made d := by
      induction h with
      | calls => exact fetching_of_beginFetch (counted_nil q) rfl rfl hask
      | goesOn h hm hq ih => exact ih.goesOn (h.sound hs) hm (h.underway hs).pending hq
    obtain ⟨rest, past, hanswer, hcalls⟩ :=
      hfetches.answer_ok (h.sound hs) (h.underway hs).pending batch
    refine ⟨⟨_, by rw [Returns, hanswer]; rfl⟩, ?_⟩
    rw [hanswer]
    exact callsOf_of_answered hcalls hfetches.calls rfl

/-! ## What was promised holds -/

/-- What a query finds for its agent is the agent's queue, if it has one. -/
theorem queue?_or (c : Course) (agent : String) :
    c.cache.holdings.table.queue? agent = some (c.cache.queue agent) ∨
      c.cache.holdings.table.queue? agent = none ∧ c.cache.queue agent = .empty := by
  rw [Cache.queue, AgentTable.queue]
  cases hqueue : c.cache.holdings.table.queue? agent with
  | none => exact .inr ⟨rfl, rfl⟩
  | some items => exact .inl rfl

/-- Whatever happens once a query has returned, a query that then finds nobody under way succeeds as
far as the journal does. -/
theorem Sound.again (hs : c.Sound) (ms : List Move) (hms : c.AllowsAll ms)
    (hnil : (c.run ms).pending = []) (low : Offset) (hlow : (c.run ms).lowest? = some low)
    (p : Query) : (c.run ms).Succeeds p low := (hs.run hms).succeeds hnil hlow p

/-- What becomes of a query that returns at once. -/
theorem Sound.outcome_atOnce (hs : c.Sound) (hm : c.Allows (.ask q))
    {result : Except Fault (Queue Item)} (h : c.AtOnce q result) :
    c.Outcome q none result [⟨c, .ask q⟩] (c.move (.ask q)) := by
  have hask := move_ask_atOnce hs hm h
  have he : (c.move (.ask q)).Sound := (step_move hs hm).sound hs
  have hquiet : Stride.Quiet ⟨c, .ask q⟩ :=
    ⟨by rw [Stride.after, hask], by rw [Stride.after, hask]⟩
  have hcounted : counted q [⟨c, .ask q⟩] = [] :=
    counted_concat_of_eq [] (by rw [hask])
  refine {
    calls := ⟨q.requested, by rw [hask]; exact (List.append_nil _).symm⟩
    notReady := ?_
    uncalled := fun _ => rfl
    ok := ?_
    failed := ?_
    timedOut := fun _ _ => .inl rfl
    quiet := fun _ _ => quiet_concat (quiet_nil q) fun _ => hquiet
    counted := fun _ _ => by simp [hcounted]
    leaves := he.leaves (by rw [hask]; exact hm)
    again := he.again }
  · cases h with
    | notReady hlow => simp [hlow]
    | covered hlow => simp [hlow]
  · rintro items rfl
    rw [hask]
    cases h with
    | covered hlow hle => exact ⟨⟨_, hlow, hle⟩, c.queue?_or q.agent⟩
  · rintro f rfl hparty
    cases h with
    | notReady => exact absurd rfl hparty

theorem Waiting.not_fetching (h : c.Waiting q made d) (upTo : Offset) :
    d.cache.right.holder ≠ some (.fetching ⟨q.ticket, q.requested, upTo⟩) :=
  fun hholder => h.holder _ hholder rfl

/-- A query under way whose call is outstanding fetches, and any other waits. -/
theorem Underway.fetches (h : c.Underway q made d) {upTo : Offset}
    (hholder : d.cache.right.holder = some (.fetching ⟨q.ticket, q.requested, upTo⟩)) :
    c.Fetching q upTo made d := by
  rcases h.stands with hwaits | ⟨upTo', hfetches⟩
  · exact absurd hholder (hwaits.not_fetching upTo)
  · obtain rfl : upTo' = upTo := by simpa [hholder] using hfetches.holder.symm
    exact hfetches

theorem Underway.waits (h : c.Underway q made d)
    (hholder : ∀ upTo, d.cache.right.holder ≠ some (.fetching ⟨q.ticket, q.requested, upTo⟩)) :
    c.Waiting q made d :=
  h.stands.resolve_right fun ⟨upTo, hfetches⟩ => hholder upTo hfetches.holder

theorem Visit.lowest?_ne_none (h : c.Visit q made d) (hs : c.Sound) : c.lowest? ≠ none :=
  fun hlow => (h.lowMark_ne hs).1 (lowest?_eq_none.1 hlow)

/-- What becomes of a query to which the right passes when its offset is covered. -/
theorem Visit.outcome_skip (h : c.Visit q made d) (hs : c.Sound) {rest : List Query}
    (hholder : d.cache.right.holder = some (.passedTo q.waiter)) (hpending : d.pending = q :: rest)
    (hcovered : ∀ low, d.lowest? = some low → low ≤ q.requested) :
    c.Outcome q none (.ok (d.cache.queue q.agent)) (made ++ [⟨d, .resume q.ticket⟩])
      (d.skip q rest) := by
  have hd := h.sound hs
  have hmet := h.lowest?_ne_none hs
  have hlow : d.lowest? = some d.lowMark := lowest?_eq_some.2 ⟨rfl, (h.lowMark_ne hs).2⟩
  have he : (d.skip q rest).Sound := (Step.skips hholder hpending hcovered).sound hd
  have hcalls : (d.skip q rest).callsOf q.ticket = c.callsOf q.ticket :=
    ((h.underway hs).waits (by simp [hholder])).calls
  exact {
    calls := ⟨q.requested, by simp [hcalls]⟩
    notReady := by simp [hmet]
    uncalled := fun _ => rfl
    ok := by
      intro items hitems
      obtain rfl := Except.ok.inj hitems
      exact ⟨⟨_, hlow, hcovered _ hlow⟩, d.queue?_or q.agent⟩
    failed := nofun
    timedOut := nofun
    quiet := nofun
    counted := nofun
    leaves := he.leaves (hd.ticket_ne_of_mem_rest hpending)
    again := he.again }

/-- What becomes of a query whose limit is over while it waits. -/
theorem Visit.outcome_timeOut (h : c.Visit q made d) (hs : c.Sound) {holder : Holder}
    (hholder : d.cache.right.holder = some holder) (hne : holder.ticket ≠ q.ticket) :
    c.Outcome q none (.error (.timedOut d.cache.settings.fetchWait.milliseconds))
      (made ++ [⟨d, .expire q.ticket⟩]) (d.timeOut q) := by
  have hd := h.sound hs
  have hunder := h.underway hs
  have hmove := move_expire_of_waiting hd hunder.pending hholder hne
  have he : (d.timeOut q).Sound := (Step.expires hunder.pending hholder hne).sound hd
  have hwaits : c.Waiting q made d := by
    apply hunder.waits
    intro upTo hfetching
    rw [hholder] at hfetching
    exact hne (congrArg Holder.ticket (Option.some.inj hfetching))
  have hmore : d.cache.activity.OneMore (d.timeOut q).cache.activity := .inr (.inr rfl)
  have hcalls : (d.timeOut q).callsOf q.ticket = c.callsOf q.ticket := hwaits.calls
  have hcounted : counted q (made ++ [⟨d, .expire q.ticket⟩]) = [⟨d, .expire q.ticket⟩] := by
    rw [counted_concat rfl (hmove ▸ hmore.ne), hwaits.counted]
    rfl
  exact {
    calls := ⟨q.requested, by simp [hcalls]⟩
    notReady := by simp [h.lowest?_ne_none hs]
    uncalled := fun _ => rfl
    ok := nofun
    failed := by
      intro f hf hparty
      obtain rfl := Except.error.inj hf
      exact absurd rfl hparty
    timedOut := fun _ _ => .inl rfl
    quiet := fun _ _ => quiet_concat hunder.quiet fun _ =>
      ⟨by rw [Stride.after, hmove]; rfl, by rw [Stride.after, hmove]; rfl⟩
    counted := by
      rw [hcounted]
      simp [Stride.after, hmove, hmore]
    leaves := he.leaves (by simp [timeOut, leaveLine])
    again := he.again }

section Answered

variable {rest : List Query} {upTo : Offset} {past : List Call}

/-- What becomes of a query whose call the journal answers with messages. -/
theorem Visit.outcome_succeed (h : c.Visit q made d) (hs : c.Sound)
    (hholder : d.cache.right.holder = some (.fetching ⟨q.ticket, q.requested, upTo⟩))
    (hpending : d.pending = q :: rest)
    (hcalls : d.calls = past ++ [⟨⟨q.ticket, q.requested, upTo⟩, .outstanding⟩])
    (hpast : ∀ k ∈ past, k.state ≠ .outstanding) (batch : List Message) :
    c.Outcome q (some (.ok batch))
      (.ok ((d.cache.holdings.backfill d.outlet batch q.requested).1.table.queue q.agent))
      (made ++ [⟨d, .answer q.ticket (.ok batch)⟩]) (d.succeed q rest upTo past batch) := by
  have hd := h.sound hs
  have hmet := h.lowest?_ne_none hs
  have hstep : d.Step (.answer q.ticket (.ok batch)) (d.succeed q rest upTo past batch) :=
    .succeeds hholder hpending hcalls hpast
  have he := hstep.sound hd
  have hle : (d.succeed q rest upTo past batch).lowMark ≤ q.requested :=
    (Holdings.lowMark_backfill_le_iff ..).2 (.inr (.inl (Std.le_refl _)))
  exact {
    calls := ⟨upTo, callsOf_of_answered hcalls ((h.underway hs).fetches hholder).calls rfl⟩
    notReady := by simp [hmet]
    uncalled := fun hlow => absurd hlow hmet
    ok := by
      intro items hitems
      obtain rfl := Except.ok.inj hitems
      exact ⟨⟨_, lowest?_eq_some.2 ⟨rfl, hstep.lowMark_ne (h.lowMark_ne hs).2⟩, hle⟩,
        queue?_or (d.succeed q rest upTo past batch) q.agent⟩
    failed := nofun
    timedOut := nofun
    quiet := nofun
    counted := nofun
    leaves := he.leaves (hd.ticket_ne_of_mem_rest hpending)
    again := he.again }

/-- What becomes of a query whose call the journal answers with a failure. -/
theorem Visit.outcome_fail (h : c.Visit q made d) (hs : c.Sound)
    (hholder : d.cache.right.holder = some (.fetching ⟨q.ticket, q.requested, upTo⟩))
    (hpending : d.pending = q :: rest)
    (hcalls : d.calls = past ++ [⟨⟨q.ticket, q.requested, upTo⟩, .outstanding⟩])
    (hpast : ∀ k ∈ past, k.state ≠ .outstanding) (f : Fault) :
    c.Outcome q (some (.error f)) (.error f) (made ++ [⟨d, .answer q.ticket (.error f)⟩])
      (d.fail q rest upTo past f) := by
  have hd := h.sound hs
  have hmet := h.lowest?_ne_none hs
  have hunder := h.underway hs
  have hmove := move_answer_error hd hholder hpending hcalls hpast f
  have he : (d.fail q rest upTo past f).Sound :=
    (Step.fails hholder hpending hcalls hpast).sound hd
  have hfetches := hunder.fetches hholder
  have hcounted : counted q (made ++ [⟨d, .answer q.ticket (.error f)⟩]) = counted q made :=
    counted_concat_of_eq made (by rw [hmove]; rfl)
  exact {
    calls := ⟨upTo, callsOf_of_answered hcalls hfetches.calls rfl⟩
    notReady := by simp [hmet]
    uncalled := fun hlow => absurd hlow hmet
    ok := nofun
    failed := fun g hg _ => by rw [Except.error.inj hg]
    timedOut := fun ms hms => .inr (by rw [Except.error.inj hms])
    quiet := fun _ _ => quiet_concat hunder.quiet fun _ =>
      ⟨by rw [Stride.after, hmove]; rfl, by rw [Stride.after, hmove]; rfl⟩
    counted := by
      obtain ⟨s, hs, hmore⟩ := hfetches.counted
      rw [hcounted, hs]
      simp [hmore]
    leaves := he.leaves (hd.ticket_ne_of_mem_rest hpending)
    again := he.again }

end Answered

theorem Visit.outcome (h : c.Visit q made d) (hs : c.Sound) (hm : d.Allows m)
    {reply : Option FetchReply} {result : Except Fault (Queue Item)}
    (hreturns : d.Returns m q reply result) :
    c.Outcome q reply result (made ++ [⟨d, m⟩]) (d.move m) := by
  have hstep := step_move (h.sound hs) hm
  rw [Returns] at hreturns
  generalize d.move m = e at hstep hreturns ⊢
  have hlast : ∀ {x : Deed}, d.deeds ++ [x] = e.deeds → x = .returned q reply result := by
    intro x hx
    simpa [hreturns] using hx
  have hnone : d.deeds ≠ e.deeds := by
    intro hnone
    simp [hreturns] at hnone
  cases hstep with
  | returnsAtOnce =>
      cases hlast rfl
      exact absurd rfl (hm q (h.underway hs).pending)
  | skips hholder hpending hcovered =>
      cases hlast rfl
      exact h.outcome_skip hs hholder hpending hcovered
  | expires _ hholder hne =>
      cases hlast rfl
      exact h.outcome_timeOut hs hholder hne
  | succeeds hholder hpending hcalls hpast =>
      cases hlast rfl
      exact h.outcome_succeed hs hholder hpending hcalls hpast _
  | fails hholder hpending hcalls hpast =>
      cases hlast rfl
      exact h.outcome_fail hs hholder hpending hcalls hpast _
  | handles => cases hlast rfl
  | releases => cases hlast rfl
  | _ => exact absurd rfl hnone

/-- Who returns in the move of its call found at once that it needs no fetch. -/
theorem Sound.atOnce_of_returns (hs : c.Sound) (hm : c.Allows (.ask q))
    {reply : Option FetchReply} {result : Except Fault (Queue Item)}
    (hreturns : c.Returns (.ask q) q reply result) : reply = none ∧ c.AtOnce q result := by
  have hstep := step_move hs hm
  rw [Returns] at hreturns
  generalize hask : Move.ask q = m at hstep hreturns
  generalize c.move m = e at hstep hreturns
  have hlast : ∀ {x : Deed}, c.deeds ++ [x] = e.deeds → x = .returned q reply result := by
    intro x hx
    simpa [hreturns] using hx
  have hnone : c.deeds ≠ e.deeds := by
    intro hnone
    simp [hreturns] at hnone
  cases hstep with
  | returnsAtOnce hresult =>
      cases hlast rfl
      exact ⟨rfl, hresult⟩
  | stays => exact absurd rfl hnone
  | waits => exact absurd rfl hnone
  | fetches => exact absurd rfl hnone
  | _ => cases hask

variable {number : Nat} {settings : Settings} {registry : Registry}

/-- A query is refused at its call if no record was met. Otherwise, whatever the others do and the
journal replies, it returns with what it asked for, with what the journal replied to its one call,
or with a timeout and without a call. A failure of its own leaves the queues, the marks, the
registrations and what was reported alone, and keeps the right from nobody (`Outcome`). -/
theorem query_outcome (h : Reachable number settings registry c) (hm : c.Allows (.ask q)) :
    (c.lowest? = none → c.Returns (.ask q) q none (.error .notReady) ∧
        (c.move (.ask q)).calls = c.calls) ∧
      ∀ reply result made e, c.Ends q reply result made e → c.Outcome q reply result made e := by
  have hs := h.sound
  constructor
  · intro hlow
    have hask := move_ask_atOnce hs hm (.notReady hlow)
    exact ⟨by rw [Returns, hask], by rw [hask]⟩
  · intro reply result made e hends
    cases hends with
    | atOnce _ hreturns =>
        obtain ⟨rfl, hresult⟩ := hs.atOnce_of_returns hm hreturns
        exact hs.outcome_atOnce hm hresult
    | later hvisit hmove hreturns => exact hvisit.outcome hs hmove hreturns

/-- A query fetches. -/
def engaged : List Move :=
  [.deliver (Sample.marker .zero 10), .handle, .ask ⟨1, "a", 5⟩]

/-- Another query waits until the first is given up, and fetches; a record of the tail comes in
between. The journal fails. -/
theorem query_outcome_refused :
    ∃ made e, ((start 0 .standard .empty).run engaged).Outcome ⟨2, "b", 3⟩
      (some (.error (.fetchFailed 3 10 "unavailable"))) (.error (.fetchFailed 3 10 "unavailable"))
      made e ∧ (own ⟨2, "b", 3⟩ made).length = 3 ∧ e.handled.length = 2 := by
  have hasked : Visit ((start 0 .standard .empty).run engaged) ⟨2, "b", 3⟩ _ _ :=
    .calls (by decide) (by decide)
  have htold := (hasked.goesOn (m := .deliver (.message (Sample.message .zero 11 "b" .add))) trivial
    (by decide)).goesOn (m := .handle) trivial (by decide)
  have hfetches := (htold.goesOn (m := .withdraw 1) trivial (by decide)).goesOn
    (m := .resume 2) trivial (by decide)
  exact ⟨_, _, (query_outcome (Reachable.start.run (by decide)) (by decide)).2 _ _ _ _
    (.later hfetches (m := .answer 2 (.error (.fetchFailed 3 10 "unavailable"))) trivial rfl),
    by decide, by decide⟩

end Course

end JournalCache

import JournalCache.Journal.Sample
import JournalCache.Proofs.Course.Record

/-!
# One fetch at a time, and no range twice

At most one call of the journal is outstanding, and it belongs to the holder of the right. A call
asks for what is missing below the lowest mark of the moment at which its query had the right and
looked, so a range that was fetched is not asked for again. If tail ingestion meets its records in
increasing order and the journal answers inside the ranges that it was asked for, then nothing but
the fetches lowers the mark once it is there, and their ranges lie end to end below the first
record.
-/

namespace JournalCache

namespace Course

/-! ## What is promised -/

/-- The ranges of the calls that the journal answered with messages, in order. -/
def successes (c : Course) : List (Offset × Offset) :=
  (c.calls.filter Call.isSuccess).map fun k => (k.fetch.first, k.fetch.upTo)

/-- The ranges, each from its first offset up to, not with, its second, follow one another from
`upTo` down to `low`. -/
def Tiles (upTo low : Offset) : List (Offset × Offset) → Prop
  | [] => upTo = low
  | r :: rs => r.2 = upTo ∧ r.1 < r.2 ∧ Tiles r.1 low rs

/-- Each record that tail ingestion handled stands above those it handled before. -/
def TailIncreases (c : Course) : Prop := (c.handled.map (·.offset)).Pairwise (· < ·)

/-- The journal answered with messages of the ranges that it was asked for. -/
def AnswersInside (c : Course) : Prop :=
  ∀ k ∈ c.calls, ∀ batch, k.state = .answered (.ok batch) →
    ∀ m ∈ batch, k.fetch.first ≤ m.offset ∧ m.offset < k.fetch.upTo

/-- No query can go on by itself: the journal and the clock are waited for. -/
def Idle (c : Course) : Prop := ∀ ticket, c.move (.resume ticket) = c

/-- The calls of a course are made one at a time, and none for what was fetched. -/
structure SingleFlight (c : Course) : Prop where
  atMostOne : (c.calls.filter Call.isOutstanding).length ≤ 1
  nonempty : ∀ k ∈ c.calls, k.fetch.first < k.fetch.upTo
  /-- A move makes no call, or that of the query in turn, up to where the lowest mark stands. -/
  calls : ∀ m, c.Allows m →
    (c.move m).calls.map (·.fetch) = c.calls.map (·.fetch) ∨
      ∃ q rest low, (m = .ask q ∨ m = .resume q.ticket) ∧ c.InTurn q rest ∧
        c.lowest? = some low ∧ (∀ k ∈ c.calls, k.isOutstanding = false) ∧
        (c.move m).pending = q :: rest ∧
        (c.move m).calls = c.calls ++ [⟨⟨q.ticket, q.requested, low⟩, .outstanding⟩]
  descending : c.calls.Pairwise fun k l => k.isSuccess → l.fetch.upTo ≤ k.fetch.first
  disjoint : c.successes.Pairwise fun r s => ∀ o, r.1 ≤ o → o < r.2 → s.1 ≤ o → ¬ o < s.2
  tiles : c.TailIncreases → c.AnswersInside → ∀ low, c.lowest? = some low →
    ∃ r rs, c.handled = r :: rs ∧ Tiles r.offset low c.successes
  held : c.Idle →
    (c.cache.right.holder.isSome ↔ (c.calls.filter Call.isOutstanding).length = 1)
  free : c.cache.right.holder = none → c.pending = []

/-! ## The calls -/

variable {c d : Course} {m : Move}

theorem isOutstanding_of_ne {k : Call} (h : k.state ≠ .outstanding) : k.isOutstanding = false :=
  awaits_of_ne h _

theorem isSuccess_iff {k : Call} : k.isSuccess ↔ ∃ batch, k.state = .answered (.ok batch) := by
  unfold Call.isSuccess
  split
  · next batch h => simp [h]
  · next h => simpa using h

theorem Sound.filter_isOutstanding (hs : c.Sound) :
    c.calls.filter Call.isOutstanding = c.cache.right.outstanding := by
  rcases hs.calls with ⟨past, hcalls, hpast⟩
  have hnone : past.filter Call.isOutstanding = [] := by
    rw [List.filter_eq_nil_iff]
    intro k hk
    simp [isOutstanding_of_ne (hpast k hk)]
  have hall : c.cache.right.outstanding.filter Call.isOutstanding = c.cache.right.outstanding := by
    unfold FetchRight.outstanding
    split
    · simp [Call.isOutstanding, Call.awaits]
    · rfl
  rw [hcalls, List.filter_append, hnone, hall, List.nil_append]

/-- What the calls have to do with one another and with the lowest mark. -/
structure Descending (c : Course) : Prop where
  nonempty : ∀ k ∈ c.calls, k.fetch.first < k.fetch.upTo
  covered : ∀ k ∈ c.calls, k.isSuccess → c.lowMark ≤ k.fetch.first
  descending : c.calls.Pairwise fun k l => k.isSuccess → l.fetch.upTo ≤ k.fetch.first

theorem Step.descending (h : c.Step m d) (hc : c.Descending) : d.Descending := by
  have hcovered : ∀ k ∈ c.calls, k.isSuccess → d.lowMark ≤ k.fetch.first :=
    fun k hk hsuccess => Std.le_trans h.lowMark_le (hc.covered k hk hsuccess)
  rcases h.calls with hcalls | ⟨f, hcalls, hlt, hupTo, hmark⟩ |
    ⟨past, f, state, hpast, hcalls, hstate, hmark⟩
  · exact ⟨hcalls ▸ hc.nonempty, hcalls ▸ hcovered, hcalls ▸ hc.descending⟩
  · refine ⟨?_, ?_, ?_⟩
    · rw [hcalls]
      simpa [or_imp, forall_and] using ⟨hc.nonempty, hlt⟩
    · rw [hcalls]
      simpa [or_imp, forall_and, Call.isSuccess] using hcovered
    · rw [hcalls, List.pairwise_append]
      refine ⟨hc.descending, List.pairwise_singleton _ _, fun k hk l hl hsuccess => ?_⟩
      rw [List.mem_singleton.1 hl, hupTo]
      exact hc.covered k hk hsuccess
  · have hnonempty := hc.nonempty
    have hdescending := hc.descending
    rw [hpast] at hnonempty hdescending hcovered
    rw [List.pairwise_append] at hdescending
    refine ⟨?_, ?_, ?_⟩
    · rw [hcalls]
      simpa [or_imp, forall_and] using hnonempty
    · rw [hcalls]
      intro k hk hsuccess
      rcases List.mem_append.1 hk with hk | hk
      · exact hcovered k (List.mem_append_left _ hk) hsuccess
      · rw [List.mem_singleton.1 hk] at hsuccess ⊢
        obtain ⟨batch, hbatch⟩ := isSuccess_iff.1 hsuccess
        exact hmark batch hbatch
    · rw [hcalls, List.pairwise_append]
      refine ⟨hdescending.1, List.pairwise_singleton _ _, fun k hk l hl => ?_⟩
      rw [List.mem_singleton.1 hl]
      exact hdescending.2.2 k hk ⟨f, .outstanding⟩ List.mem_cons_self

variable {number : Nat} {settings : Settings} {registry : Registry}

theorem Reachable.descending (h : Reachable number settings registry c) : c.Descending := by
  induction h with
  | start => exact ⟨by simp [Course.start], by simp [Course.start], .nil⟩
  | move hc hm ih => exact (hc.step hm).descending ih

theorem Descending.disjoint (h : c.Descending) :
    c.successes.Pairwise fun r s => ∀ o, r.1 ≤ o → o < r.2 → s.1 ≤ o → ¬ o < s.2 := by
  rw [successes, List.pairwise_map, List.pairwise_filter]
  refine h.descending.imp fun {k l} hkl hk _ o hko _ _ hlo => ?_
  exact Std.not_lt.2 (Std.le_trans (hkl hk) hko) hlo

/-! ## Ranges end to end -/

theorem Tiles.concat {upTo low first : Offset} {rs : List (Offset × Offset)}
    (h : Tiles upTo low rs) (hlt : first < low) : Tiles upTo first (rs ++ [(first, low)]) := by
  induction rs generalizing upTo with
  | nil =>
      obtain rfl : upTo = low := h
      exact ⟨rfl, hlt, rfl⟩
  | cons r rs ih => exact ⟨h.1, h.2.1, ih h.2.2⟩

theorem Step.tailIncreases (h : c.Step m d) (hd : d.TailIncreases) : c.TailIncreases := by
  rcases h.handled with ⟨rs, hrs⟩
  rw [TailIncreases, hrs, List.map_append, List.pairwise_append] at hd
  exact hd.1

theorem Step.answersInside (h : c.Step m d) (hd : d.AnswersInside) : c.AnswersInside :=
  fun k hk batch hstate => hd k (h.mem_calls hk (by simp [hstate])) batch hstate

theorem lowMark_takeIn (c : Course) (r : Delivery) (rs : List Delivery) :
    (c.takeIn r rs).lowMark = min c.lowMark r.offset := Holdings.coverage_ingest_lowMark ..

/-- Once a record was handled, those that follow in increasing order leave the mark. -/
theorem Reachable.lowMark_takeIn_eq (h : Reachable number settings registry c) {r : Delivery}
    {rs : List Delivery} (hnil : c.handled ≠ []) (hinc : (c.takeIn r rs).TailIncreases) :
    (c.takeIn r rs).lowMark = c.lowMark := by
  obtain ⟨r₀, hr₀⟩ := List.exists_mem_of_ne_nil _ hnil
  rw [TailIncreases, handled_takeIn, List.map_append, List.pairwise_append] at hinc
  have hlt : r₀.offset < r.offset := hinc.2.2 _ (List.mem_map_of_mem hr₀) _ (by simp)
  have hle : c.lowMark ≤ r.offset :=
    Std.le_trans (h.lowMark_le_handled hr₀) (Std.le_of_lt hlt)
  rw [lowMark_takeIn]
  exact min_eq_left_of_le hle

/-- While the tail comes in order, a fetch under way ends where the lowest mark stands. -/
theorem Reachable.upTo_eq_lowMark (h : Reachable number settings registry c)
    (hinc : c.TailIncreases) :
    ∀ k ∈ c.calls, k.state = .outstanding → k.fetch.upTo = c.lowMark := by
  induction h with
  | start => simp [Course.start]
  | @move c hc m hm ih =>
      have hstep := hc.step hm
      replace ih := ih (hstep.tailIncreases hinc)
      generalize c.move m = d at hstep hinc
      -- a call that ends is outstanding no more
      have hended : ∀ {past : List Call} {f : Fetch} {state : CallState} {o : Offset},
          (∀ k ∈ past, k.state ≠ .outstanding) → state ≠ .outstanding →
          ∀ k ∈ past ++ [(⟨f, state⟩ : Call)], k.state = .outstanding → k.fetch.upTo = o :=
        fun hpast hstate k hk hout => absurd hout (not_outstanding_concat hpast hstate k hk)
      cases hstep with
      | @handles r rs =>
          intro k hk hout
          have hnil : c.handled ≠ [] := by
            intro hnil
            have hcalls : c.calls = [] := (hc.of_handled_nil hnil).2.1
            exact List.not_mem_nil (hcalls ▸ hk)
          rw [hc.lowMark_takeIn_eq hnil hinc]
          exact ih k hk hout
      | fetches _ _ hlow =>
          intro k hk hout
          rcases List.mem_append.1 hk with hk | hk
          · exact ih k hk hout
          · rw [List.mem_singleton.1 hk]
            exact (lowest?_eq_some.1 hlow).1.symm
      | leavesFetch _ _ _ hpast => exact hended hpast (by simp)
      | succeeds _ _ _ hpast => exact hended hpast (by simp)
      | fails _ _ _ hpast => exact hended hpast (by simp)
      | _ => exact ih

theorem successes_of_concat {past : List Call} {f : Fetch} {state : CallState}
    (hcalls : c.calls = past ++ [⟨f, .outstanding⟩])
    (hdcalls : d.calls = past ++ [⟨f, state⟩]) (hstate : ∀ batch, state ≠ .answered (.ok batch)) :
    d.successes = c.successes := by
  have hnot : [(⟨f, state⟩ : Call)].filter Call.isSuccess = [] := by
    rw [List.filter_eq_nil_iff]
    intro k hk
    rw [List.mem_singleton.1 hk, isSuccess_iff]
    intro h
    rcases h with ⟨batch, hbatch⟩
    exact hstate batch hbatch
  rw [successes, successes, hdcalls, hcalls, List.filter_append, List.filter_append, hnot]
  rfl

/-- A fetch whose answer stays inside its range lowers the mark to its start. -/
theorem lowMark_succeed {q : Query} {rest : List Query} {past : List Call} {batch : List Message}
    (hlt : q.requested < c.lowMark) (hinside : ∀ m ∈ batch, q.requested ≤ m.offset) :
    (c.succeed q rest c.lowMark past batch).lowMark = q.requested := by
  have hiff : ∀ p, (c.succeed q rest c.lowMark past batch).lowMark ≤ p ↔
      c.lowMark ≤ p ∨ q.requested ≤ p ∨ ∃ m, batch.head? = some m ∧ m.offset ≤ p :=
    fun p => Holdings.lowMark_backfill_le_iff ..
  apply Std.le_antisymm
  · exact (hiff _).2 (.inr (.inl (Std.le_refl _)))
  · rcases (hiff _).1 (Std.le_refl _) with h | h | ⟨m, hm, h⟩
    · exact Std.le_trans (Std.le_of_lt hlt) h
    · exact h
    · exact Std.le_trans (hinside m (List.mem_of_mem_head? hm)) h

theorem Reachable.tiles (h : Reachable number settings registry c) (hinc : c.TailIncreases)
    (hinside : c.AnswersInside) {r : Delivery} {rs : List Delivery} (hr : c.handled = r :: rs) :
    Tiles r.offset c.lowMark c.successes := by
  induction h generalizing rs with
  | start => cases hr
  | @move c hc m hm ih =>
      have hstep := hc.step hm
      have hcalls := hc.upTo_eq_lowMark (hstep.tailIncreases hinc)
      have hnonempty := hc.descending.nonempty
      replace ih {rs} := @ih (hstep.tailIncreases hinc) (hstep.answersInside hinside) rs
      generalize c.move m = d at hstep hinc hinside hr
      cases hstep with
      | @handles r' rs' =>
          rw [handled_takeIn] at hr
          cases hhandled : c.handled with
          | nil =>
              obtain ⟨hmark, hcalls, -⟩ := hc.of_handled_nil hhandled
              rw [hhandled, List.nil_append] at hr
              obtain rfl : r' = r := (List.cons.inj hr).1
              have hnone : (c.takeIn r' rs').successes = [] := by simp [successes, takeIn, hcalls]
              rw [lowMark_takeIn, hmark, hnone]
              exact (min_eq_right_of_le (le_reservedOffset _)).symm
          | cons r₀ rs₀ =>
              rw [hhandled, List.cons_append] at hr
              obtain rfl : r₀ = r := (List.cons.inj hr).1
              rw [hc.lowMark_takeIn_eq (by simp [hhandled]) hinc]
              exact ih hhandled
      | @succeeds q rest upTo past batch _ _ hpast =>
          have hmem : (⟨⟨q.ticket, q.requested, upTo⟩, .outstanding⟩ : Call) ∈ c.calls := by
            simp [hpast]
          have hlt : q.requested < upTo := hnonempty _ hmem
          obtain rfl : upTo = c.lowMark := hcalls _ hmem rfl
          have hbatch : ∀ m ∈ batch, q.requested ≤ m.offset := fun m hm =>
            (hinside ⟨⟨q.ticket, q.requested, c.lowMark⟩, .answered (.ok batch)⟩
              (by simp [succeed]) batch rfl m hm).1
          have hsuccesses : (c.succeed q rest c.lowMark past batch).successes =
              c.successes ++ [(q.requested, c.lowMark)] := by
            simp [successes, succeed, hpast, Call.isSuccess, List.filter_cons]
          rw [lowMark_succeed hlt hbatch, hsuccesses]
          exact (ih (by simpa [handled, succeed] using hr)).concat hlt
      | @fetches q rest low =>
          have hsuccesses : (c.beginFetch q rest low).successes = c.successes := by
            simp [successes, beginFetch, Call.isSuccess]
          rw [hsuccesses]
          exact ih hr
      | leavesFetch _ _ hpast =>
          rw [successes_of_concat hpast rfl (by simp)]
          exact ih hr
      | fails _ _ hpast =>
          rw [successes_of_concat hpast rfl (by simp)]
          exact ih (by simpa [handled, fail] using hr)
      | returnsAtOnce => exact ih (by simpa [handled] using hr)
      | skips => exact ih (by simpa [handled, skip] using hr)
      | expires => exact ih (by simpa [handled, timeOut] using hr)
      | releases => exact ih (by simpa [handled] using hr)
      | _ => exact ih hr

/-! ## The right is never lost -/

theorem length_calls_beginFetch (c : Course) (q : Query) (rest : List Query) (low : Offset) :
    (c.beginFetch q rest low).calls.length = c.calls.length + 1 := by
  simp [beginFetch]

theorem length_deeds_skip (c : Course) (q : Query) (rest : List Query) :
    (c.skip q rest).deeds.length = c.deeds.length + 1 := by
  simp [skip]

/-- A query to which the right has passed can go on. -/
theorem Idle.holder_ne_passedTo (hidle : c.Idle) (hs : c.Sound) (w : Waiter) :
    c.cache.right.holder ≠ some (.passedTo w) := by
  intro hholder
  obtain ⟨q, rest, hpending, hq, -⟩ := hs.pending_of_holder hholder
  obtain rfl : q.waiter = w := hq
  have hresume := hidle q.ticket
  rcases c.cache.lt_or_covered q.requested with ⟨low, hlow, hlt⟩ | hcovered
  · rw [move_resume_of_lt hholder hpending hlow hlt] at hresume
    have hlength := length_calls_beginFetch c q rest low
    rw [hresume] at hlength
    omega
  · rw [move_resume_of_covered hs hholder hpending hcovered] at hresume
    have hlength := length_deeds_skip c q rest
    rw [hresume] at hlength
    omega

theorem Idle.holder_isSome_iff (hidle : c.Idle) (hs : c.Sound) :
    c.cache.right.holder.isSome ↔ (c.calls.filter Call.isOutstanding).length = 1 := by
  have hpassed := hidle.holder_ne_passedTo hs
  rw [hs.filter_isOutstanding, FetchRight.outstanding]
  cases hholder : c.cache.right.holder with
  | none => simp
  | some h =>
      cases h with
      | passedTo w => exact absurd hholder (hpassed w)
      | fetching f => simp

/-! ## Single flight -/

theorem Reachable.calls_move (h : Reachable number settings registry c) {m : Move}
    (hm : c.Allows m) :
    (c.move m).calls.map (·.fetch) = c.calls.map (·.fetch) ∨
      ∃ q rest low, (m = .ask q ∨ m = .resume q.ticket) ∧ c.InTurn q rest ∧
        c.lowest? = some low ∧ (∀ k ∈ c.calls, k.isOutstanding = false) ∧
        (c.move m).pending = q :: rest ∧
        (c.move m).calls = c.calls ++ [⟨⟨q.ticket, q.requested, low⟩, .outstanding⟩] := by
  have hstep := h.step hm
  have hended : ∀ {past : List Call} {f : Fetch} (state : CallState),
      c.calls = past ++ [⟨f, .outstanding⟩] →
      (past ++ [(⟨f, state⟩ : Call)]).map (·.fetch) = c.calls.map (·.fetch) := by
    intro past f state hcalls
    simp [hcalls]
  generalize c.move m = d at hstep
  cases hstep with
  | @fetches q rest low _ hm hturn hlow hq =>
      refine .inr ⟨q, rest, low, hm, hturn, hlow, ?_, rfl, rfl⟩
      have hnone := h.sound.filter_isOutstanding
      rw [hturn.outstanding_eq, List.filter_eq_nil_iff] at hnone
      simpa using hnone
  | leavesFetch _ _ hcalls => exact .inl (hended _ hcalls)
  | succeeds _ _ hcalls => exact .inl (hended _ hcalls)
  | fails _ _ hcalls => exact .inl (hended _ hcalls)
  | _ => exact .inl rfl

/-- Whatever the queries, the tail and the journal do, the calls are made one at a time, none for
what was fetched, and the right to fetch is not lost. -/
theorem single_flight (h : Reachable number settings registry c) : c.SingleFlight where
  atMostOne := by
    rw [h.sound.filter_isOutstanding, FetchRight.outstanding]
    split <;> simp
  nonempty := h.descending.nonempty
  calls := fun _ hm => h.calls_move hm
  descending := h.descending.descending
  disjoint := h.descending.disjoint
  tiles := by
    intro hinc hinside low hlow
    obtain ⟨hmark, hne⟩ := lowest?_eq_some.1 hlow
    cases hhandled : c.handled with
    | nil => exact absurd (hmark.symm.trans (h.of_handled_nil hhandled).1) hne
    | cons r rs => exact ⟨r, rs, rfl, hmark ▸ h.tiles hinc hinside hhandled⟩
  held := fun hidle => hidle.holder_isSome_iff h.sound
  free := h.sound.pending_of_free

/-- A query waits while another fetches, and then fetches what is still missing; a third one waits
too long, and a record of the tail comes in between. -/
def overlap : List Move :=
  [.deliver (Sample.marker .zero 10), .handle, .ask ⟨1, "a", 5⟩, .ask ⟨2, "a", 3⟩,
    .ask ⟨3, "a", 4⟩, .deliver (.message (Sample.message .zero 11 "a" .add)), .handle, .expire 3,
    .answer 1 (.ok (Sample.messages .zero "a" [5, 7])), .resume 2,
    .answer 2 (.ok (Sample.messages .zero "a" [3]))]

theorem single_flight_overlap :
    ((start 0 .standard .empty).run overlap).SingleFlight ∧
      ((start 0 .standard .empty).run overlap).successes = [(5, 10), (3, 5)] :=
  ⟨single_flight (Reachable.start.run (by decide)), by decide⟩

end Course

end JournalCache

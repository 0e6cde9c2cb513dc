import JournalCache.Proofs.Course.Step

/-!
# What the record of a course tells

What came to an end and what the journal was asked only ever grows, and it tells where the lowest
mark stands: it is the lowest offset that a handled record or a successful fetch reached
(`Reachable.lowMark_le_iff`). While no record was handled there is no mark and no call.
-/

namespace JournalCache

/-- The offsets down to which an end of something extended what is covered. -/
def Deed.reached : Deed → List Offset
  | .returned q (some (.ok batch)) _ => q.requested :: (batch.head?.map (·.offset)).toList
  | .handled r => [r.offset]
  | _ => []

theorem Deed.exists_reached_backfill {q : Query} {batch : List Message}
    {result : Except Fault (Queue Item)} {o : Offset} :
    (∃ p ∈ (Deed.returned q (some (.ok batch)) result).reached, p ≤ o) ↔
      q.requested ≤ o ∨ ∃ m, batch.head? = some m ∧ m.offset ≤ o := by
  cases batch with
  | nil => simp [reached]
  | cons m ms => simp [reached]

theorem Cache.queue?_releaseQueues (c : Cache) (o : Outlet) (agent : String) :
    (c.releaseQueues o).1.holdings.table.queue? agent = c.holdings.table.queue? agent := by
  rw [Cache.releaseQueues, AgentTable.release_eq]
  rfl

namespace Course

variable {c d : Course} {m : Move}

/-- The lowest mark, which is reserved while no record was met. -/
def lowMark (c : Course) : Offset := c.cache.holdings.coverage.lowMark

theorem lowest?_eq_some {low : Offset} :
    c.lowest? = some low ↔ c.lowMark = low ∧ low ≠ reservedOffset := Coverage.lowest?_eq_some

theorem lowest?_eq_none : c.lowest? = none ↔ c.lowMark = reservedOffset :=
  Coverage.lowest?_eq_none

/-! ## One step -/

/-- A step adds to what came to an end, and moves the lowest mark to what that reached. -/
theorem Step.deeds (h : c.Step m d) :
    ∃ ds, d.deeds = c.deeds ++ ds ∧
      ∀ o, d.lowMark ≤ o ↔ c.lowMark ≤ o ∨ ∃ x ∈ ds, ∃ p ∈ x.reached, p ≤ o := by
  cases h with
  | succeeds =>
      refine ⟨_, rfl, fun o => ?_⟩
      simp only [List.mem_singleton, exists_eq_left, Deed.exists_reached_backfill]
      exact Holdings.lowMark_backfill_le_iff ..
  | @handles r =>
      refine ⟨_, rfl, fun o => ?_⟩
      simp only [List.mem_singleton, exists_eq_left, Deed.reached]
      exact Holdings.lowMark_ingest_le_iff ..
  | returnsAtOnce => exact ⟨_, rfl, fun o => by simp [lowMark, Deed.reached]⟩
  | skips => exact ⟨_, rfl, fun o => by simp [lowMark, skip, Deed.reached]⟩
  | expires => exact ⟨_, rfl, fun o => by simp [lowMark, timeOut, leaveLine, Deed.reached]⟩
  | fails => exact ⟨_, rfl, fun o => by simp [lowMark, fail, Cache.passOn, Deed.reached]⟩
  | releases =>
      exact ⟨_, rfl, fun o => by simp [lowMark, Cache.releaseQueues, Deed.reached]⟩
  | _ => exact ⟨[], (List.append_nil _).symm, fun o => by simp [lowMark, beginFetch, leaveLine,
      giveUp, Cache.passOn, Cache.deliver, Cache.shutDown, Cache.stop]⟩

theorem Step.lowMark_le (h : c.Step m d) : d.lowMark ≤ c.lowMark := by
  rcases h.deeds with ⟨ds, -, hmark⟩
  exact (hmark _).2 (.inl (Std.le_refl _))

theorem Step.lowMark_ne (h : c.Step m d) (hc : c.lowMark ≠ reservedOffset) :
    d.lowMark ≠ reservedOffset := by
  intro hd
  apply hc
  have hle := h.lowMark_le
  rw [hd] at hle
  exact Std.le_antisymm (le_reservedOffset _) hle

theorem Step.handled (h : c.Step m d) : ∃ rs, d.handled = c.handled ++ rs := by
  rcases h.deeds with ⟨ds, hds, -⟩
  exact ⟨_, by rw [Course.handled, hds, List.filterMap_append]; rfl⟩

theorem handled_takeIn (c : Course) (r : Delivery) (rs : List Delivery) :
    (c.takeIn r rs).handled = c.handled ++ [r] := by
  simp [Course.handled, takeIn]

/-- Only tail ingestion handles records, and it handles the oldest that was delivered. -/
theorem Step.handled_eq (h : c.Step m d) :
    d.handled = c.handled ∨
      m = .handle ∧ c.cache.isFollowing ∧ ∃ r rs, c.cache.inbox = r :: rs ∧ d = c.takeIn r rs := by
  cases h with
  | handles hinbox hfollowing => exact .inr ⟨rfl, hfollowing, _, _, hinbox, rfl⟩
  | returnsAtOnce => exact .inl (by simp [Course.handled])
  | skips => exact .inl (by simp [Course.handled, skip])
  | expires => exact .inl (by simp [Course.handled, timeOut])
  | succeeds => exact .inl (by simp [Course.handled, succeed])
  | fails => exact .inl (by simp [Course.handled, fail])
  | releases => exact .inl (by simp [Course.handled])
  | _ => exact .inl rfl

/-- What is delivered stays delivered, in order, until tail ingestion ends. -/
theorem Step.tail (h : c.Step m d) (hm : ∀ r, m ≠ .deliver r) (hd : d.cache.isFollowing) :
    c.cache.isFollowing ∧ d.handled ++ d.cache.inbox = c.handled ++ c.cache.inbox := by
  rcases h.handled_eq with heq | ⟨-, hfollowing, r, rs, hinbox, rfl⟩
  · rw [heq]
    cases h with
    | delivers r => exact absurd rfl (hm r)
    | stops => cases hd
    | handles hinbox => rw [handled_takeIn] at heq; simp at heq
    | _ => exact ⟨hd, rfl⟩
  · rw [handled_takeIn, hinbox]
    exact ⟨hfollowing, by simp [takeIn]⟩

/-- Only tail ingestion and the answer of a fetch touch the queues and tell the listener. -/
theorem Step.quiet (h : c.Step m d) (hhandle : m ≠ .handle)
    (hanswer : ∀ ticket batch, m ≠ .answer ticket (.ok batch)) :
    d.handled = c.handled ∧ d.lowMark = c.lowMark ∧
      (∀ agent, d.cache.holdings.table.queue? agent = c.cache.holdings.table.queue? agent) ∧
      d.outlet.notices = c.outlet.notices := by
  have hhandled : d.handled = c.handled := by
    rcases h.handled_eq with heq | ⟨hm, -⟩
    · exact heq
    · exact absurd hm hhandle
  refine ⟨hhandled, ?_⟩
  cases h with
  | handles => exact absurd rfl hhandle
  | succeeds => exact absurd rfl (hanswer _ _)
  | releases => exact ⟨rfl, Cache.queue?_releaseQueues _ _, rfl⟩
  | _ => exact ⟨rfl, fun _ => rfl, rfl⟩

/-- A step makes at most one call, for what is missing below the lowest mark, or ends the last one,
and leaves the others. A call that succeeds leaves its range covered. -/
theorem Step.calls (h : c.Step m d) :
    d.calls = c.calls ∨
      (∃ f, d.calls = c.calls ++ [⟨f, .outstanding⟩] ∧ f.first < f.upTo ∧ f.upTo = c.lowMark ∧
        d.lowMark = c.lowMark) ∨
      ∃ past f state, c.calls = past ++ [⟨f, .outstanding⟩] ∧ d.calls = past ++ [⟨f, state⟩] ∧
        state ≠ .outstanding ∧ ∀ batch, state = .answered (.ok batch) → d.lowMark ≤ f.first := by
  cases h with
  | @fetches q rest low _ _ _ hlow hq =>
      exact .inr (.inl ⟨_, rfl, hq, (lowest?_eq_some.1 hlow).1.symm, rfl⟩)
  | leavesFetch _ _ hcalls => exact .inr (.inr ⟨_, _, _, hcalls, rfl, by simp, by simp⟩)
  | @succeeds q rest upTo past batch _ _ hcalls =>
      refine .inr (.inr ⟨_, _, _, hcalls, rfl, by simp, fun _ _ => ?_⟩)
      exact (Holdings.lowMark_backfill_le_iff ..).2 (.inr (.inl (Std.le_refl _)))
  | fails _ _ hcalls => exact .inr (.inr ⟨_, _, _, hcalls, rfl, by simp, by simp⟩)
  | _ => exact .inl rfl

theorem Step.mem_calls (h : c.Step m d) {k : Call} (hk : k ∈ c.calls)
    (hstate : k.state ≠ .outstanding) : k ∈ d.calls := by
  rcases h.calls with hcalls | ⟨f, hcalls, -⟩ | ⟨past, f, state, hpast, hcalls, -⟩
  · rwa [hcalls]
  · rw [hcalls]
    exact List.mem_append_left _ hk
  · rw [hpast] at hk
    rw [hcalls]
    rcases List.mem_append.1 hk with hk | hk
    · exact List.mem_append_left _ hk
    · rw [List.mem_singleton.1 hk] at hstate
      exact absurd rfl hstate

/-- Before a record is met, no query is under way after a step if none was before it. -/
theorem Step.idle (h : c.Step m d) (hlow : c.lowest? = none) (hpending : c.pending = []) :
    d.pending = [] ∧ d.calls = c.calls := by
  cases h with
  | waits _ hlow' => rw [hlow] at hlow'; cases hlow'
  | fetches _ _ hlow' => rw [hlow] at hlow'; cases hlow'
  | skips _ hpending' => rw [hpending] at hpending'; cases hpending'
  | expires hq => rw [hpending] at hq; cases hq
  | leavesLine hq => rw [hpending] at hq; cases hq
  | leavesRight _ hpending' => rw [hpending] at hpending'; cases hpending'
  | leavesFetch _ hpending' => rw [hpending] at hpending'; cases hpending'
  | succeeds _ hpending' => rw [hpending] at hpending'; cases hpending'
  | fails _ hpending' => rw [hpending] at hpending'; cases hpending'
  | _ => exact ⟨hpending, rfl⟩

/-! ## Every run -/

variable {number : Nat} {settings : Settings} {registry : Registry}

/-- The lowest mark is the lowest offset that anything reached. -/
theorem Reachable.lowMark_le_iff (h : Reachable number settings registry c) {o : Offset} :
    c.lowMark ≤ o ↔ o = reservedOffset ∨ ∃ x ∈ c.deeds, ∃ p ∈ x.reached, p ≤ o := by
  induction h with
  | start =>
      change reservedOffset ≤ o ↔ _
      constructor
      · intro ho
        exact .inl (Std.le_antisymm (le_reservedOffset o) ho)
      · rintro (rfl | ⟨x, hx, -⟩)
        · exact Std.le_refl _
        · cases hx
  | move hc hm ih =>
      obtain ⟨ds, hds, hmark⟩ := (hc.step hm).deeds
      rw [hmark, ih, hds]
      simp only [List.mem_append, or_and_right, exists_or, or_assoc]

theorem mem_handled {r : Delivery} : r ∈ c.handled ↔ .handled r ∈ c.deeds := by
  rw [handled, List.mem_filterMap]
  constructor
  · intro h
    rcases h with ⟨x, hx, hr⟩
    cases x with
    | handled r' =>
        obtain rfl : r' = r := Option.some.inj hr
        exact hx
    | returned => cases hr
    | released => cases hr
  · exact fun hr => ⟨_, hr, rfl⟩

theorem Reachable.lowMark_le_handled (h : Reachable number settings registry c) {r : Delivery}
    (hr : r ∈ c.handled) : c.lowMark ≤ r.offset :=
  h.lowMark_le_iff.2 (.inr ⟨_, mem_handled.1 hr, r.offset, by simp [Deed.reached], Std.le_refl _⟩)

/-- Before a record was handled there is no mark, nobody fetched and nobody waits. -/
theorem Reachable.of_handled_nil (h : Reachable number settings registry c) (hr : c.handled = []) :
    c.lowMark = reservedOffset ∧ c.calls = [] ∧ c.pending = [] := by
  induction h with
  | start => exact ⟨rfl, rfl, rfl⟩
  | @move c hc m hm ih =>
      have hstep := hc.step hm
      rcases hstep.handled with ⟨rs, hrs⟩
      obtain ⟨hmark, hcalls, hpending⟩ := ih (List.append_eq_nil_iff.1 (hrs ▸ hr)).1
      obtain ⟨hidle, hcalls'⟩ := hstep.idle (lowest?_eq_none.2 hmark) hpending
      refine ⟨?_, hcalls'.trans hcalls, hidle⟩
      generalize c.move m = d at hstep hr
      cases hstep with
      | handles => simp [Course.handled, takeIn] at hr
      | succeeds _ hpending' => rw [hpending] at hpending'; cases hpending'
      | _ => exact hmark

end Course

end JournalCache

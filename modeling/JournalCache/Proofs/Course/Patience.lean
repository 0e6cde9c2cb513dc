import JournalCache.Proofs.Course.SingleFlight

/-!
# Queries that wait too long

A query that waits looks whether its offset is covered only when the right reaches it. When its
limit is over first, it returns with a timeout and does not look; so it may do so though another
query has covered its offset meanwhile. It does so exactly when something that came to an end
reached down to its offset and the right is with some other query. If the right reaches it after
all, it returns with what it asked for.
-/

namespace JournalCache

namespace Course

/-- A query waits for the right to fetch, which another query has. -/
def Waits (c : Course) (q : Query) : Prop :=
  q ∈ c.pending ∧ ∃ h, c.cache.right.holder = some h ∧ h.ticket ≠ q.ticket

def Covers (c : Course) (o : Offset) : Prop := ∃ low, c.lowest? = some low ∧ low ≤ o

/-- Something that came to an end reached down to an offset. -/
def ReachedDownTo (c : Course) (o : Offset) : Prop := ∃ x ∈ c.deeds, ∃ p ∈ x.reached, p ≤ o

/-- In a move a query returns with a timeout. -/
def TimesOut (c : Course) (m : Move) (q : Query) : Prop :=
  ∃ ms, (c.move m).deeds = c.deeds ++ [.returned q none (.error (.timedOut ms))]

variable {c d : Course} {m : Move} {q : Query}

/-- Only a query that waits returns with a timeout, and only when its limit is over. -/
theorem Step.waits_of_timedOut (h : c.Step m d) {ms : Nat}
    (hd : d.deeds = c.deeds ++ [.returned q none (.error (.timedOut ms))]) :
    m = .expire q.ticket ∧ c.Waits q := by
  have hlast : ∀ {x : Deed}, c.deeds ++ [x] = d.deeds →
      x = .returned q none (.error (.timedOut ms)) := by
    intro x hx
    simpa [hd] using hx
  have hnone : c.deeds ≠ d.deeds := by
    intro hnone
    simp [hd] at hnone
  cases h with
  | expires hq hholder hne =>
      cases hlast rfl
      exact ⟨rfl, hq, _, hholder, hne⟩
  | returnsAtOnce hresult => cases hlast rfl; cases hresult
  | skips => cases hlast rfl
  | succeeds => cases hlast rfl
  | fails => cases hlast rfl
  | handles => cases hlast rfl
  | releases => cases hlast rfl
  | _ => exact absurd rfl hnone

theorem Sound.timesOut_expire (hs : c.Sound) (hq : c.Waits q) :
    c.TimesOut (.expire q.ticket) q := by
  rcases hq with ⟨hq, h, hholder, hne⟩
  refine ⟨c.cache.settings.fetchWait.milliseconds, ?_⟩
  rw [move_expire_of_waiting hs hq hholder hne]
  rfl

variable {number : Nat} {settings : Settings} {registry : Registry}

/-- A query under way asked for an offset below a mark, so for one that is not reserved. -/
theorem Reachable.requested_ne_reserved (h : Reachable number settings registry c) :
    ∀ q ∈ c.pending, c.lowMark ≠ reservedOffset ∧ q.requested ≠ reservedOffset := by
  induction h with
  | start => simp [Course.start]
  | @move c hc m hm ih =>
      have hstep := hc.step hm
      have hseeded : c.lowMark ≠ reservedOffset → (c.move m).lowMark ≠ reservedOffset :=
        hstep.lowMark_ne
      have hkept : ∀ q ∈ c.pending, (c.move m).lowMark ≠ reservedOffset ∧
          q.requested ≠ reservedOffset := fun q hq => ⟨hseeded (ih q hq).1, (ih q hq).2⟩
      have hfresh : ∀ {q : Query} {low : Offset}, c.lowest? = some low → q.requested < low →
          (c.move m).lowMark ≠ reservedOffset ∧ q.requested ≠ reservedOffset := by
        intro q low hlow hlt
        obtain ⟨rfl, hne⟩ := lowest?_eq_some.1 hlow
        refine ⟨hseeded hne, fun hq => ?_⟩
        rw [hq] at hlt
        exact Std.not_lt.2 (le_reservedOffset _) hlt
      generalize c.move m = d at hstep hkept hfresh
      intro p hp
      cases hstep with
      | waits _ hlow hq =>
          rcases List.mem_append.1 hp with hp | hp
          · exact hkept p hp
          · rw [List.mem_singleton.1 hp]
            exact hfresh hlow hq
      | fetches _ hturn hlow hq =>
          rcases List.mem_cons.1 hp with rfl | hp
          · exact hfresh hlow hq
          · rcases hturn.pending_eq with ⟨-, rfl⟩ | hpending
            · cases hp
            · exact hkept p (hpending ▸ List.mem_cons_of_mem _ hp)
      | skips _ hpending => exact hkept p (hpending ▸ List.mem_cons_of_mem _ hp)
      | leavesRight _ hpending => exact hkept p (hpending ▸ List.mem_cons_of_mem _ hp)
      | leavesFetch _ hpending => exact hkept p (hpending ▸ List.mem_cons_of_mem _ hp)
      | succeeds _ hpending => exact hkept p (hpending ▸ List.mem_cons_of_mem _ hp)
      | fails _ hpending => exact hkept p (hpending ▸ List.mem_cons_of_mem _ hp)
      | expires => exact hkept p (List.mem_filter.1 hp).1
      | leavesLine => exact hkept p (List.mem_filter.1 hp).1
      | _ => exact hkept p hp

theorem Reachable.covers_iff (h : Reachable number settings registry c) (hq : q ∈ c.pending) :
    c.Covers q.requested ↔ c.ReachedDownTo q.requested := by
  obtain ⟨hseeded, hne⟩ := h.requested_ne_reserved q hq
  have hlow : c.lowest? = some c.lowMark := lowest?_eq_some.2 ⟨rfl, hseeded⟩
  have hcovers : c.Covers q.requested ↔ c.lowMark ≤ q.requested := by simp [Covers, hlow]
  rw [hcovers, h.lowMark_le_iff]
  exact or_iff_right hne

/-- A move makes a query return with a timeout though its offset is covered exactly if the limit of
the query is over while it waits for some other query, and something that came to an end reached
down to its offset. The right is then kept from it by a fetch of older records, as far as the tail
comes in order; and if the right reaches it first, it returns with its queue. -/
theorem times_out_covered_iff (h : Reachable number settings registry c) (hm : c.Allows m)
    (q : Query) :
    (c.TimesOut m q ∧ c.Covers q.requested ↔
        m = .expire q.ticket ∧ c.Waits q ∧ c.ReachedDownTo q.requested) ∧
      (c.Covers q.requested → c.TailIncreases →
        ∀ f, c.cache.right.holder = some (.fetching f) → f.upTo ≤ q.requested) ∧
      (c.Covers q.requested → ∀ rest, c.pending = q :: rest →
        c.cache.right.holder = some (.passedTo q.waiter) →
        (c.move (.resume q.ticket)).deeds =
          c.deeds ++ [.returned q none (.ok (c.cache.queue q.agent))]) := by
  refine ⟨⟨?_, ?_⟩, ?_, ?_⟩
  · intro hall
    rcases hall with ⟨⟨ms, hd⟩, hcovers⟩
    obtain ⟨hexpire, hwaits⟩ := (h.step hm).waits_of_timedOut hd
    exact ⟨hexpire, hwaits, (h.covers_iff hwaits.1).1 hcovers⟩
  · intro hall
    rcases hall with ⟨rfl, hwaits, hreached⟩
    exact ⟨h.sound.timesOut_expire hwaits, (h.covers_iff hwaits.1).2 hreached⟩
  · rintro ⟨low, hlow, hle⟩ hinc f hholder
    obtain ⟨past, hcalls, -⟩ := h.sound.calls_of_fetching hholder
    have hupTo := h.upTo_eq_lowMark hinc ⟨f, .outstanding⟩ (by simp [hcalls]) rfl
    rw [hupTo, (lowest?_eq_some.1 hlow).1]
    exact hle
  · rintro ⟨low, hlow, hle⟩ rest hpending hholder
    have hcovered : ∀ low', c.lowest? = some low' → low' ≤ q.requested := by
      intro low' hlow'
      rw [hlow] at hlow'
      rwa [← Option.some.inj hlow']
    rw [move_resume_of_covered h.sound hholder hpending hcovered]
    rfl

/-- A query waits for the records from 5 on. Another query fetches them; then the right passes to a
third one, which fetches records below 5. -/
def overtaken : List Move :=
  [.deliver (Sample.marker .zero 10), .handle, .ask ⟨1, "a", 5⟩, .ask ⟨2, "a", 2⟩,
    .ask ⟨3, "a", 5⟩, .answer 1 (.ok (Sample.messages .zero "a" [5])), .resume 2]

theorem times_out_covered_overtaken :
    ((start 0 .standard .empty).run overtaken).TimesOut (.expire 3) ⟨3, "a", 5⟩ ∧
      ((start 0 .standard .empty).run overtaken).Covers 5 :=
  (times_out_covered_iff (m := .expire 3) (Reachable.start.run (by decide)) trivial
    ⟨3, "a", 5⟩).1.2
    ⟨rfl, ⟨by decide, .fetching ⟨2, 2, 5⟩, rfl, by decide⟩,
      .returned ⟨1, "a", 5⟩ (some (.ok (Sample.messages .zero "a" [5]))) _,
      .tail _ (.head _), 5, .head _, Std.le_refl _⟩

end Course

end JournalCache

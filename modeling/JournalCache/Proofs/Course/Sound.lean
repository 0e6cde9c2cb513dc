import JournalCache.Proofs.Course.Basic

/-!
# Courses in order

A course is in order (`Course.Sound`) if the queries under way are, in this order, the holder of the
right to fetch and those who wait for it, and the last call of the journal is outstanding exactly
while the holder fetches. This module says what follows from that, and that it is kept when the
first in the line passes the right on, when somebody else leaves, and when somebody joins.
-/

namespace JournalCache

def Holder.waiter : Holder → Waiter
  | .passedTo w => w
  | .fetching f => ⟨f.ticket, f.first⟩

@[simp] theorem Holder.ticket_waiter (h : Holder) : h.waiter.ticket = h.ticket := by
  cases h <;> rfl

namespace FetchRight

/-- The queries that hold the right or wait for it, longest first. -/
def engaged (r : FetchRight) : List Waiter := r.holder.toList.map Holder.waiter ++ r.waiting

/-- The call that the holder of the right has made and that has not ended. -/
def outstanding (r : FetchRight) : List Call :=
  match r.holder with
  | some (.fetching f) => [⟨f, .outstanding⟩]
  | _ => []

theorem engaged_passOn (r : FetchRight) : r.passOn.engaged = r.waiting := by
  unfold passOn
  split
  · next h => rw [h]; rfl
  · next h => rw [h]; rfl

theorem outstanding_passOn (r : FetchRight) : r.passOn.outstanding = [] := by
  unfold passOn
  split <;> rfl

theorem passOn_of_waiting_nil {r : FetchRight} (h : r.waiting = []) : r.passOn = .free := by
  rw [passOn, h]

theorem waiting_passOn_of_holder {r : FetchRight} (h : r.passOn.holder = none) :
    r.passOn.waiting = [] := by
  unfold passOn at h ⊢
  split at h
  · rfl
  · cases h

/-- Who gets the right has still to look before it fetches. -/
theorem holder_passOn_ne (r : FetchRight) (f : Fetch) : r.passOn.holder ≠ some (.fetching f) := by
  unfold passOn
  split <;> simp [free]

theorem withdraw_of_holder_ne {r : FetchRight} {h : Holder} {t : Nat} (hholder : r.holder = some h)
    (hne : h.ticket ≠ t) :
    r.withdraw t = { r with waiting := r.waiting.filter fun w => w.ticket != t } := by
  have hnot : ¬ r.isHolder t := by simpa [isHolder, hholder] using hne
  rw [withdraw, if_neg hnot]

theorem withdraw_of_holder {r : FetchRight} {h : Holder} (hholder : r.holder = some h) :
    r.withdraw h.ticket = r.passOn := by
  have hyes : r.isHolder h.ticket := by simp [isHolder, hholder]
  rw [withdraw, if_pos hyes]

end FetchRight

namespace Course

/-! ## Queries under way and their tickets -/

theorem filter_ticket_beq {qs : List Query} {q : Query} (h : (qs.map (·.ticket)).Nodup)
    (hq : q ∈ qs) : (qs.filter fun p => p.ticket == q.ticket) = [q] := by
  induction qs with
  | nil => cases hq
  | cons p qs ih =>
      rw [List.map_cons, List.nodup_cons] at h
      rcases List.mem_cons.1 hq with rfl | hq'
      · have hnone : (qs.filter fun p => p.ticket == q.ticket) = [] := by
          rw [List.filter_eq_nil_iff]
          intro p hp heq
          exact h.1 (List.mem_map.2 ⟨p, hp, by simpa using heq⟩)
        rw [List.filter_cons_of_pos (by simp), hnone]
      · have hne : ¬ (p.ticket == q.ticket) := by
          intro heq
          exact h.1 (List.mem_map.2 ⟨q, hq', by simpa using (beq_iff_eq.1 heq).symm⟩)
        rw [List.filter_cons_of_neg (by simpa using hne), ih h.2 hq']

theorem filter_ticket_bne {qs : List Query} {t : Nat} (h : ∀ p ∈ qs, p.ticket ≠ t) :
    (qs.filter fun p => p.ticket != t) = qs := by
  rw [List.filter_eq_self]
  intro p hp
  simpa using h p hp

theorem filter_ticket_bne_cons {qs : List Query} {q : Query}
    (h : ((q :: qs).map (·.ticket)).Nodup) :
    ((q :: qs).filter fun p => p.ticket != q.ticket) = qs := by
  rw [List.map_cons, List.nodup_cons] at h
  rw [List.filter_cons_of_neg (by simp)]
  apply filter_ticket_bne
  intro p hp heq
  exact h.1 (List.mem_map.2 ⟨p, hp, heq⟩)

theorem nodup_tickets_concat {qs : List Query} {q : Query} (h : (qs.map (·.ticket)).Nodup)
    (hfresh : ∀ p ∈ qs, p.ticket ≠ q.ticket) : ((qs ++ [q]).map (·.ticket)).Nodup := by
  rw [List.map_append, List.nodup_append]
  refine ⟨h, by simp, ?_⟩
  rintro _ ha _ hb rfl
  obtain ⟨p, hp, hpa⟩ := List.mem_map.1 ha
  exact hfresh p hp (hpa.trans (by simpa using hb))

theorem awaits_of_ne {k : Call} (h : k.state ≠ .outstanding) (ticket : Nat) :
    k.awaits ticket = false := by
  unfold Call.awaits
  cases hstate : k.state with
  | outstanding => exact absurd hstate h
  | answered => rfl
  | abandoned => rfl

theorem map_close_of_not_awaits {calls : List Call} {ticket : Nat}
    (h : ∀ k ∈ calls, k.awaits ticket = false) (state : CallState) :
    calls.map (Call.close ticket state) = calls := by
  have hclose : ∀ k ∈ calls, Call.close ticket state k = k := by
    intro k hk
    rw [Call.close, h k hk, if_neg Bool.false_ne_true]
  rw [List.map_congr_left hclose, List.map_id']

theorem map_close_append {past : List Call} (h : ∀ k ∈ past, k.state ≠ .outstanding) (f : Fetch)
    (state : CallState) :
    (past ++ [(⟨f, .outstanding⟩ : Call)]).map (Call.close f.ticket state) =
      past ++ [⟨f, state⟩] := by
  rw [List.map_append, map_close_of_not_awaits fun k hk => awaits_of_ne (h k hk) f.ticket]
  simp [Call.close, Call.awaits]

theorem not_outstanding_concat {past : List Call} (hpast : ∀ k ∈ past, k.state ≠ .outstanding)
    {f : Fetch} {state : CallState} (hstate : state ≠ .outstanding) :
    ∀ k ∈ past ++ [(⟨f, state⟩ : Call)], k.state ≠ .outstanding := by
  intro k hk
  rcases List.mem_append.1 hk with hk | hk
  · exact hpast k hk
  · rw [List.mem_singleton.1 hk]
    exact hstate

/-! ## Order -/

/-- The queries under way, the right to fetch and the outstanding call fit together. -/
structure Sound (c : Course) : Prop where
  engaged : c.pending.map Query.waiter = c.cache.right.engaged
  nodup : (c.pending.map (·.ticket)).Nodup
  waiting_of_free : c.cache.right.holder = none → c.cache.right.waiting = []
  calls : ∃ past, c.calls = past ++ c.cache.right.outstanding ∧ ∀ k ∈ past, k.state ≠ .outstanding

namespace Sound

variable {c : Course}

theorem pending_of_free (hs : c.Sound) (h : c.cache.right.holder = none) : c.pending = [] := by
  have hengaged := hs.engaged
  rw [FetchRight.engaged, h, hs.waiting_of_free h] at hengaged
  exact List.map_eq_nil_iff.1 hengaged

/-- The holder of the right is the query longest under way, and the others wait. -/
theorem pending_of_holder (hs : c.Sound) {h : Holder} (hholder : c.cache.right.holder = some h) :
    ∃ q rest, c.pending = q :: rest ∧ q.waiter = h.waiter ∧
      rest.map Query.waiter = c.cache.right.waiting := by
  have hengaged := hs.engaged
  rw [FetchRight.engaged, hholder] at hengaged
  cases hpending : c.pending with
  | nil => rw [hpending] at hengaged; cases hengaged
  | cons q rest =>
      rw [hpending] at hengaged
      exact ⟨q, rest, rfl, (List.cons.inj hengaged).1, (List.cons.inj hengaged).2⟩

/-- The last call is outstanding while the holder of the right fetches. -/
theorem calls_of_fetching (hs : c.Sound) {f : Fetch}
    (hholder : c.cache.right.holder = some (.fetching f)) :
    ∃ past, c.calls = past ++ [⟨f, .outstanding⟩] ∧ ∀ k ∈ past, k.state ≠ .outstanding := by
  rcases hs.calls with ⟨past, hcalls, hpast⟩
  rw [FetchRight.outstanding, hholder] at hcalls
  exact ⟨past, hcalls, hpast⟩

/-- Only the holder of the right has a call that has not ended. -/
theorem holder_of_awaits (hs : c.Sound) {k : Call} (hk : k ∈ c.calls) {t : Nat}
    (ht : k.awaits t) : ∃ f, c.cache.right.holder = some (.fetching f) ∧ f.ticket = t := by
  rcases hs.calls with ⟨past, hcalls, hpast⟩
  rw [hcalls] at hk
  rcases List.mem_append.1 hk with hk | hk
  · rw [awaits_of_ne (hpast k hk)] at ht
    cases ht
  · unfold FetchRight.outstanding at hk
    split at hk
    · next f hholder =>
      rw [List.mem_singleton] at hk
      refine ⟨f, hholder, ?_⟩
      rw [hk] at ht
      exact beq_iff_eq.1 ht
    · cases hk

theorem isWaiting_iff (hs : c.Sound) {t : Nat} :
    c.cache.right.isWaiting t ↔
      ∃ q h, q ∈ c.pending ∧ q.ticket = t ∧ c.cache.right.holder = some h ∧ h.ticket ≠ t := by
  have hwaits : ∀ w ∈ c.cache.right.waiting, ∃ h, c.cache.right.holder = some h := by
    intro w hw
    cases hholder : c.cache.right.holder with
    | none => rw [hs.waiting_of_free hholder] at hw; cases hw
    | some h => exact ⟨h, rfl⟩
  rw [FetchRight.isWaiting, List.any_eq_true]
  constructor
  · intro hall
    rcases hall with ⟨w, hw, hticket⟩
    obtain ⟨h, hholder⟩ := hwaits w hw
    obtain ⟨p, rest, hpending, hp, hrest⟩ := hs.pending_of_holder hholder
    rw [← hrest, List.mem_map] at hw
    rcases hw with ⟨q, hq, rfl⟩
    have hqt : q.ticket = t := by simpa [Query.waiter] using hticket
    refine ⟨q, h, by simp [hpending, hq], hqt, hholder, ?_⟩
    have hnodup := hs.nodup
    rw [hpending, List.map_cons, List.nodup_cons] at hnodup
    intro hht
    have hpt : p.ticket = h.ticket := by rw [← Holder.ticket_waiter, ← hp]; rfl
    exact hnodup.1 (List.mem_map.2 ⟨q, hq, by rw [hqt, hpt, hht]⟩)
  · intro hall
    rcases hall with ⟨q, h, hq, rfl, hholder, hne⟩
    obtain ⟨p, rest, hpending, hp, hrest⟩ := hs.pending_of_holder hholder
    have hpt : p.ticket = h.ticket := by rw [← Holder.ticket_waiter, ← hp]; rfl
    rw [hpending] at hq
    rcases List.mem_cons.1 hq with rfl | hq
    · exact absurd hpt.symm hne
    · refine ⟨q.waiter, ?_, by simp [Query.waiter]⟩
      rw [← hrest]
      exact List.mem_map_of_mem hq

/-! ## What keeps the order -/

/-- What is left in order when the query longest under way goes and passes the right on. -/
theorem passOn (hs : c.Sound) {h : Holder} {q : Query} {rest : List Query}
    (hholder : c.cache.right.holder = some h) (hpending : c.pending = q :: rest)
    {cache : Cache} (hright : cache.right = c.cache.right.passOn) {calls : List Call}
    (hcalls : ∀ k ∈ calls, k.state ≠ .outstanding) (outlet : Outlet) (deeds : List Deed) :
    Sound ⟨cache, outlet, rest, calls, deeds⟩ where
  engaged := by
    obtain ⟨p, rest', hpending', -, hrest⟩ := hs.pending_of_holder hholder
    obtain rfl : rest = rest' := (List.cons.inj (hpending.symm.trans hpending')).2
    change rest.map Query.waiter = cache.right.engaged
    rw [hright, FetchRight.engaged_passOn, hrest]
  nodup := by
    have hnodup := hs.nodup
    rw [hpending, List.map_cons, List.nodup_cons] at hnodup
    exact hnodup.2
  waiting_of_free := by
    intro hfree
    change cache.right.holder = none at hfree
    change cache.right.waiting = []
    rw [hright] at hfree ⊢
    exact FetchRight.waiting_passOn_of_holder hfree
  calls := by
    refine ⟨calls, ?_, hcalls⟩
    change calls = calls ++ cache.right.outstanding
    rw [hright, FetchRight.outstanding_passOn, List.append_nil]

/-- What is left in order when a query that does not hold the right goes. -/
theorem leave (hs : c.Sound) {h : Holder} {t : Nat}
    (hholder : c.cache.right.holder = some h) (hne : h.ticket ≠ t) {cache : Cache}
    (hright : cache.right =
      { c.cache.right with waiting := c.cache.right.waiting.filter fun w => w.ticket != t })
    (deeds : List Deed) :
    Sound ⟨cache, c.outlet, c.pending.filter fun p => p.ticket != t, c.calls, deeds⟩ where
  engaged := by
    obtain ⟨p, rest, hpending, hp, hrest⟩ := hs.pending_of_holder hholder
    have hpt : p.ticket ≠ t := by
      have hpticket : p.ticket = h.ticket := by rw [← Holder.ticket_waiter, ← hp]; rfl
      rwa [hpticket]
    change (c.pending.filter fun p => p.ticket != t).map Query.waiter = cache.right.engaged
    rw [hright, FetchRight.engaged, hholder, hpending,
      List.filter_cons_of_pos (by simpa using hpt), List.map_cons, hp, ← hrest, List.filter_map]
    rfl
  nodup := hs.nodup.sublist (List.filter_sublist.map _)
  waiting_of_free := by
    intro hfree
    change cache.right.holder = none at hfree
    rw [hright, hholder] at hfree
    cases hfree
  calls := by
    rcases hs.calls with ⟨past, hcalls, hpast⟩
    refine ⟨past, ?_, hpast⟩
    change c.calls = past ++ cache.right.outstanding
    rw [hright, hcalls]
    rfl

theorem wait (hs : c.Sound) {h : Holder} {q : Query}
    (hfresh : ∀ p ∈ c.pending, p.ticket ≠ q.ticket) (hholder : c.cache.right.holder = some h) :
    Sound { c with
      cache := { c.cache with
        right := { c.cache.right with waiting := c.cache.right.waiting ++ [q.waiter] } }
      pending := c.pending ++ [q] } where
  engaged := by
    rw [List.map_append, hs.engaged]
    simp [FetchRight.engaged]
  nodup := nodup_tickets_concat hs.nodup hfresh
  waiting_of_free := by
    intro hfree
    change c.cache.right.holder = none at hfree
    rw [hholder] at hfree
    cases hfree
  calls := hs.calls

end Sound

end Course

end JournalCache

import JournalCache.Proofs.Course.Record

/-!
# What a move leaves to the other queries

A move is made by one query, named by its ticket, or by none. To every query of another ticket it
leaves its place: the query is under way as before, a fetch of its own goes on, and the calls that
it made stand as they stood.
-/

namespace JournalCache

def Move.ticket? : Move → Option Nat
  | .ask q => some q.ticket
  | .resume ticket | .expire ticket | .withdraw ticket | .answer ticket _ => some ticket
  | .deliver _ | .handle | .shutDown | .stop | .release => none

namespace Course

variable {c d e : Course} {m : Move} {k : Nat}

/-- The course `d` has the query of ticket `k` where `c` has it, and lost nothing of what came to an
end. -/
structure Keeps (c d : Course) (k : Nat) : Prop where
  pending : ∀ q, q.ticket = k → (q ∈ d.pending ↔ q ∈ c.pending)
  fetching : ∀ f, f.ticket = k → c.cache.right.holder = some (.fetching f) →
    d.cache.right.holder = some (.fetching f)
  deeds : ∀ x ∈ c.deeds, x ∈ d.deeds

theorem Keeps.refl (c : Course) (k : Nat) : c.Keeps c k :=
  ⟨fun _ _ => Iff.rfl, fun _ _ h => h, fun _ h => h⟩

theorem Keeps.trans (h : c.Keeps d k) (h' : d.Keeps e k) : c.Keeps e k where
  pending := fun q hq => (h'.pending q hq).trans (h.pending q hq)
  fetching := fun f hf hholder => h'.fetching f hf (h.fetching f hf hholder)
  deeds := fun x hx => h'.deeds x (h.deeds x hx)

/-- A move leaves the query of every other ticket where it is. -/
theorem Step.keeps (h : c.Step m d) (hk : m.ticket? ≠ some k) : c.Keeps d k := by
  have hother : ∀ {q : Query}, m.ticket? = some q.ticket → q.ticket ≠ k :=
    fun hq hqk => hk (hq.trans (congrArg some hqk))
  refine ⟨?_, ?_, ?_⟩
  · intro p hp
    have hfirst : ∀ {q : Query} {rest : List Query}, c.pending = q :: rest → q.ticket ≠ k →
        (p ∈ rest ↔ p ∈ c.pending) := by
      intro q rest hpending hne
      rw [hpending, List.mem_cons, or_iff_right]
      rintro rfl
      exact hne hp
    have hfilter : ∀ {q : Query}, q.ticket ≠ k →
        ((p ∈ c.pending.filter fun p => p.ticket != q.ticket) ↔ p ∈ c.pending) := by
      intro q hne
      rw [List.mem_filter, and_iff_left]
      simpa [hp] using hne.symm
    cases h with
    | @waits q =>
        have hne : p ≠ q := fun hpq => hother rfl (hpq ▸ hp)
        change p ∈ c.pending ++ [q] ↔ p ∈ c.pending
        simp [hne]
    | @fetches q rest low _ hm hturn =>
        have hne : q.ticket ≠ k := by rcases hm with rfl | rfl <;> exact hother rfl
        change p ∈ q :: rest ↔ p ∈ c.pending
        rcases hturn.pending_eq with ⟨hnil, rfl⟩ | hpending
        · have hpq : p ≠ q := fun hpq => hne (hpq ▸ hp)
          simp [hnil, hpq]
        · rw [hpending]
    | skips _ hpending => exact hfirst hpending (hother rfl)
    | expires => exact hfilter (hother rfl)
    | leavesLine => exact hfilter (hother rfl)
    | leavesRight _ hpending => exact hfirst hpending (hother rfl)
    | leavesFetch _ hpending => exact hfirst hpending (hother rfl)
    | succeeds _ hpending => exact hfirst hpending (hother rfl)
    | fails _ hpending => exact hfirst hpending (hother rfl)
    | _ => exact Iff.rfl
  · intro f hf hholder
    have hfetching : ∀ {q : Query} {upTo : Offset}, q.ticket ≠ k →
        c.cache.right.holder ≠ some (.fetching ⟨q.ticket, q.requested, upTo⟩) := by
      intro q upTo hne hq
      rw [hholder] at hq
      cases hq
      exact hne hf
    have hpassed : ∀ w, c.cache.right.holder ≠ some (.passedTo w) := by simp [hholder]
    cases h with
    | fetches _ hturn =>
        cases hturn with
        | free hnone => rw [hholder] at hnone; cases hnone
        | passed hw => exact absurd hw (hpassed _)
    | skips hw => exact absurd hw (hpassed _)
    | leavesRight hw => exact absurd hw (hpassed _)
    | leavesFetch hq => exact absurd hq (hfetching (hother rfl))
    | succeeds hq => exact absurd hq (hfetching (hother rfl))
    | fails hq => exact absurd hq (hfetching (hother rfl))
    | _ => exact hholder
  · rcases h.deeds with ⟨ds, hds, -⟩
    rw [hds]
    exact fun x hx => List.mem_append_left ds hx

theorem Sound.keeps_run (hs : c.Sound) {ms : List Move} (hms : c.AllowsAll ms)
    (hk : ∀ m ∈ ms, m.ticket? ≠ some k) : c.Keeps (c.run ms) k := by
  induction ms generalizing c with
  | nil => exact .refl c k
  | cons m ms ih =>
      have hstep := step_move hs hms.1
      exact (hstep.keeps (hk m List.mem_cons_self)).trans
        (ih (hstep.sound hs) hms.2 fun m hm => hk m (List.mem_cons_of_mem _ hm))

/-! ## Fetches and calls of the other queries -/

/-- The calls that the journal received from queries of this ticket, in order. -/
def callsOf (c : Course) (ticket : Nat) : List Call :=
  c.calls.filter fun k => k.fetch.ticket == ticket

theorem callsOf_concat {calls : List Call} {k : Call} (hd : d.calls = calls ++ [k]) (t : Nat) :
    d.callsOf t = (calls.filter fun l => l.fetch.ticket == t) ++
      if k.fetch.ticket = t then [k] else [] := by
  rw [callsOf, hd, List.filter_append, List.filter_cons, List.filter_nil]
  simp

theorem Step.callsOf_of_ne (h : c.Step m d) (hk : m.ticket? ≠ some k) :
    d.callsOf k = c.callsOf k := by
  have hother : ∀ {q : Query}, m.ticket? = some q.ticket → q.ticket ≠ k :=
    fun hq hqk => hk (hq.trans (congrArg some hqk))
  -- the last call ends, and it is not one of these
  have hended : ∀ {q : Query} {upTo : Offset} {past : List Call} (state : CallState),
      q.ticket ≠ k → c.calls = past ++ [⟨⟨q.ticket, q.requested, upTo⟩, .outstanding⟩] →
      d.calls = past ++ [⟨⟨q.ticket, q.requested, upTo⟩, state⟩] →
      d.callsOf k = c.callsOf k := by
    intro q upTo past state hne hcalls hdcalls
    rw [callsOf_concat hdcalls, callsOf_concat hcalls, if_neg hne, if_neg hne]
  cases h with
  | @fetches q rest low _ hm =>
      have hne : q.ticket ≠ k := by rcases hm with rfl | rfl <;> exact hother rfl
      rw [callsOf_concat (d := c.beginFetch q rest low) rfl, if_neg hne, List.append_nil]
      rfl
  | leavesFetch _ _ hcalls => exact hended _ (hother rfl) hcalls rfl
  | succeeds _ _ hcalls => exact hended _ (hother rfl) hcalls rfl
  | fails _ _ hcalls => exact hended _ (hother rfl) hcalls rfl
  | _ => rfl

/-- Only the query itself begins its fetch. -/
theorem Step.fetching_of_ne (h : c.Step m d) (hk : m.ticket? ≠ some k) {f : Fetch}
    (hf : d.cache.right.holder = some (.fetching f)) (hfk : f.ticket = k) :
    c.cache.right.holder = some (.fetching f) := by
  have hpassed := c.cache.right.holder_passOn_ne f
  cases h with
  | @fetches q rest low _ hm =>
      obtain rfl : (⟨q.ticket, q.requested, low⟩ : Fetch) = f := by
        simpa [beginFetch] using hf
      rcases hm with rfl | rfl <;> exact absurd (congrArg some hfk) hk
  | skips => exact absurd hf hpassed
  | leavesRight => exact absurd hf hpassed
  | leavesFetch => exact absurd hf hpassed
  | succeeds => exact absurd hf hpassed
  | fails => exact absurd hf hpassed
  | _ => exact hf

end Course

end JournalCache

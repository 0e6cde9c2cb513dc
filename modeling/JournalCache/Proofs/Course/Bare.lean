import JournalCache.Proofs.Course.Bystanders

/-!
# What queries go by

A query goes by the queues, the marks, the right to fetch and the settings. It does not matter to it
which queues are registered, nor whether tail ingestion runs and what it has still to handle. So a
move of a query does the same to a course from which these are taken away (`move_bare`).
-/

namespace JournalCache

def AgentTable.bare (t : AgentTable) : AgentTable :=
  { t with registers := false, registrations := .empty, isReleased := false }

def Holdings.bare (h : Holdings) : Holdings := { h with table := h.table.bare }

def Notice.bare (n : Notice) : Notice := { n with holdings := n.holdings.bare }

def Outlet.bare (o : Outlet) : Outlet := ⟨.empty, o.notices.map Notice.bare⟩

def Cache.bare (c : Cache) : Cache :=
  { c with
    holdings := c.holdings.bare
    inbox := []
    isFollowing := false
    isShutDown := false
    isSubscribed := false }

def Deed.isReturn : Deed → Bool
  | .returned .. => true
  | _ => false

/-- The course as far as queries go by it. -/
def Course.bare (c : Course) : Course :=
  { c with
    cache := c.cache.bare
    outlet := c.outlet.bare
    deeds := c.deeds.filter Deed.isReturn }

/-! ## Merging -/

namespace AgentTable

theorem ensure_bare (t : AgentTable) (r s : Registry) (agent : String) :
    t.bare.ensure s agent = ((t.ensure r agent).1.bare, s) := by
  cases hqueue : t.queue? agent with
  | some q =>
      have hsome : (t.queue? agent).isSome := by rw [hqueue]; rfl
      rw [ensure_of_isSome hsome]
      exact ensure_of_isSome (t := t.bare) hsome
  | none =>
      rw [ensure_of_none hqueue]
      -- The bare table registers nothing.
      refine (ensure_of_none (t := t.bare) hqueue).trans ((if_neg Bool.false_ne_true).trans ?_)
      split <;> rfl

end AgentTable

namespace Holdings

/-- What is held and reported, without registrations. -/
def strip (s : Holdings × Outlet) : Holdings × Outlet := (s.1.bare, s.2.bare)

theorem mergeGroup_strip (s : Holdings × Outlet) (g : String × List Message) :
    mergeGroup (strip s) g = strip (mergeGroup s g) := by
  have hensure := s.1.table.ensure_bare s.2.registry .empty g.1
  change mergeGroup (⟨s.1.table.bare, s.1.coverage⟩, ⟨.empty, s.2.notices.map Notice.bare⟩) g = _
  rw [mergeGroup]
  dsimp only
  rw [hensure, strip, mergeGroup, Outlet.bare]
  simp only [List.map_append]
  rfl

theorem mergeGroups_strip (s : Holdings × Outlet) (gs : List (String × List Message)) :
    mergeGroups (strip s) gs = strip (mergeGroups s gs) := by
  induction gs generalizing s with
  | nil => rfl
  | cons g gs ih => rw [mergeGroups_cons, mergeGroups_cons, mergeGroup_strip, ih]

theorem merge_bare (h : Holdings) (o : Outlet) (batch : List Message) :
    h.bare.merge o.bare batch = strip (h.merge o batch) := by
  rw [merge_eq, merge_eq]
  change ((mergeGroups (strip (h, o)) _).1.lowerTo batch, (mergeGroups (strip (h, o)) _).2) = _
  rw [mergeGroups_strip]
  cases batch <;> rfl

end Holdings

/-! ## The steps of a query -/

namespace Cache

theorem look_bare (c : Cache) (w : Waiter) : c.bare.look w = ((c.look w).1.bare, (c.look w).2) := by
  have hlowest : c.bare.lowest? = c.lowest? := rfl
  rw [look, look, hlowest]
  cases c.lowest? with
  | none => rfl
  | some low =>
      dsimp only
      split <;> rfl

theorem ask_bare (c : Cache) (w : Waiter) : c.bare.ask w = ((c.ask w).1.bare, (c.ask w).2) := by
  have hlowest : c.bare.lowest? = c.lowest? := rfl
  have hright : c.bare.right = c.right := rfl
  rw [ask, ask, hlowest, hright]
  cases c.lowest? with
  | none => rfl
  | some low =>
      dsimp only
      split
      · rfl
      · split
        · exact look_bare c w
        · rfl

theorem resume_bare (c : Cache) : c.bare.resume = (c.resume.1.bare, c.resume.2) := by
  have hright : c.bare.right = c.right := rfl
  rw [resume, resume, hright]
  split
  · exact look_bare c _
  · rfl

theorem expire_bare (c : Cache) (ticket : Nat) :
    c.bare.expire ticket = ((c.expire ticket).1.bare, (c.expire ticket).2) := by
  have hright : c.bare.right = c.right := rfl
  rw [expire, expire, hright]
  split <;> rfl

theorem answer_bare (c : Cache) (o : Outlet) (reply : FetchReply) :
    c.bare.answer o.bare reply =
      ((c.answer o reply).1.bare, (c.answer o reply).2.1.bare, (c.answer o reply).2.2) := by
  have hright : c.bare.right = c.right := rfl
  rw [answer, answer, hright]
  split
  · cases reply with
    | error => rfl
    | ok batch =>
        dsimp only
        rw [show c.bare.holdings.merge o.bare batch = Holdings.strip (c.holdings.merge o batch) from
          Holdings.merge_bare _ _ _]
        rfl
  · rfl

end Cache

namespace Course

theorem finish_bare (c : Course) (ticket : Nat) (reply : Option FetchReply)
    (outcome : Except Fault Unit) :
    c.bare.finish ticket reply outcome = (c.finish ticket reply outcome).bare := by
  have hreturns : ∀ qs : List Query,
      (qs.map fun q => (Deed.returned q reply (outcome.map fun _ => c.cache.queue q.agent))).filter
        Deed.isReturn =
      qs.map fun q => .returned q reply (outcome.map fun _ => c.cache.queue q.agent) := by
    intro qs
    rw [List.filter_eq_self]
    intro x hx
    obtain ⟨q, -, rfl⟩ := List.mem_map.1 hx
    rfl
  rw [finish, finish, bare, bare]
  dsimp only
  rw [List.filter_append, hreturns]
  rfl

theorem proceed_bare (c : Course) (ticket : Nat) (reply : Option FetchReply) (p : Progress) :
    c.bare.proceed ticket reply p = (c.proceed ticket reply p).bare := by
  cases p with
  | waiting => rfl
  | fetching => rfl
  | ended outcome => exact finish_bare c ticket reply outcome

variable (c : Course)

/-- A query moves on by what is left of the course. -/
theorem move_bare {m : Move} (hm : m.ticket?.isSome) : c.bare.move m = (c.move m).bare := by
  cases m with
  | ask q =>
      have hask : c.bare.cache.ask q.waiter = _ := Cache.ask_bare c.cache q.waiter
      rw [move, move, hask]
      exact proceed_bare { c with
        cache := (c.cache.ask q.waiter).1
        pending := c.pending ++ [q] } ..
  | resume ticket =>
      have hresume : c.bare.cache.resume = _ := Cache.resume_bare c.cache
      have hright : c.bare.cache.right = c.cache.right := rfl
      rw [move, move, hright]
      split
      · rw [hresume]
        exact proceed_bare { c with cache := c.cache.resume.1 } ..
      · rfl
  | expire ticket =>
      have hexpire : c.bare.cache.expire ticket = _ := Cache.expire_bare c.cache ticket
      rw [move, move, hexpire]
      exact proceed_bare { c with cache := (c.cache.expire ticket).1 } ..
  | withdraw ticket => rfl
  | answer ticket reply =>
      have hanswer : c.bare.cache.answer c.bare.outlet reply = _ :=
        Cache.answer_bare c.cache c.outlet reply
      have hcalls : c.bare.calls = c.calls := rfl
      rw [move, move, hcalls]
      split
      · rw [hanswer]
        exact proceed_bare { c with
          cache := (c.cache.answer c.outlet reply).1
          outlet := (c.cache.answer c.outlet reply).2.1
          calls := c.calls.map (Call.close ticket (.answered reply)) } ..
      · rfl
  | deliver | handle | shutDown | stop | release => cases hm

theorem run_bare {ms : List Move} (hms : ∀ m ∈ ms, m.ticket?.isSome) :
    c.bare.run ms = (c.run ms).bare := by
  induction ms generalizing c with
  | nil => rfl
  | cons m ms ih =>
      have hrun : (c.bare.move m).run ms = ((c.move m).run ms).bare := by
        rw [move_bare c (hms m List.mem_cons_self)]
        exact ih _ fun n hn => hms n (List.mem_cons_of_mem _ hn)
      exact hrun

/-- The release of the registrations leaves all that queries go by. -/
theorem bare_release : (c.move .release).bare = c.bare := by
  have hdeeds : (c.deeds ++ [Deed.released]).filter Deed.isReturn =
      c.deeds.filter Deed.isReturn := by
    rw [List.filter_append]
    exact List.append_nil _
  change ({ c.bare with
    cache := (c.cache.releaseQueues c.outlet).1.bare
    deeds := (c.deeds ++ [Deed.released]).filter Deed.isReturn } : Course) = c.bare
  rw [hdeeds, Cache.releaseQueues, AgentTable.release_eq]
  rfl

end Course

end JournalCache

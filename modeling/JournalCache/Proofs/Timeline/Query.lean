import JournalCache.Proofs.Timeline.Plays

/-!
# Queries of a timeline make moves

When a query of a timeline has its turn, it makes moves of the course of its cache: it asks, and
goes on with what it waited for, is timed out or is answered. Where it ends, it has what it returned
in the course.
-/

namespace JournalCache

namespace Course

variable {c : Course}

@[simp] theorem cache_proceed (c : Course) (ticket : Nat) (reply : Option FetchReply)
    (p : Progress) : (c.proceed ticket reply p).cache = c.cache := by
  cases p <;> rfl

@[simp] theorem outlet_proceed (c : Course) (ticket : Nat) (reply : Option FetchReply)
    (p : Progress) : (c.proceed ticket reply p).outlet = c.outlet := by
  cases p <;> rfl

theorem ticket_ne_of_finish {ticket : Nat} {reply : Option FetchReply}
    {outcome : Except Fault Unit} :
    ∀ p ∈ (c.finish ticket reply outcome).pending, p.ticket ≠ ticket := by
  intro p hp
  simpa using (List.mem_filter.1 hp).2

theorem returned_mem_finish {q : Query} (hq : q ∈ c.pending) (reply : Option FetchReply)
    (outcome : Except Fault Unit) :
    .returned q reply (outcome.map fun _ => c.cache.queue q.agent) ∈
      (c.finish q.ticket reply outcome).deeds :=
  List.mem_append_right _ (List.mem_map.2 ⟨q, List.mem_filter.2 ⟨hq, by simp⟩, rfl⟩)

end Course

namespace Cache

variable {c c' : Cache} {w : Waiter} {first upTo : Offset}

theorem holder_of_look (h : c.look w = (c', .fetching first upTo)) :
    c'.right.holder = some (.fetching ⟨w.ticket, first, upTo⟩) := by
  unfold look at h
  split at h
  · split at h
    · cases h
      rfl
    · cases h
  · cases h

theorem holder_of_ask (h : c.ask w = (c', .fetching first upTo)) :
    c'.right.holder = some (.fetching ⟨w.ticket, first, upTo⟩) := by
  unfold ask at h
  split at h
  · cases h
  · split at h
    · cases h
    · split at h
      · exact holder_of_look h
      · cases h

theorem holder_of_resume {ticket : Nat} (hholder : c.right.isHolder ticket)
    (h : c.resume = (c', .fetching first upTo)) :
    c'.right.holder = some (.fetching ⟨ticket, first, upTo⟩) := by
  unfold resume at h
  split at h
  · next w hw =>
    have hticket : w.ticket = ticket := by
      simpa [FetchRight.isHolder, hw, Holder.ticket] using hholder
    rw [← hticket]
    exact holder_of_look h
  · cases h

end Cache

namespace Timeline

variable {tl tl' tl'' : Timeline} {busy : Option Nat} {cs ds : Nat → Course} {k : Nat} {t : Task}

/-! ## What leaves caches and tasks alone -/

theorem Same.refl (tl : Timeline) : tl.Same tl := ⟨rfl, rfl, rfl⟩

theorem Same.trans (h : tl.Same tl') (h' : tl'.Same tl'') : tl.Same tl'' :=
  ⟨h'.members.trans h.members, h'.registry.trans h.registry, h'.tasks.trans h.tasks⟩

theorem same_schedule (tl : Timeline) (due : Nat) (p : Party) : tl.Same (tl.schedule due p) :=
  ⟨rfl, rfl, rfl⟩

theorem same_schedules {α : Type} (p : α → Party) (as : List α) (tl : Timeline) :
    tl.Same (as.foldl (fun (tl : Timeline) a => tl.schedule tl.now (p a)) tl) := by
  induction as generalizing tl with
  | nil => exact .refl tl
  | cons a as ih => exact (same_schedule ..).trans (ih _)

theorem same_wakeTail (tl : Timeline) (i : Nat) : tl.Same (tl.wakeTail i) := by
  rw [wakeTail]
  split
  · exact .refl tl
  · exact same_schedule ..

theorem same_wakeConsumer (tl : Timeline) (consumer : Option Nat) :
    tl.Same (tl.wakeConsumer consumer) := by
  cases consumer with
  | none => exact .refl tl
  | some i => exact same_wakeTail tl i

theorem same_rouse (tl : Timeline) : tl.Same tl.rouse := by
  have hresting : tl.Same { tl with resting := [] } := ⟨rfl, rfl, rfl⟩
  exact hresting.trans (same_schedules .tail tl.resting _)

theorem same_call (tl : Timeline) (ks : List Nat) : tl.Same (tl.call ks) := by
  have hline : tl.Same { tl with line := tl.line.filter fun k => !ks.contains k } :=
    ⟨rfl, rfl, rfl⟩
  exact hline.trans (same_schedules .task ks _)

/-! ## Playing on -/

/-- Moves lead from the courses to courses that the timeline plays. -/
def PlaysOn (tl : Timeline) (cs : Nat → Course) : Prop :=
  ∃ ds, Course.Leads cs ds ∧ tl.Plays none ds

theorem Plays.playsOn (h : tl.Plays none cs) : tl.PlaysOn cs := ⟨cs, .refl cs, h⟩

theorem PlaysOn.after (h : tl.PlaysOn ds) (hleads : Course.Leads cs ds) : tl.PlaysOn cs := by
  rcases h with ⟨es, hes, hplays⟩
  exact ⟨es, hleads.trans hes, hplays⟩

theorem PlaysOn.bind (h : tl.PlaysOn cs) (hnext : ∀ ds, tl.Plays none ds → tl'.PlaysOn ds) :
    tl'.PlaysOn cs := by
  rcases h with ⟨ds, hds, hplays⟩
  exact (hnext ds hplays).after hds

theorem PlaysOn.congr (h : tl.PlaysOn cs) (hsame : tl.Same tl') : tl'.PlaysOn cs :=
  h.bind fun _ hds => (hds.congr hsame).playsOn

/-! ## Steps of caches -/

section StepCache

variable {α : Type} {f : Cache → Outlet → Cache × Outlet × α}

theorem stepCache_eq (tl : Timeline) (i : Nat) (f : Cache → Outlet → Cache × Outlet × α) :
    (tl.stepCache i f).2 = (tl.site.stepCache i f).2 ∧
      (tl.stepCache i f).1.site = (tl.site.stepCache i f).1 ∧
      (tl.stepCache i f).1.tasks = tl.tasks := by
  rw [stepCache]
  dsimp only
  split
  · split <;> exact ⟨rfl, rfl, rfl⟩
  · exact ⟨rfl, rfl, rfl⟩

theorem Plays.cache?_eq (h : tl.Plays busy cs) (ht : tl.tasks[k]? = some t) :
    tl.site.cache? t.cache = some (cs t.cache).cache := by
  have hlt := h.members t (List.mem_of_getElem? ht)
  have hm : tl.site.members[t.cache]? = some tl.site.members[t.cache] :=
    List.getElem?_eq_getElem hlt
  rw [Site.cache?, hm, ← (h.caches _ _ hm).1]
  rfl

/-- The cache of a task makes a move of the query that takes its turn. -/
theorem Plays.act (h : tl.Plays (some k) cs) (ht : tl.tasks[k]? = some t) {m : Move}
    (hm : (cs t.cache).Allows m) (hticket : m.ticket? = some k) (hf : Cache.Heedless f)
    (hcache : ((cs t.cache).move m).cache = (f (cs t.cache).cache (cs t.cache).outlet).1)
    (houtlet : ((cs t.cache).move m).outlet = (f (cs t.cache).cache (cs t.cache).outlet).2.1) :
    ∃ tl₁, tl.stepCache t.cache f =
        (tl₁, some (f (cs t.cache).cache (cs t.cache).outlet).2.2) ∧
      tl₁.tasks = tl.tasks ∧
      tl₁.Plays (some k) (Function.update cs t.cache ((cs t.cache).move m)) := by
  obtain ⟨hanswer, hsite, htasks⟩ := stepCache_eq tl t.cache f
  have hlt := h.members t (List.mem_of_getElem? ht)
  have hmember : tl.site.members[t.cache]? = some tl.site.members[t.cache] :=
    List.getElem?_eq_getElem hlt
  obtain ⟨hmc, hmo⟩ := h.caches _ _ hmember
  obtain ⟨hsome, -⟩ := Site.stepCache_of_some hf hmember hmo
  rw [hmc] at hsome
  refine ⟨_, Prod.ext rfl (hanswer.trans hsome), htasks, ?_⟩
  have hallowed : (cs t.cache).AllowsAll [m] := ⟨hm, trivial⟩
  refine h.stepCache hf hallowed ?_ hcache houtlet hsite htasks
  intro m' hm' j hj
  rw [List.mem_singleton.1 hm', hticket] at hj
  obtain rfl := Option.some.inj hj
  exact ⟨rfl, t, ht, rfl⟩

theorem Plays.leads_move (hm : (cs t.cache).Allows m) :
    Course.Leads cs (Function.update cs t.cache ((cs t.cache).move m)) := by
  have hallowed : (cs t.cache).AllowsAll [m] := ⟨hm, trivial⟩
  exact .update hallowed

end StepCache

/-! ## Queries -/

/-- The query `q`, the task `t` of the timeline, takes its turn. -/
structure QueryTurn (tl : Timeline) (cs : Nat → Course) (q : Query) (t : Task) : Prop where
  plays : tl.Plays (some q.ticket) cs
  task : tl.tasks[q.ticket]? = some t
  asks : t.Asks q

namespace QueryTurn

variable {q : Query}

theorem act {α : Type} {f : Cache → Outlet → Cache × Outlet × α} (h : tl.QueryTurn cs q t)
    {m : Move} (hm : (cs t.cache).Allows m) (hticket : m.ticket? = some q.ticket)
    (hf : Cache.Heedless f)
    (hcache : ((cs t.cache).move m).cache = (f (cs t.cache).cache (cs t.cache).outlet).1)
    (houtlet : ((cs t.cache).move m).outlet = (f (cs t.cache).cache (cs t.cache).outlet).2.1) :
    ∃ tl₁, tl.stepCache t.cache f =
        (tl₁, some (f (cs t.cache).cache (cs t.cache).outlet).2.2) ∧
      tl₁.QueryTurn (Function.update cs t.cache ((cs t.cache).move m)) q t := by
  obtain ⟨tl₁, hstep, htasks, hplays⟩ := h.plays.act h.task hm hticket hf hcache houtlet
  exact ⟨tl₁, hstep, hplays, htasks ▸ h.task, h.asks⟩

/-- The query comes to a stage in which it is still under way. -/
theorem sleep (h : tl.QueryTurn cs q t) {stage : Stage} {due : Nat}
    (hstands : Task.Stands { t with stage } q.ticket (cs t.cache)) :
    (tl.sleep q.ticket due stage).PlaysOn cs := by
  have hplays : (tl.setStage q.ticket stage).Plays none cs := by
    refine h.plays.setStage (.inr rfl) fun t' ht' => ?_
    rw [h.task] at ht'
    obtain rfl := Option.some.inj ht'
    exact hstands
  exact (hplays.congr (same_schedule ..)).playsOn

/-- The query ends with what it returned in the course. -/
theorem finish (h : tl.QueryTurn cs q t) {answer : Answer} {reply : Option FetchReply}
    {result : Except Fault (Queue Item)}
    (hnone : ∀ p ∈ (cs t.cache).pending, p.ticket ≠ q.ticket)
    (hreturned : .returned q reply result ∈ (cs t.cache).deeds)
    (hanswer : answer = .ofResult result) : (tl.finish q.ticket answer).PlaysOn cs := by
  refine Plays.playsOn (h.plays.setStage (.inr rfl) fun t' ht' => ?_)
  rw [h.task] at ht'
  obtain rfl := Option.some.inj ht'
  refine ⟨hnone, fun p hp hasks => .inr ⟨reply, result, ?_, hanswer⟩⟩
  rw [hasks.eq h.asks hp]
  exact hreturned

theorem finishQuery (h : tl.QueryTurn cs q t) (reply : Option FetchReply)
    {outcome : Except Fault Unit} (hnone : ∀ p ∈ (cs t.cache).pending, p.ticket ≠ q.ticket)
    (hreturned : .returned q reply (outcome.map fun _ => (cs t.cache).cache.queue q.agent) ∈
      (cs t.cache).deeds) :
    (tl.finishQuery q.ticket t.cache q.agent outcome).PlaysOn cs := by
  cases outcome with
  | error e => exact h.finish hnone hreturned rfl
  | ok =>
      refine h.finish hnone hreturned ?_
      rw [h.plays.cache?_eq h.task]
      rfl

theorem conclude (h : tl.QueryTurn cs q t) (hq : q ∈ (cs t.cache).pending) {first upTo : Offset}
    (hholder : (cs t.cache).cache.right.holder = some (.fetching ⟨q.ticket, first, upTo⟩))
    (reply : FetchReply) : (tl.conclude q.ticket t.cache q.agent reply).PlaysOn cs := by
  obtain ⟨past, hcalls, -⟩ := (h.plays.sound t.cache).calls_of_fetching hholder
  have hawaits : (cs t.cache).calls.any fun c => c.awaits q.ticket := by
    rw [hcalls]
    simp [Call.awaits]
  have hmove : (cs t.cache).move (.answer q.ticket reply) =
      { cs t.cache with
        cache := ((cs t.cache).cache.answer (cs t.cache).outlet reply).1
        outlet := ((cs t.cache).cache.answer (cs t.cache).outlet reply).2.1
        calls := (cs t.cache).calls.map (Call.close q.ticket (.answered reply)) }.proceed
        q.ticket (some reply) ((cs t.cache).cache.answer (cs t.cache).outlet reply).2.2 := by
    rw [Course.move, if_pos hawaits]
  obtain ⟨outcome, houtcome⟩ :
      ∃ outcome, ((cs t.cache).cache.answer (cs t.cache).outlet reply).2.2 = .ended outcome := by
    rw [Cache.answer, hholder]
    cases reply <;> exact ⟨_, rfl⟩
  obtain ⟨tl₁, hstep, h₁⟩ := h.act (m := .answer q.ticket reply) trivial rfl
    (Cache.heedless_answer reply) (by rw [hmove, Course.cache_proceed])
    (by rw [hmove, Course.outlet_proceed])
  rw [Timeline.conclude, hstep, houtcome]
  refine PlaysOn.after (h₁.finishQuery (some reply) ?_ ?_) (Plays.leads_move trivial)
  · rw [Function.update_self, hmove, houtcome]
    exact Course.ticket_ne_of_finish
  · rw [Function.update_self, hmove, houtcome]
    exact Course.returned_mem_finish (by exact hq) _ _

theorem afterPrepared (h : tl.QueryTurn cs q t) (hq : q ∈ (cs t.cache).pending)
    {first upTo : Offset}
    (hholder : (cs t.cache).cache.right.holder = some (.fetching ⟨q.ticket, first, upTo⟩))
    (reply : Option FetchReply) :
    (tl.afterPrepared q.ticket t.cache q.agent reply first upTo).PlaysOn cs := by
  cases reply with
  | some reply => exact h.conclude hq hholder reply
  | none =>
      rw [Timeline.afterPrepared]
      dsimp only
      have hsame : tl.Same { tl with site := tl.site.overJournal (·.beginFetch first upTo) } :=
        ⟨rfl, rfl, rfl⟩
      have h₁ : QueryTurn { tl with site := tl.site.overJournal (·.beginFetch first upTo) }
          cs q t := ⟨h.plays.congr hsame, h.task, h.asks⟩
      split
      · exact h₁.conclude hq hholder _
      · exact h₁.sleep ⟨⟨q, hq, rfl, h.asks⟩, hholder⟩

theorem proceed (h : tl.QueryTurn cs q t) {c : Course} {p : Progress}
    (hc : cs t.cache = c.proceed q.ticket none p) (hq : q ∈ c.pending)
    (hfetching : ∀ first upTo, p = .fetching first upTo →
      c.cache.right.holder = some (.fetching ⟨q.ticket, first, upTo⟩)) :
    (tl.proceed q.ticket t.cache q.agent p).PlaysOn cs := by
  cases p with
  | waiting =>
      refine h.sleep ?_
      rw [hc]
      exact ⟨q, hq, rfl, h.asks⟩
  | ended outcome =>
      refine h.finishQuery none ?_ ?_
      · rw [hc]
        exact Course.ticket_ne_of_finish
      · rw [hc]
        exact Course.returned_mem_finish hq none outcome
  | fetching first upTo =>
      have hq' : q ∈ (cs t.cache).pending := by
        rw [hc]
        exact hq
      have hholder : (cs t.cache).cache.right.holder =
          some (.fetching ⟨q.ticket, first, upTo⟩) := by
        rw [hc, Course.cache_proceed]
        exact hfetching first upTo rfl
      rw [Timeline.proceed]
      dsimp only
      have hsame : ∀ journal, tl.Same { tl with site := { tl.site with journal } } :=
        fun _ => ⟨rfl, rfl, rfl⟩
      have h₁ : ∀ journal, QueryTurn { tl with site := { tl.site with journal } } cs q t :=
        fun _ => ⟨h.plays.congr (hsame _), h.task, h.asks⟩
      split
      · exact (h₁ _).afterPrepared hq' hholder _
      · exact (h₁ _).sleep ⟨⟨q, hq', rfl, h.asks⟩, hholder⟩

/-- In its turn the query makes a move of which nothing is reported. -/
theorem actQuietly (h : tl.QueryTurn cs q t) {m : Move} (hm : (cs t.cache).Allows m)
    (hticket : m.ticket? = some q.ticket) {f : Cache → Cache × Progress} {cache : Cache}
    {p : Progress} (hf : f (cs t.cache).cache = (cache, p)) {pending : List Query}
    (hmove : (cs t.cache).move m =
      { cs t.cache with cache, pending }.proceed q.ticket none p) :
    ∃ tl₁ ds, tl.overCache t.cache f = (tl₁, some p) ∧ Course.Leads cs ds ∧
      tl₁.QueryTurn ds q t ∧
      ds t.cache = { cs t.cache with cache, pending }.proceed q.ticket none p := by
  obtain ⟨tl₁, hstep, h₁⟩ := h.act hm hticket (Cache.heedless_over f)
    (by rw [hmove, Course.cache_proceed, hf]) (by rw [hmove, Course.outlet_proceed])
  rw [hf] at hstep
  exact ⟨tl₁, _, hstep, Plays.leads_move hm, h₁, by rw [Function.update_self, hmove]⟩

theorem ask (h : tl.QueryTurn cs q t) (hfresh : ∀ p ∈ (cs t.cache).pending, p.ticket ≠ q.ticket) :
    ∃ tl₁ p, tl.overCache t.cache (fun c => c.ask ⟨q.ticket, q.requested⟩) = (tl₁, some p) ∧
      (tl₁.proceed q.ticket t.cache q.agent p).PlaysOn cs := by
  rcases hask : (cs t.cache).cache.ask q.waiter with ⟨cache, p⟩
  obtain ⟨tl₁, ds, hstep, hleads, h₁, hds⟩ :=
    h.actQuietly (m := .ask q) hfresh rfl (f := fun c => c.ask q.waiter) hask (Course.move_ask hask)
  refine ⟨tl₁, p, hstep, (h₁.proceed hds (by simp) ?_).after hleads⟩
  rintro first upTo rfl
  exact Cache.holder_of_ask hask

theorem turnWaiting (h : tl.QueryTurn cs q t) (hq : q ∈ (cs t.cache).pending) {limit : Nat}
    (hstage : t.stage = .waiting limit) :
    (tl.turnWaiting q.ticket t.cache q.agent limit).PlaysOn cs := by
  have hright : tl.right t.cache = (cs t.cache).cache.right := by
    rw [right, h.plays.cache?_eq h.task]
    rfl
  -- the query waits on, wherever the others stand
  have hwaits : ∀ {tl₁ : Timeline} {ds : Nat → Course}, tl₁.QueryTurn ds q t →
      q ∈ (ds t.cache).pending → tl₁.PlaysOn ds := by
    intro tl₁ ds h₁ hq₁
    refine Plays.playsOn { h₁.plays with tasks := fun k u _ hu => ?_ }
    by_cases hk : k = q.ticket
    · rw [hk, h₁.task] at hu
      obtain rfl := Option.some.inj hu
      rw [hk, Task.Stands, hstage]
      exact ⟨q, hq₁, rfl, h₁.asks⟩
    · exact h₁.plays.tasks k u (by simpa using hk) hu
  rw [Timeline.turnWaiting, hright]
  split
  · next hholder =>
    rcases hresume : (cs t.cache).cache.resume with ⟨cache, p⟩
    obtain ⟨tl₁, ds, hstep, hleads, h₁, hds⟩ :=
      h.actQuietly (m := .resume q.ticket) trivial rfl hresume (Course.move_resume hholder hresume)
    rw [hstep]
    refine (h₁.proceed hds hq ?_).after hleads
    rintro first upTo rfl
    exact Cache.holder_of_resume hholder hresume
  · split
    · rcases hexpire : (cs t.cache).cache.expire q.ticket with ⟨cache, p⟩
      obtain ⟨tl₁, ds, hstep, hleads, h₁, hds⟩ :=
        h.actQuietly (m := .expire q.ticket) trivial rfl (f := fun c => c.expire q.ticket) hexpire
          (Course.move_expire hexpire)
      rw [hstep]
      cases p with
      | ended outcome =>
          refine PlaysOn.after (h₁.finishQuery none ?_ ?_) hleads
          · rw [hds]
            exact Course.ticket_ne_of_finish
          · rw [hds]
            exact Course.returned_mem_finish (by exact hq) none outcome
      | waiting =>
          refine PlaysOn.after (hwaits h₁ ?_) hleads
          rw [hds]
          exact hq
      | fetching first upTo =>
          refine PlaysOn.after (hwaits h₁ ?_) hleads
          rw [hds]
          exact hq
    · exact hwaits h hq

end QueryTurn

end Timeline

end JournalCache

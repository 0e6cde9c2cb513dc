import JournalCache.Proofs.Timeline.Query

/-!
# Every timeline plays courses

Whatever turn is taken on a timeline, its caches make moves of their courses in it: a query goes on
or is given up; tail ingestion handles its share or ends; a record is delivered; closing shuts down
and releases. So after any run each cache is that of a course that moves lead to, and what a query
got on the timeline is what it returned in the course (`run_courses`).
-/

namespace JournalCache

namespace Course

variable {c : Course}

theorem allowsAll_of_own {ms : List Move} (h : ∀ m ∈ ms, m.ticket? = none) : c.AllowsAll ms := by
  induction ms generalizing c with
  | nil => trivial
  | cons m ms ih =>
      refine ⟨?_, ih fun m hm => h m (List.mem_cons_of_mem _ hm)⟩
      have hm := h m List.mem_cons_self
      cases m with
      | ask q => cases hm
      | _ => trivial

theorem move_handle_eq (hfollowing : c.cache.isFollowing) (hnot : c.cache.isShutDown = false) :
    ((c.move .handle).cache, (c.move .handle).outlet) = c.cache.handleNext c.outlet := by
  rw [Cache.handleNext]
  cases hinbox : c.cache.inbox with
  | nil => rw [move_handle_of_not (.inl hinbox)]
  | cons r rs => rw [move_handle hinbox hfollowing hnot]; rfl

theorem run_handle {α : Type} (xs : List α) (hfollowing : c.cache.isFollowing)
    (hnot : c.cache.isShutDown = false) :
    ((c.run (xs.map fun _ => .handle)).cache, (c.run (xs.map fun _ => .handle)).outlet) =
      xs.foldl (fun s _ => s.1.handleNext s.2) (c.cache, c.outlet) := by
  induction xs generalizing c with
  | nil => rfl
  | cons x xs ih =>
      have hmove := move_handle_eq hfollowing hnot
      have hkept : (c.move .handle).cache.isFollowing = c.cache.isFollowing ∧
          (c.move .handle).cache.isShutDown = c.cache.isShutDown := by
        have hcache : (c.move .handle).cache = (c.cache.handleNext c.outlet).1 :=
          congrArg Prod.fst hmove
        rw [hcache, Cache.handleNext]
        split <;> exact ⟨rfl, rfl⟩
      rw [List.foldl_cons]
      change _ = xs.foldl _ (c.cache.handleNext c.outlet)
      rw [← hmove]
      exact ih (hkept.1 ▸ hfollowing) (hkept.2 ▸ hnot)

end Course

namespace Timeline

variable {tl : Timeline} {busy : Option Nat} {cs : Nat → Course} {k : Nat} {t : Task}

/-! ## Publications and closings -/

/-- A cache makes moves that no query makes. -/
theorem Plays.own (h : tl.Plays busy cs) {α : Type}
    {f : Cache → Outlet → Cache × Outlet × α} (hf : Cache.Heedless f) {i : Nat} (ms : List Move)
    (hms : ∀ m ∈ ms, m.ticket? = none)
    (hcache : ((cs i).run ms).cache = (f (cs i).cache (cs i).outlet).1)
    (houtlet : ((cs i).run ms).outlet = (f (cs i).cache (cs i).outlet).2.1) :
    ∃ ds, Course.Leads cs ds ∧ { tl with site := (tl.site.stepCache i f).1 }.Plays busy ds := by
  have hallowed := Course.allowsAll_of_own (c := cs i) hms
  refine ⟨_, .update hallowed, h.stepCache hf hallowed ?_ hcache houtlet rfl rfl⟩
  intro m hm k hk
  rw [hms m hm] at hk
  cases hk

theorem Plays.deliver (h : tl.Plays none cs) (i : Nat) (r : Delivery) :
    (tl.deliver i r).PlaysOn cs := by
  have hown := h.own (i := i) (Cache.heedless_over fun c => (c.deliver r, ())) [.deliver r]
    (by simp [Move.ticket?]) rfl rfl
  exact PlaysOn.congr hown (same_wakeTail _ i)

theorem tasks_deliver (tl : Timeline) (i : Nat) (r : Delivery) :
    (tl.deliver i r).tasks = tl.tasks := (same_wakeTail _ i).tasks

section Others

variable (h : tl.Plays none cs) (ht : tl.tasks[k]? = some t) (hidle : t.stage.isIdle)
  (hother : ∀ q, ¬ t.Asks q)

include h ht hidle hother

theorem Plays.setIdle {stage : Stage} (hstage : stage.isIdle) :
    (tl.setStage k stage).PlaysOn cs := by
  have hnone := (h.tasks k t (by simp) ht).ticket_ne hidle
  refine Plays.playsOn (h.setStage (.inl rfl) fun t' ht' => ?_)
  rw [ht] at ht'
  obtain rfl := Option.some.inj ht'
  cases stage with
  | asleep => exact hnone
  | sending => exact ⟨hnone, hother⟩
  | closing => exact ⟨hnone, hother⟩
  | waiting | prepared | fetching | ended => cases hstage

theorem Plays.finish (answer : Answer) : (tl.finish k answer).PlaysOn cs := by
  have hnone := (h.tasks k t (by simp) ht).ticket_ne hidle
  refine Plays.playsOn (h.setStage (.inl rfl) fun t' ht' => ?_)
  rw [ht] at ht'
  obtain rfl := Option.some.inj ht'
  exact ⟨hnone, fun q _ hq => absurd hq (hother q)⟩

theorem Plays.deliver_finish (i : Nat) (r : Delivery) (answer : Answer) :
    ((tl.deliver i r).finish k answer).PlaysOn cs :=
  (h.deliver i r).bind fun _ h₁ => h₁.finish (tasks_deliver tl i r ▸ ht) hidle hother answer

theorem Plays.publish (r : Delivery) : (tl.publish k r).PlaysOn cs := by
  have hsame : tl.Same { tl with site := tl.site.overJournal (·.keep r) } := ⟨rfl, rfl, rfl⟩
  have h₁ := h.congr hsame
  rw [Timeline.publish]
  dsimp only
  split
  · exact h₁.finish ht hidle hother _
  · split
    · exact h₁.deliver_finish ht hidle hother _ r _
    · exact (h₁.setIdle ht hidle hother rfl).congr ⟨rfl, rfl, rfl⟩

theorem Plays.turnSending (i : Nat) (r : Delivery) (isAdmitted : Bool) :
    (tl.turnSending k i r isAdmitted).PlaysOn cs := by
  rw [Timeline.turnSending]
  split
  · exact h.finish ht hidle hother _
  · split
    · exact h.deliver_finish ht hidle hother i r _
    · exact h.playsOn

end Others

theorem Plays.endClose (h : tl.Plays none cs) (i : Nat) : (tl.endClose i).PlaysOn cs :=
  h.own (i := i) Cache.heedless_releaseQueues [.release] (by simp [Move.ticket?]) rfl rfl

theorem Plays.beginClose (h : tl.Plays none cs) (i : Nat) : (tl.beginClose i).1.PlaysOn cs := by
  have hshut : { tl with site := (tl.site.beginClose i).1 }.PlaysOn cs := by
    rw [Site.beginClose]
    cases hcache : tl.site.cache? i with
    | none => exact h.playsOn
    | some c =>
        have hown := h.own (i := i) (Cache.heedless_over fun c => (c.shutDown, ())) [.shutDown]
          (by simp [Move.ticket?]) rfl rfl
        dsimp only
        split
        · exact PlaysOn.congr hown ⟨rfl, rfl, rfl⟩
        · exact hown
  have hwake := hshut.congr (same_wakeTail _ i)
  rw [Timeline.beginClose]
  dsimp only
  split
  · exact hwake
  · exact hwake.congr (same_wakeConsumer _ _)

theorem tasks_beginClose (tl : Timeline) (i : Nat) : (tl.beginClose i).1.tasks = tl.tasks := by
  rw [Timeline.beginClose]
  dsimp only
  split
  · exact (same_wakeTail _ i).tasks
  · exact ((same_wakeTail _ i).trans (same_wakeConsumer _ _)).tasks

/-! ## The turn of a task -/

theorem Plays.beginEvent (h : tl.Plays none cs) (ht : tl.tasks[k]? = some t) {wakeAt : Nat}
    (hstage : t.stage = .asleep wakeAt) : (tl.beginEvent k t).PlaysOn cs := by
  have hidle : t.stage.isIdle := by
    rw [hstage]
    rfl
  rw [Timeline.beginEvent]
  cases hevent : t.event with
  | query agent requested patience =>
      have hturn : tl.QueryTurn cs ⟨k, agent, requested⟩ t := ⟨h.begin k, ht, patience, hevent⟩
      obtain ⟨tl₁, p, hstep, hproceed⟩ := hturn.ask ((h.tasks k t (by simp) ht).ticket_ne hidle)
      dsimp only at hstep ⊢
      rw [hstep]
      exact hproceed
  | publish r => exact h.publish ht hidle (by simp [Task.Asks, hevent]) r
  | failFetches on =>
      have hsame : tl.Same { tl with
          site := tl.site.overJournal ({ · with failsFetches := on }) } := ⟨rfl, rfl, rfl⟩
      exact (h.congr hsame).finish ht hidle (by simp [Task.Asks, hevent]) _
  | close =>
      have hother : ∀ q, ¬ t.Asks q := by simp [Task.Asks, hevent]
      have hclose := h.beginClose t.cache
      have htasks := tasks_beginClose tl t.cache
      rcases hbegin : tl.beginClose t.cache with ⟨tl₁, waits⟩
      rw [hbegin] at hclose htasks
      dsimp only at hclose htasks ⊢
      cases waits with
      | true =>
          exact hclose.bind fun ds h₁ => h₁.setIdle (htasks ▸ ht) hidle hother rfl
      | false =>
          refine hclose.bind fun ds h₁ => (h₁.endClose t.cache).bind fun es h₂ => ?_
          exact h₂.finish (htasks ▸ ht) hidle hother _

theorem Plays.limitPatience (h : tl.Plays none cs) (k : Nat) (t : Task) :
    (tl.limitPatience k t).PlaysOn cs := by
  rw [Timeline.limitPatience]
  split
  · next patience _ =>
    have hmodify := h.modify (k := k) (.inl rfl)
      (g := fun t => { t with quitAt := some (tl.now + patience) }) (fun _ => rfl)
      fun t' ht' => h.tasks k t' (by simp) ht'
    exact (hmodify.congr (same_schedule ..)).playsOn
  · exact h.playsOn

theorem Plays.advance (h : tl.Plays none cs) (ht : tl.tasks[k]? = some t) :
    (tl.advance k t).PlaysOn cs := by
  have hstands := h.tasks k t (by simp) ht
  rw [Timeline.advance]
  unfold Task.Stands at hstands
  cases hstage : t.stage with
  | asleep wakeAt =>
      dsimp only
      split
      · exact (h.congr (same_schedule ..)).playsOn
      · exact (h.beginEvent ht hstage).bind fun _ h₁ => h₁.limitPatience k t
  | waiting limit =>
      rw [hstage] at hstands
      rcases hstands with ⟨q, hq, rfl, patience, hevent⟩
      have hturn : tl.QueryTurn cs q t := ⟨h.begin _, ht, patience, hevent⟩
      rw [hevent]
      exact hturn.turnWaiting hq hstage
  | prepared readyAt reply first upTo =>
      rw [hstage] at hstands
      rcases hstands with ⟨⟨q, hq, rfl, patience, hevent⟩, hholder⟩
      have hturn : tl.QueryTurn cs q t := ⟨h.begin _, ht, patience, hevent⟩
      rw [hevent]
      dsimp only
      split
      · exact h.playsOn
      · exact hturn.afterPrepared hq hholder reply
  | fetching readyAt first upTo =>
      rw [hstage] at hstands
      rcases hstands with ⟨⟨q, hq, rfl, patience, hevent⟩, hholder⟩
      have hturn : tl.QueryTurn cs q t := ⟨h.begin _, ht, patience, hevent⟩
      rw [hevent]
      dsimp only
      split
      · exact h.playsOn
      · exact hturn.conclude hq hholder _
  | sending consumer r isAdmitted =>
      rw [hstage] at hstands
      exact h.turnSending ht (by rw [hstage]; rfl) hstands.2 consumer r isAdmitted
  | closing =>
      rw [hstage] at hstands
      dsimp only
      split
      · exact h.playsOn
      · refine (h.endClose t.cache).bind fun ds h₁ => ?_
        exact h₁.finish ht (by rw [hstage]; rfl) hstands.2 _
  | ended => exact h.playsOn

theorem Plays.quit (h : tl.Plays none cs) (k : Nat) : (tl.quit k).PlaysOn cs := by
  rw [Timeline.quit]
  split
  · exact h.playsOn
  · next i stage time _ ht =>
    split
    · obtain ⟨tl₁, hstep, htasks, h₁⟩ := (h.begin k).act ht (m := .withdraw k) trivial rfl
        (Cache.heedless_over fun c => (c.withdraw k, ())) rfl rfl
      rw [overCache]
      dsimp only at hstep ⊢
      rw [hstep]
      refine PlaysOn.after (Plays.playsOn (h₁.setStage (.inr rfl) fun t' ht' => ?_))
        (Plays.leads_move trivial)
      rw [htasks, ht] at ht'
      obtain rfl := Option.some.inj ht'
      refine ⟨?_, fun _ _ _ => .inl rfl⟩
      rw [Function.update_self]
      intro q hq
      simpa using (List.mem_filter.1 hq).2
    · exact h.playsOn
  · exact h.playsOn

theorem Plays.turnTask (h : tl.Plays none cs) (k : Nat) : (tl.turnTask k).PlaysOn cs := by
  rw [Timeline.turnTask]
  split
  · next t ht => exact (h.advance ht).bind fun _ h₁ => h₁.quit k
  · exact h.playsOn

/-! ## The turn of tail ingestion -/

theorem Plays.cache_eq (h : tl.Plays busy cs) {i : Nat} {c : Cache}
    (hc : tl.site.cache? i = some c) : (cs i).cache = c := by
  rw [Site.cache?, Option.map_eq_some_iff] at hc
  rcases hc with ⟨m, hm, rfl⟩
  exact (h.caches i m hm).1.symm

/-- Tail ingestion ends, or it handles its share and may end then. -/
theorem Plays.turnTailSite (h : tl.Plays none cs) (i : Nat) :
    { tl with site := tl.site.turnTail i }.PlaysOn cs := by
  have hstop : ∀ {tl₁ : Timeline} {ds : Nat → Course}, tl₁.Plays none ds →
      { tl₁ with site := (tl₁.site.overCache i fun c => (c.stop, ())).1 }.PlaysOn ds :=
    fun h₁ => h₁.own (Cache.heedless_over fun c => (c.stop, ())) [.stop] (by simp [Move.ticket?])
      rfl rfl
  rw [Site.turnTail]
  cases hc : tl.site.cache? i with
  | none => exact h.playsOn
  | some c =>
      have hcache := h.cache_eq hc
      dsimp only
      split
      · exact h.playsOn
      · next hfollowing =>
        split
        · exact hstop h
        · next hnot =>
          have hshare := Course.run_handle (c := cs i) (c.inbox.take Cache.share)
            (by simpa [hcache] using hfollowing) (by simpa [hcache] using hnot)
          have hfold : (c.inbox.take Cache.share).foldl
              (fun (s : Cache × Outlet) _ => s.1.handleNext s.2) ((cs i).cache, (cs i).outlet) =
              (cs i).cache.handleShare (cs i).outlet := by
            rw [Cache.handleShare, hcache]
          rw [hfold] at hshare
          have hticket : ∀ m ∈ (c.inbox.take Cache.share).map fun _ => Move.handle,
              m.ticket? = none := by
            intro m hm
            obtain ⟨r, -, rfl⟩ := List.mem_map.1 hm
            rfl
          have hown : { tl with site := tl.site.changeCache i Cache.handleShare }.PlaysOn cs :=
            h.own Cache.heedless_handleShare _ hticket (congrArg Prod.fst hshare)
              (congrArg Prod.snd hshare)
          split
          · exact hown
          · exact hown.bind fun ds h₁ => hstop h₁

theorem Plays.letIn (h : tl.Plays none cs) (k : Nat) : (tl.letIn k).Plays none cs := by
  rw [Timeline.letIn]
  split
  · next ht =>
    refine h.setStage (.inl rfl) fun t ht' => ?_
    rw [ht'] at ht
    have hstands := h.tasks k t (by simp) ht'
    rw [Option.some.inj ht] at hstands ⊢
    exact hstands
  · exact h

theorem Plays.giveRoom (h : tl.Plays none cs) (i : Nat) : (tl.giveRoom i).Plays none cs := by
  have hletIn : ∀ (ks : List Nat) {tl : Timeline}, tl.Plays none cs →
      (ks.foldl Timeline.letIn tl).Plays none cs := by
    intro ks
    induction ks with
    | nil => exact fun h => h
    | cons k ks ih => exact fun h => ih (h.letIn k)
  exact (hletIn _ h).congr (same_call _ _)

theorem Plays.turnTail (h : tl.Plays none cs) (i : Nat) : (tl.turnTail i).PlaysOn cs := by
  refine (h.turnTailSite i).bind fun ds h₁ => ?_
  rw [Timeline.turnTail]
  dsimp only
  split
  · split
    · exact (h₁.giveRoom i).playsOn.congr ⟨rfl, rfl, rfl⟩
    · exact (h₁.giveRoom i).playsOn
  · exact ((h₁.congr (same_call _ _)).congr (same_schedules .task _ _)).playsOn

/-! ## Every run -/

theorem Plays.turn (h : tl.Plays none cs) (p : Party) : (tl.turn p).PlaysOn cs := by
  cases p with
  | task k => exact h.turnTask k
  | tail i => exact h.turnTail i

theorem Plays.step (h : tl.Plays none cs) : tl.step.PlaysOn cs := by
  have hroused : (if tl.agenda.any (·.due ≤ tl.now) then tl else tl.rouse).Plays none cs := by
    split
    · exact h
    · exact h.congr (same_rouse tl)
  rw [Timeline.step]
  generalize (if tl.agenda.any (·.due ≤ tl.now) then tl else tl.rouse) = tl₁ at hroused
  split
  · exact hroused.playsOn
  · next t ts _ =>
    have hnext : Plays { tl₁ with agenda := ts, now := max tl₁.now t.due } none cs :=
      hroused.congr ⟨rfl, rfl, rfl⟩
    exact hnext.turn t.party

/-- After any number of turns each cache is that of a course that moves lead to. -/
theorem steps_playsOn (h : tl.Plays none cs) (n : Nat) : (steps n tl).PlaysOn cs := by
  induction n generalizing tl cs with
  | zero => exact h.playsOn
  | succ n ih => exact h.step.bind fun _ h₁ => ih h₁

/-- A run is as many turns as are taken until every task has ended. -/
theorem run_eq_steps (n : Nat) (tl : Timeline) : ∃ m, run n tl = steps m tl := by
  induction n generalizing tl with
  | zero => exact ⟨0, rfl⟩
  | succ n ih =>
      rw [run]
      split
      · exact ⟨0, rfl⟩
      · obtain ⟨m, hm⟩ := ih tl.step
        exact ⟨m + 1, hm⟩

def startCourses (s : Site) (i : Nat) : Course :=
  .start i (((s.cache? i).map (·.settings)).getD .standard)
    (if s.members[i]?.any (·.isQuiet) then .empty else s.registry)

/-- Caches that have just been started, with tasks that have not begun, play courses. -/
theorem plays_start (hstarted : ∀ i c, tl.site.cache? i = some c → c = .start i c.settings)
    (hasleep : ∀ t ∈ tl.tasks, ∃ wakeAt, t.stage = .asleep wakeAt)
    (hmembers : ∀ t ∈ tl.tasks, t.cache < tl.site.members.length) :
    tl.Plays none (startCourses tl.site) where
  sound := fun _ => Course.sound_start
  caches := by
    intro i m hm
    have hcache : tl.site.cache? i = some m.cache := by rw [Site.cache?, hm]; rfl
    rw [startCourses, hcache, hm]
    refine ⟨hstarted i m.cache hcache, ?_⟩
    change (!m.isQuiet && tl.site.registry.refusesQueues) =
      (if m.isQuiet then Registry.empty else tl.site.registry).refusesQueues
    cases m.isQuiet <;> rfl
  tasks := by
    intro k t _ ht
    obtain ⟨wakeAt, hstage⟩ := hasleep t (List.mem_of_getElem? ht)
    rw [Task.Stands, hstage]
    exact fun _ hq => absurd hq List.not_mem_nil
  pending := fun _ _ hq => absurd hq List.not_mem_nil
  members := hmembers

/-- However a run of a timeline goes, each cache is that of a course which moves lead to from its
start, and each query that ended without being given up got what it returned in the course. -/
theorem run_courses (hstarted : ∀ i c, tl.site.cache? i = some c → c = .start i c.settings)
    (hasleep : ∀ t ∈ tl.tasks, ∃ wakeAt, t.stage = .asleep wakeAt)
    (hmembers : ∀ t ∈ tl.tasks, t.cache < tl.site.members.length) (n : Nat) :
    ∃ cs : Nat → Course, (∀ i, ∃ settings registry, Course.Reachable i settings registry (cs i)) ∧
      (∀ i c, (run n tl).site.cache? i = some c → (cs i).cache = c) ∧
      ∀ k t q, (run n tl).tasks[k]? = some t → q.ticket = k → t.Asks q →
        ∀ time answer, t.result? = some (time, answer) → answer = .givenUp ∨
          ∃ reply result, .returned q reply result ∈ (cs t.cache).deeds ∧
            answer = .ofResult result := by
  obtain ⟨m, hm⟩ := run_eq_steps n tl
  obtain ⟨cs, hleads, hplays⟩ := steps_playsOn (plays_start hstarted hasleep hmembers) m
  rw [hm]
  refine ⟨cs, fun i => ?_, fun i c hc => hplays.cache_eq hc, ?_⟩
  · obtain ⟨ms, hms, hcs⟩ := hleads i
    rw [hcs]
    exact ⟨_, _, Course.Reachable.start.run hms⟩
  · intro k t q ht hq hasks time answer hresult
    have hstands := hplays.tasks k t (by simp) ht
    unfold Task.result? at hresult
    split at hresult
    · next hstage =>
      obtain ⟨rfl, rfl⟩ := Prod.mk.inj (Option.some.inj hresult)
      rw [Task.Stands, hstage] at hstands
      exact hstands.2 q hq hasks
    · cases hresult

end Timeline

end JournalCache

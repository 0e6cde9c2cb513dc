import JournalCache.Proofs.Lifetime.Ordered
import JournalCache.Proofs.Timeline.Courses

/-!
# A life on a site

A site with one cache goes through the life of that cache (`Lifetime.On`): it starts where the life
starts, and the functions of the site that a timeline runs make the moves of the life. So what holds
in every life holds of the cache of a site that has no other, of its journal and of its registry.
-/

namespace JournalCache

namespace Lifetime

/-- The site has the cache of the life and no other, and its journal and registry. -/
structure On (l : Lifetime) (s : Site) : Prop where
  consumer : s.journal.journal.consumer = l.journal.consumer
  closes : s.journal.journal.closes = l.journal.closes
  registry : s.registry = l.registry
  members : s.members = [⟨l.course.cache, false, l.isDropped⟩]

variable {j : Journal} {number : Nat} {settings : Settings} {l : Lifetime} {s : Site}

theorem on_start (h : (Site.ofJournal j).start settings false = .ok s) :
    (start j 0 settings).On s := by
  unfold Site.start at h
  cases hvalid : settings.validate with
  | error e => rw [hvalid] at h; cases h
  | ok =>
      cases hfails : j.failsSubscriptions with
      | true =>
          have hsubscribe : j.subscribe 0 = .error (.subscribeFailed "journal unavailable") := by
            rw [Journal.subscribe, hfails, if_pos rfl]
          rw [hvalid] at h
          change (j.subscribe 0 >>= _) = _ at h
          rw [hsubscribe] at h
          cases h
      | false =>
          have hsubscribe : j.subscribe 0 = .ok { j with consumer := some 0 } := by
            rw [Journal.subscribe, hfails, if_neg Bool.false_ne_true]
          rw [hvalid] at h
          change (j.subscribe 0 >>= _) = _ at h
          rw [hsubscribe] at h
          obtain rfl := Except.ok.inj h
          exact ⟨rfl, rfl, rfl, rfl⟩

theorem On.cache?_eq (h : l.On s) : s.cache? 0 = some l.course.cache := by
  rw [Site.cache?, h.members]
  rfl

/-- What was delivered, and the closings, are not seen on the site. -/
theorem On.count (h : l.On s) {delivered : List Delivery} {closing closed : Nat} :
    { l with delivered, closing, closed }.On s :=
  ⟨h.consumer, h.closes, h.registry, h.members⟩

/-! ## Steps of the cache -/

theorem On.stepCache (h : l.On s) {α : Type} {f : Cache → Outlet → Cache × Outlet × α}
    (hf : ∀ c, Outlet.Respects Outlet.SameRegistry fun o => ((f c o).1, (f c o).2.1)) {d : Course}
    (hcache : d.cache = (f l.course.cache l.course.outlet).1)
    (houtlet : d.outlet = (f l.course.cache l.course.outlet).2.1) :
    { l with course := d }.On (s.stepCache 0 f).1 := by
  obtain ⟨hfst, hregistry⟩ := hf l.course.cache ⟨s.registry, []⟩ l.course.outlet h.registry
  rw [Site.stepCache, h.members]
  exact {
    consumer := h.consumer
    closes := h.closes
    registry := hregistry.trans (congrArg Outlet.registry houtlet.symm)
    members := by
      rw [hcache, ← hfst]
      rfl }

theorem On.overCache (h : l.On s) {α : Type} (f : Cache → Cache × α) {d : Course}
    (hcache : d.cache = (f l.course.cache).1) (houtlet : d.outlet = l.course.outlet) :
    { l with course := d }.On (s.overCache 0 f).1 :=
  h.stepCache (fun _ => Outlet.respects_mk _) hcache houtlet

theorem On.ask (h : l.On s) (q : Query) :
    (l.move (.take (.ask q))).On (s.overCache 0 fun c => c.ask q.waiter).1 :=
  h.overCache _ (by rw [Course.move, Course.cache_proceed])
    (by rw [Course.move, Course.outlet_proceed])

theorem On.resume (h : l.On s) {ticket : Nat} (hholder : l.course.cache.right.isHolder ticket) :
    (l.move (.take (.resume ticket))).On (s.overCache 0 Cache.resume).1 :=
  h.overCache _ (by rw [Course.move, if_pos hholder, Course.cache_proceed])
    (by rw [Course.move, if_pos hholder, Course.outlet_proceed])

theorem On.expire (h : l.On s) (ticket : Nat) :
    (l.move (.take (.expire ticket))).On (s.overCache 0 fun c => c.expire ticket).1 :=
  h.overCache _ (by rw [Course.move, Course.cache_proceed])
    (by rw [Course.move, Course.outlet_proceed])

theorem On.withdraw (h : l.On s) (ticket : Nat) :
    (l.move (.take (.withdraw ticket))).On
      (s.overCache 0 fun c => (c.withdraw ticket, ())).1 :=
  h.overCache (fun c => (c.withdraw ticket, ())) rfl rfl

theorem On.answer (h : l.On s) {ticket : Nat} (reply : FetchReply)
    (hawaits : l.course.calls.any fun k => k.awaits ticket) :
    (l.move (.take (.answer ticket reply))).On (s.stepCache 0 fun c o => c.answer o reply).1 := by
  refine h.stepCache (fun c => ?_) (by rw [Course.move, if_pos hawaits, Course.cache_proceed])
    (by rw [Course.move, if_pos hawaits, Course.outlet_proceed])
  exact (Cache.respects_answer Holdings.respects_registry_mergeGroup c reply).map (·.1)

/-! ## Tail ingestion -/

theorem On.deliver (h : l.On s) (r : Delivery) : (l.move (.deliver r)).On (s.deliver 0 r) :=
  (h.overCache (d := l.course.move (.deliver r)) (fun c => (c.deliver r, ())) rfl rfl).count

theorem On.stop (h : l.On s) : (l.move .stop).On (s.overCache 0 fun c => (c.stop, ())).1 :=
  h.overCache (fun c => (c.stop, ())) rfl rfl

theorem run_take (l : Lifetime) (ms : List Move) :
    l.run (ms.map .take) = { l with course := l.course.run ms } := by
  induction ms generalizing l with
  | nil => rfl
  | cons m ms ih => exact ih (l.move (.take m))

theorem allowsAll_take {ms : List Move} (hwork : ∀ m ∈ ms, m.isWork)
    (hms : l.course.AllowsAll ms) : l.AllowsAll (ms.map .take) := by
  induction ms generalizing l with
  | nil => trivial
  | cons m ms ih =>
      exact ⟨⟨hwork m List.mem_cons_self, hms.1⟩,
        ih (fun n hn => hwork n (List.mem_cons_of_mem _ hn)) hms.2⟩

/-- The journal delivers to the cache until tail ingestion is told to stop. -/
theorem Reachable.consumer (h : Reachable j number settings l) :
    l.isShutDown = false → l.journal.consumer = some number := by
  induction h with
  | start => exact fun _ => rfl
  | @move l hl m hm ih =>
      intro hnot
      cases m with
      | take m =>
          obtain ⟨-, hshutDown, -⟩ :=
            (Course.step_move hl.ordered.sound hm.2).isFollowing_eq hm.1
          exact ih (hshutDown.symm.trans hnot)
      | beginClose =>
          rw [Lifetime.move] at hnot
          split at hnot <;> cases hnot
      | drop => cases hnot
      | _ => exact ih hnot

/-- A turn of tail ingestion is made of moves of the life. -/
theorem On.turnTail (h : l.On s) (hl : Reachable j 0 settings l) :
    ∃ ms, l.AllowsAll ms ∧ (l.run ms).On (s.turnTail 0) := by
  rw [Site.turnTail, h.cache?_eq]
  dsimp only
  split
  · exact ⟨[], trivial, h⟩
  · next hfollowing =>
    split
    · next hshutDown => exact ⟨[.stop], ⟨hshutDown, trivial⟩, h.stop⟩
    · next hnot =>
      have hnot : l.course.cache.isShutDown = false := Bool.eq_false_iff.2 hnot
      have hshare := Course.run_handle (l.course.cache.inbox.take Cache.share)
        (by simpa using hfollowing) hnot
      have hrun : (l.run (((l.course.cache.inbox.take Cache.share).map fun _ => .handle).map
          .take)).On (s.changeCache 0 Cache.handleShare) := by
        rw [run_take]
        exact h.stepCache
          (fun c => (Cache.respects_handleShare Holdings.respects_registry_mergeGroup c))
          (congrArg Prod.fst hshare) (congrArg Prod.snd hshare)
      have hconsumer : (s.changeCache 0 Cache.handleShare).journal.journal.consumer = some 0 := by
        rw [hrun.consumer, run_take]
        exact hl.consumer hnot
      have hhandle : ∀ m ∈ (l.course.cache.inbox.take Cache.share).map fun _ => Move.handle,
          m = .handle := by
        intro m hm
        obtain ⟨r, -, rfl⟩ := List.mem_map.1 hm
        rfl
      have hallowed := allowsAll_take (l := l) (fun m hm => hhandle m hm ▸ rfl)
        (Course.allowsAll_of_own fun m hm => hhandle m hm ▸ rfl)
      refine ⟨_, hallowed, ?_⟩
      rw [if_pos (by simp [hconsumer])]
      exact hrun

/-! ## Closing -/

theorem On.release (h : l.On s) : l.release.On (s.endClose 0) := by
  refine h.stepCache (fun c => ?_) rfl rfl
  rintro ⟨r, ns⟩ ⟨r', ns'⟩ (rfl : r = r')
  exact ⟨rfl, rfl⟩

theorem On.shutDown (h : l.On s) :
    l.shutDown.On (s.beginClose 0).1 ∧ (s.beginClose 0).2 = l.waits := by
  have hover := h.overCache (d := l.course.move .shutDown) (fun c => (c.shutDown, ())) rfl rfl
  rw [Site.beginClose, h.cache?_eq, waits, Lifetime.shutDown]
  dsimp only
  cases l.course.cache.isSubscribed with
  | true =>
      rw [if_pos rfl, if_pos rfl, Bool.true_and]
      exact ⟨⟨rfl, congrArg (· + 1) hover.closes, hover.registry, hover.members⟩, rfl⟩
  | false =>
      rw [if_neg Bool.false_ne_true, if_neg Bool.false_ne_true, Bool.false_and]
      exact ⟨hover, rfl⟩

/-- A closing that has not to wait is done at once. -/
theorem On.beginClose (h : l.On s) :
    (l.move .beginClose).On
      (if (s.beginClose 0).2 then (s.beginClose 0).1 else (s.beginClose 0).1.endClose 0) := by
  obtain ⟨hshutDown, hwaits⟩ := h.shutDown
  rw [hwaits, move]
  split
  · exact hshutDown.count
  · exact hshutDown.release.count

theorem On.endClose (h : l.On s) : (l.move .endClose).On (s.endClose 0) := h.release.count

theorem On.drop (h : l.On s) : (l.move .drop).On (s.drop 0) := by
  have hreleased := h.shutDown.1.stop.release
  refine ⟨hreleased.consumer, hreleased.closes, hreleased.registry, ?_⟩
  change List.modify _ 0 _ = _
  rw [hreleased.members]
  rfl

/-! ## Failures -/

theorem On.failCloses (h : l.On s) (on : Bool) :
    (l.move (.failCloses on)).On (s.overJournal ({ · with failsCloses := on })) :=
  ⟨h.consumer, h.closes, h.registry, h.members⟩

theorem On.overRegistry (h : l.On s) (f : Registry → Registry) :
    (l.overRegistry f).On { s with registry := f s.registry } :=
  ⟨h.consumer, h.closes, congrArg f h.registry, h.members⟩

end Lifetime

end JournalCache

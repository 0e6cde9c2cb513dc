import JournalCache.Proofs.Fleet.Basic

/-!
# What the functions of a site do to several caches

Each function of a site that acts on a cache makes moves of the course of that cache, and leaves the
caches of the others as they are (`Site.Has`). Of who is delivered to only two of them dispose: a
cache that is started becomes the consumer, and one whose subscription ends leaves none.
-/

namespace JournalCache

/-! ## Tail ingestion in a course -/

namespace Course

variable {c d : Course} {m : Move}

/-- Whether a course follows the journal's tail and was not told to stop. -/
structure Follows (c : Course) : Prop where
  isFollowing : c.cache.isFollowing
  isShutDown : c.cache.isShutDown = false
  isSubscribed : c.cache.isSubscribed

theorem Follows.of_eq (h : c.Follows) (hfollowing : d.cache.isFollowing = c.cache.isFollowing)
    (hshutDown : d.cache.isShutDown = c.cache.isShutDown)
    (hsubscribed : d.cache.isSubscribed = c.cache.isSubscribed) : d.Follows :=
  ⟨hfollowing ▸ h.isFollowing, hshutDown ▸ h.isShutDown, hsubscribed ▸ h.isSubscribed⟩

/-- A step of a query leaves tail ingestion where it is. -/
theorem Step.leaves_tail (h : c.Step m d) (hm : m.ticket?.isSome) :
    d.handled = c.handled ∧ d.cache.inbox = c.cache.inbox ∧
      d.cache.isFollowing = c.cache.isFollowing ∧ d.cache.isShutDown = c.cache.isShutDown ∧
      d.cache.isSubscribed = c.cache.isSubscribed := by
  have hhandled : d.handled = c.handled := by
    rcases h.handled_eq with heq | ⟨rfl, -⟩
    · exact heq
    · cases hm
  refine ⟨hhandled, ?_⟩
  cases h with
  | delivers | handles | shutsDown | stops | releases => cases hm
  | _ => exact ⟨rfl, rfl, rfl, rfl⟩

/-- Tail ingestion handles as many records as it is asked to, oldest first. -/
theorem run_handle_tail (hc : c.Follows) {α : Type} (xs : List α) :
    (c.run (xs.map fun _ => .handle)).Follows ∧
      (c.run (xs.map fun _ => .handle)).handled =
        c.handled ++ c.cache.inbox.take xs.length ∧
      (c.run (xs.map fun _ => .handle)).cache.inbox = c.cache.inbox.drop xs.length := by
  induction xs generalizing c with
  | nil => exact ⟨hc, (List.append_nil _).symm, rfl⟩
  | cons x xs ih =>
      rw [List.map_cons, run, List.foldl_cons, ← run]
      cases hinbox : c.cache.inbox with
      | nil =>
          rw [move_handle_of_not (.inl hinbox)]
          have hrest := ih hc
          simpa [hinbox] using hrest
      | cons r rs =>
          rw [move_handle hinbox hc.isFollowing hc.isShutDown]
          have htaken : (c.takeIn r rs).Follows := hc.of_eq rfl rfl rfl
          obtain ⟨hfollows, hhandled, hrest⟩ := ih htaken
          refine ⟨hfollows, ?_, hrest⟩
          rw [hhandled, handled_takeIn, List.append_assoc]
          rfl

end Course

/-! ## Functions of a site -/

namespace Site

variable {s s' : Site} {cs : Nat → Course} {c d : Course} {i : Nat} {α : Type}
  {f : Cache → Outlet → Cache × Outlet × α}

theorem journal_stepCache : (s.stepCache i f).1.journal = s.journal := by
  rw [stepCache]
  split
  · rfl
  · split <;> rfl

theorem consumer_stepCache :
    (s.stepCache i f).1.journal.journal.consumer = s.journal.journal.consumer := by
  rw [journal_stepCache]

/-- A cache that has made moves of its course takes a step. -/
theorem Has.step (h : s.Has (Function.update cs i c)) (hf : Cache.Heedless f)
    (hcache : d.cache = (f c.cache c.outlet).1) (houtlet : d.outlet = (f c.cache c.outlet).2.1) :
    (s.stepCache i f).1.Has (Function.update cs i d) := by
  have hself : Function.update cs i c i = c := Function.update_self ..
  have hstep := h.stepCache (i := i) (d := d) hf (by rw [hself, hcache]) (by rw [hself, houtlet])
  rwa [Function.update_idem] at hstep

theorem Has.self (h : s.Has cs) (i : Nat) : s.Has (Function.update cs i (cs i)) := by
  rwa [Function.update_eq_self]

theorem Has.cache_eq (h : s.Has cs) {cache : Cache} (hcache : s.cache? i = some cache) :
    cache = (cs i).cache := by
  rw [cache?, Option.map_eq_some_iff] at hcache
  obtain ⟨m, hm, rfl⟩ := hcache
  exact (h i m hm).1

theorem Has.cache?_eq (h : s.Has cs) (hi : i < s.members.length) :
    s.cache? i = some (cs i).cache := by
  have hm := List.getElem?_eq_getElem hi
  rw [cache?, hm, ← (h i _ hm).1]
  rfl

/-- A cache that is started has the next number, and the journal delivers to it. -/
theorem start_eq_ok {settings : Settings} {isQuiet : Bool}
    (h : s.start settings isQuiet = .ok s') :
    s' = { s.overJournal ({ · with consumer := some s.members.length }) with
      members := s.members ++ [⟨.start s.members.length settings, isQuiet, false⟩] } := by
  unfold start at h
  cases hvalid : settings.validate with
  | error e => rw [hvalid] at h; cases h
  | ok =>
      rw [hvalid] at h
      change (s.journal.journal.subscribe s.members.length >>= _) = _ at h
      rw [Journal.subscribe] at h
      split at h
      · cases h
      · exact (Except.ok.inj h).symm

theorem journal_turnTail (s : Site) (i : Nat) : (s.turnTail i).journal = s.journal := by
  rw [turnTail]
  split
  · rfl
  · split
    · rfl
    · split
      · exact journal_stepCache
      · dsimp only
        split
        · exact journal_stepCache
        · exact journal_stepCache.trans journal_stepCache

theorem members_turnTail (s : Site) (i : Nat) :
    (s.turnTail i).members.length = s.members.length := by
  rw [turnTail]
  split
  · rfl
  · split
    · rfl
    · split
      · exact length_members_stepCache
      · dsimp only
        split
        · exact length_members_stepCache
        · exact length_members_stepCache.trans length_members_stepCache

theorem Has.turnTail (h : s.Has cs) (i : Nat) :
    (s.turnTail i).Has (Function.update cs i ((cs i).run (s.tailMoves i))) := by
  rw [Site.turnTail, tailMoves]
  cases hcache : s.cache? i with
  | none => exact h.self i
  | some cache =>
      have hc := h.cache_eq hcache
      have hstop : ∀ {s : Site} {c : Course}, s.Has (Function.update cs i c) →
          (s.overCache i fun c => (c.stop, ())).1.Has (Function.update cs i (c.move .stop)) :=
        fun h => h.step (Cache.heedless_over fun c => (c.stop, ())) rfl rfl
      dsimp only
      split
      · exact h.self i
      · next hfollowing =>
        split
        · exact hstop (h.self i)
        · next hnot =>
          have hshare := Course.run_handle (c := cs i) (cache.inbox.take Cache.share)
            (by simpa [hc] using hfollowing) (by simpa [hc] using hnot)
          have hfold : (cache.inbox.take Cache.share).foldl
              (fun (s : Cache × Outlet) _ => s.1.handleNext s.2) ((cs i).cache, (cs i).outlet) =
              (cs i).cache.handleShare (cs i).outlet := by
            rw [Cache.handleShare, hc]
          rw [hfold] at hshare
          have hhandled : (s.changeCache i Cache.handleShare).Has (Function.update cs i
              ((cs i).run ((cache.inbox.take Cache.share).map fun _ => .handle))) :=
            (h.self i).step Cache.heedless_handleShare (congrArg Prod.fst hshare)
              (congrArg Prod.snd hshare)
          have hjournal : (s.changeCache i Cache.handleShare).journal = s.journal :=
            journal_stepCache
          rw [hjournal]
          split
          · rwa [List.append_nil]
          · rw [Course.run_append]
            exact hstop hhandled

/-! ### Closing -/

/-- What the first part of closing leaves of who is delivered to. -/
theorem beginClose_of_some {cache : Cache} (h : s.cache? i = some cache) :
    (s.beginClose i).1.journal.journal.consumer =
        (if cache.isSubscribed then none else s.journal.journal.consumer) ∧
      (s.beginClose i).1.members = (s.overCache i fun c => (c.shutDown, ())).1.members ∧
      (s.beginClose i).1.registry = (s.overCache i fun c => (c.shutDown, ())).1.registry := by
  rw [beginClose, h]
  dsimp only
  cases cache.isSubscribed with
  | true => exact ⟨rfl, rfl, rfl⟩
  | false =>
      refine ⟨?_, rfl, rfl⟩
      exact consumer_stepCache

theorem Has.congr (h : s.Has cs) (hmembers : s'.members = s.members)
    (hregistry : s'.registry = s.registry) : s'.Has cs := by
  intro j m hm
  rw [hmembers] at hm
  rw [refuses, hregistry]
  exact h j m hm

theorem Has.beginClose (h : s.Has cs) (hi : i < s.members.length) :
    (s.beginClose i).1.Has (Function.update cs i ((cs i).move .shutDown)) := by
  obtain ⟨-, hmembers, hregistry⟩ := beginClose_of_some (h.cache?_eq hi)
  exact Has.congr ((h.self i).step (Cache.heedless_over fun c => (c.shutDown, ())) rfl rfl)
    hmembers hregistry

theorem Has.endClose (h : s.Has (Function.update cs i c)) :
    (s.endClose i).Has (Function.update cs i (c.move .release)) :=
  h.step Cache.heedless_releaseQueues rfl rfl

theorem journal_drop (s : Site) (i : Nat) : (s.drop i).journal = (s.beginClose i).1.journal :=
  journal_stepCache.trans journal_stepCache

theorem members_drop (s : Site) (i : Nat) :
    (s.drop i).members.length = (s.beginClose i).1.members.length := by
  refine (List.length_modify ..).trans ?_
  exact length_members_stepCache.trans length_members_stepCache

theorem Has.drop (h : s.Has cs) (hi : i < s.members.length) :
    (s.drop i).Has (Function.update cs i ((cs i).run [.shutDown, .stop, .release])) := by
  have hstopped : ((s.beginClose i).1.overCache i fun c => (c.stop, ())).1.Has
      (Function.update cs i ((cs i).run [.shutDown, .stop])) :=
    (h.beginClose hi).step (Cache.heedless_over fun c => (c.stop, ())) rfl rfl
  have hreleased := hstopped.endClose
  intro j m hm
  change (List.modify _ i _)[j]? = some m at hm
  rw [List.getElem?_modify] at hm
  obtain ⟨n, hn, rfl⟩ := Option.map_eq_some_iff.1 hm
  have hcache := hreleased j n hn
  split
  · exact hcache
  · exact hcache

/-! ### Publishing and telling -/

theorem consumer_keep (s : Site) (r : Delivery) :
    (s.overJournal (·.keep r)).journal.journal.consumer = s.journal.journal.consumer := by
  cases r <;> rfl

theorem publish_of_some (h : s.journal.journal.consumer = some i) (r : Delivery) :
    s.publish r = ((s.overJournal (·.keep r)).deliver i r, some i) := by
  rw [publish, consumer_keep, h]

theorem publish_of_none (h : s.journal.journal.consumer = none) (r : Delivery) :
    s.publish r = (s.overJournal (·.keep r), none) := by
  rw [publish, consumer_keep, h]

theorem Has.deliver (h : s.Has cs) (i : Nat) (r : Delivery) :
    (s.deliver i r).Has (Function.update cs i ((cs i).move (.deliver r))) :=
  (h.self i).step (Cache.heedless_over fun c => (c.deliver r, ())) rfl rfl

theorem Has.start (h : s.Has cs) (settings : Settings) (isQuiet : Bool) :
    Has { s with members := s.members ++ [⟨.start s.members.length settings, isQuiet, false⟩] }
      (Function.update cs s.members.length
        (.start s.members.length settings (if isQuiet then .empty else s.registry))) := by
  intro j m hm
  change (s.members ++ [_])[j]? = some m at hm
  by_cases hj : j = s.members.length
  · rw [hj, List.getElem?_concat_length] at hm
    obtain rfl := Option.some.inj hm
    rw [hj, Function.update_self]
    refine ⟨rfl, ?_⟩
    cases isQuiet <;> rfl
  · rw [Function.update_of_ne hj]
    have hlt : j < s.members.length := by
      have hlt := (List.getElem?_eq_some_iff.1 hm).1
      rw [List.length_append, List.length_singleton] at hlt
      omega
    rw [List.getElem?_append_left hlt] at hm
    exact h j m hm

/-- The step of a query is that of its course. -/
theorem Has.query (h : s.Has cs) (i : Nat) {m : Move} (hm : Fleet.AllowsQuery (cs i) m) :
    (s.query i m).Has (Function.update cs i ((cs i).move m)) := by
  cases m with
  | ask q =>
      exact (h.self i).step (Cache.heedless_over fun c => c.ask q.waiter)
        (by rw [Course.move, Course.cache_proceed]) (by rw [Course.move, Course.outlet_proceed])
  | resume ticket =>
      have hholder : (cs i).cache.right.isHolder ticket := hm
      exact (h.self i).step (Cache.heedless_over Cache.resume)
        (by rw [Course.move, if_pos hholder, Course.cache_proceed])
        (by rw [Course.move, if_pos hholder, Course.outlet_proceed])
  | expire ticket =>
      exact (h.self i).step (Cache.heedless_over fun c => c.expire ticket)
        (by rw [Course.move, Course.cache_proceed]) (by rw [Course.move, Course.outlet_proceed])
  | withdraw ticket =>
      exact (h.self i).step (Cache.heedless_over fun c => (c.withdraw ticket, ())) rfl rfl
  | answer ticket reply =>
      have hawaits : ((cs i).calls.any fun k => k.awaits ticket) := hm
      exact (h.self i).step (Cache.heedless_answer reply)
        (by rw [Course.move, if_pos hawaits, Course.cache_proceed])
        (by rw [Course.move, if_pos hawaits, Course.outlet_proceed])
  | deliver | handle | shutDown | stop | release => cases hm

theorem journal_query (s : Site) (i : Nat) (m : Move) : (s.query i m).journal = s.journal := by
  cases m with
  | deliver | handle | shutDown | stop | release => rfl
  | _ => exact journal_stepCache

theorem members_query (s : Site) (i : Nat) (m : Move) :
    (s.query i m).members.length = s.members.length := by
  cases m with
  | deliver | handle | shutDown | stop | release => rfl
  | _ => exact length_members_stepCache

theorem consumer_tell (s : Site) (on : Bool) (service : Service) :
    (s.tell on service).journal.journal.consumer = s.journal.journal.consumer := by
  cases service <;> rfl

theorem members_tell (s : Site) (on : Bool) (service : Service) :
    (s.tell on service).members = s.members := by
  cases service <;> rfl

end Site

end JournalCache

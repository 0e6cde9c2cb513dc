import JournalCache.Proofs.Fleet.Site

/-!
# What every move of a fleet keeps

Each cache of a fleet is that of its course. The cache that the journal delivers to, if there is
one, was started last, follows the tail and was not told to stop (`Fleet.Manned`).
-/

namespace JournalCache

namespace Fleet

variable {f : Fleet} {m : FleetMove} {i j : Nat} {on : Bool} {service : Service}

/-! ## Courses that learn what is refused -/

theorem toldCourses_eq (f : Fleet) (on : Bool) (service : Service) (i : Nat) :
    ∃ outlet, f.toldCourses on service i = { f.courses i with outlet } := by
  cases service with
  | registrations =>
      simp only [toldCourses]
      split
      · exact ⟨(f.courses i).outlet, rfl⟩
      · exact ⟨_, rfl⟩
  | _ => exact ⟨(f.courses i).outlet, rfl⟩

theorem sound_told (h : (f.courses i).Sound) : (f.toldCourses on service i).Sound := by
  obtain ⟨outlet, heq⟩ := f.toldCourses_eq on service i
  rw [heq]
  exact ⟨h.engaged, h.nodup, h.waiting_of_free, h.calls⟩

theorem has_told (h : f.site.Has f.courses) :
    (f.site.tell on service).Has (f.toldCourses on service) := by
  intro i n hn
  rw [Site.members_tell] at hn
  obtain ⟨hcache, hrefuses⟩ := h i n hn
  cases service with
  | registrations =>
      simp only [toldCourses, hn, Option.any_some]
      cases hquiet : n.isQuiet with
      | true =>
          refine ⟨hcache, ?_⟩
          rw [if_pos rfl, ← hrefuses, Site.refuses, Site.refuses, hquiet]
          rfl
      | false =>
          refine ⟨hcache, ?_⟩
          rw [if_neg Bool.false_ne_true, Site.refuses, hquiet]
          rfl
  | _ => exact ⟨hcache, hrefuses⟩

/-! ## What every move keeps -/

/-- Each cache is that of its course, and the journal delivers to the one that was started last,
which follows the tail. -/
structure Manned (f : Fleet) : Prop where
  has : f.site.Has f.courses
  sound : ∀ i, (f.courses i).Sound
  newest : ∀ i, f.consumer = some i → i + 1 = f.count
  follows : ∀ i, f.consumer = some i → (f.courses i).Follows

theorem manned_empty : empty.Manned where
  has := nofun
  sound := fun _ => Course.sound_start
  newest := nofun
  follows := nofun

theorem Manned.lt_count (h : f.Manned) (hi : f.consumer = some i) : i < f.count :=
  h.newest i hi ▸ Nat.lt_succ_self i

theorem courses_advance_self (f : Fleet) (i : Nat) (site : Site) (ms : List Move) :
    (f.advance i site ms).courses i = (f.courses i).run ms := Function.update_self ..

theorem courses_advance_of_ne (h : j ≠ i) (f : Fleet) (site : Site) (ms : List Move) :
    (f.advance i site ms).courses j = f.courses j := Function.update_of_ne h ..

/-- A cache makes moves of its course, and the journal does not turn to another one. -/
theorem Manned.advance (h : f.Manned) {site : Site} {ms : List Move}
    (hhas : site.Has (Function.update f.courses j ((f.courses j).run ms)))
    (hms : (f.courses j).AllowsAll ms) (hcount : site.members.length = f.count)
    (hconsumer : ∀ i, site.journal.journal.consumer = some i →
      f.consumer = some i ∧ (i = j → ((f.courses j).run ms).Follows)) :
    (f.advance j site ms).Manned where
  has := hhas
  sound := by
    intro i
    by_cases hij : i = j
    · rw [hij, courses_advance_self]
      exact (h.sound j).run hms
    · rw [courses_advance_of_ne hij]
      exact h.sound i
  newest := fun i hi => (h.newest i (hconsumer i hi).1).trans hcount.symm
  follows := by
    intro i hi
    obtain ⟨hold, hfollows⟩ := hconsumer i hi
    by_cases hij : i = j
    · rw [hij, courses_advance_self]
      exact hfollows hij
    · rw [courses_advance_of_ne hij]
      exact h.follows i hold

/-- The journal goes on delivering to whom it delivered to. -/
theorem Manned.advance_same (h : f.Manned) {site : Site} {ms : List Move}
    (hhas : site.Has (Function.update f.courses j ((f.courses j).run ms)))
    (hms : (f.courses j).AllowsAll ms) (hcount : site.members.length = f.count)
    (hsame : site.journal.journal.consumer = f.consumer)
    (hfollows : f.consumer = some j → (f.courses j).Follows → ((f.courses j).run ms).Follows) :
    (f.advance j site ms).Manned := by
  refine h.advance hhas hms hcount fun i hi => ?_
  rw [hsame] at hi
  refine ⟨hi, ?_⟩
  rintro rfl
  exact hfollows hi (h.follows i hi)

/-! ### One kind of move after the other -/

/-- A cache that is started leaves the courses of the others as they are. -/
theorem courses_start (hi : i < f.count) (settings : Settings) (isQuiet : Bool) :
    (f.move (.start settings isQuiet)).courses i = f.courses i := by
  rw [move]
  split
  · exact Function.update_of_ne (Nat.ne_of_lt hi) ..
  · rfl

theorem Manned.start (h : f.Manned) (settings : Settings) (isQuiet : Bool) :
    (f.move (.start settings isQuiet)).Manned := by
  rw [move]
  split
  · next site hstart =>
    have hhas := h.has.start settings isQuiet
    have hcount : site.members.length = f.count + 1 := by
      rw [Site.start_eq_ok hstart]
      exact List.length_append
    have hconsumer : site.journal.journal.consumer = some f.count := by
      rw [Site.start_eq_ok hstart]
      rfl
    refine ⟨?_, ?_, ?_, ?_⟩
    · rw [Site.start_eq_ok hstart]
      exact hhas
    · intro i
      by_cases hi : i = f.count
      · rw [hi]
        change (Function.update f.courses f.count _ f.count).Sound
        rw [Function.update_self]
        exact Course.sound_start
      · change (Function.update f.courses f.count _ i).Sound
        rw [Function.update_of_ne hi]
        exact h.sound i
    · intro i hi
      obtain rfl := Option.some.inj (hconsumer.symm.trans hi)
      exact hcount.symm
    · intro i hi
      obtain rfl := Option.some.inj (hconsumer.symm.trans hi)
      change Course.Follows (Function.update f.courses f.count _ f.count)
      rw [Function.update_self]
      exact ⟨rfl, rfl, rfl⟩
  · exact h

theorem Manned.publish (h : f.Manned) (r : Delivery) : (f.move (.publish r)).Manned := by
  rw [move]
  cases hconsumer : f.consumer with
  | none =>
      rw [Site.publish_of_none hconsumer]
      have hkept := Site.consumer_keep f.site r
      exact ⟨h.has, h.sound, fun i hi => h.newest i (hkept.symm.trans hi),
        fun i hi => h.follows i (hkept.symm.trans hi)⟩
  | some i =>
      rw [Site.publish_of_some hconsumer]
      have hstored : (f.site.overJournal (·.keep r)).Has f.courses := h.has
      exact h.advance_same (hstored.deliver i r) ⟨trivial, trivial⟩ Site.length_members_stepCache
        (Site.consumer_stepCache.trans (f.site.consumer_keep r))
        fun _ hfollows => hfollows.of_eq rfl rfl rfl

theorem Manned.deliver (h : f.Manned) (i : Nat) (r : Delivery) :
    (f.move (.deliver i r)).Manned :=
  h.advance_same (h.has.deliver i r) ⟨trivial, trivial⟩ Site.length_members_stepCache
    Site.consumer_stepCache fun _ hfollows => hfollows.of_eq rfl rfl rfl

theorem isSome_ticket?_of_allowsQuery {c : Course} {m : Move} (h : AllowsQuery c m) :
    m.ticket?.isSome := by
  cases m with
  | deliver | handle | shutDown | stop | release => cases h
  | _ => rfl

theorem allows_of_allowsQuery {c : Course} {m : Move} (h : AllowsQuery c m) : c.Allows m := by
  cases m with
  | ask q => exact h
  | _ => trivial

/-- A step of a query leaves tail ingestion of every cache where it is. -/
theorem Manned.query_leaves_tail (h : f.Manned) {m : Move} (hm : AllowsQuery (f.courses i) m) :
    ((f.courses i).move m).handled = (f.courses i).handled ∧
      ((f.courses i).move m).cache.inbox = (f.courses i).cache.inbox ∧
      ((f.courses i).move m).cache.isFollowing = (f.courses i).cache.isFollowing ∧
      ((f.courses i).move m).cache.isShutDown = (f.courses i).cache.isShutDown ∧
      ((f.courses i).move m).cache.isSubscribed = (f.courses i).cache.isSubscribed :=
  (Course.step_move (h.sound i) (allows_of_allowsQuery hm)).leaves_tail
    (isSome_ticket?_of_allowsQuery hm)

theorem Manned.query (h : f.Manned) {m : Move} (hm : f.Allows (.query i m)) :
    (f.move (.query i m)).Manned := by
  obtain ⟨-, hm⟩ := hm
  obtain ⟨-, -, hfollowing, hshutDown, hsubscribed⟩ := h.query_leaves_tail hm
  refine h.advance_same (h.has.query i hm) ⟨allows_of_allowsQuery hm, trivial⟩
    (Site.members_query ..) ?_ fun _ hfollows =>
      hfollows.of_eq hfollowing hshutDown hsubscribed
  rw [Site.journal_query]
  rfl

/-- Tail ingestion of the cache that the journal delivers to goes on after its turn. -/
theorem Manned.tailMoves_eq (h : f.Manned) (hi : f.consumer = some i) :
    f.site.tailMoves i =
      ((f.courses i).cache.inbox.take Cache.share).map fun _ => .handle := by
  have hfollows := h.follows i hi
  rw [Site.tailMoves, h.has.cache?_eq (h.lt_count hi)]
  dsimp only
  rw [hfollows.isFollowing, hfollows.isShutDown, if_neg (by simp), if_neg (by simp),
    if_pos (by simpa using .inr hi), List.append_nil]

/-- Tail ingestion handles records and stops, and does nothing else. -/
theorem eq_of_mem_tailMoves {s : Site} {m : Move} (hm : m ∈ s.tailMoves i) :
    m = .handle ∨ m = .stop := by
  rw [Site.tailMoves] at hm
  split at hm
  · cases hm
  · split at hm
    · cases hm
    · split at hm
      · exact .inr (List.mem_singleton.1 hm)
      · rcases List.mem_append.1 hm with hm | hm
        · obtain ⟨r, -, rfl⟩ := List.mem_map.1 hm
          exact .inl rfl
        · split at hm
          · cases hm
          · exact .inr (List.mem_singleton.1 hm)

theorem allowsAll_tailMoves (c : Course) (s : Site) (i : Nat) : c.AllowsAll (s.tailMoves i) := by
  refine Course.allowsAll_of_own fun m hm => ?_
  rcases eq_of_mem_tailMoves hm with rfl | rfl <;> rfl

theorem Manned.turnTail (h : f.Manned) (i : Nat) : (f.move (.turnTail i)).Manned := by
  refine h.advance_same (h.has.turnTail i) (allowsAll_tailMoves ..) (Site.members_turnTail ..)
    ?_ fun hconsumer hfollows => ?_
  · rw [Site.journal_turnTail]
    rfl
  · rw [h.tailMoves_eq hconsumer]
    exact (Course.run_handle_tail hfollows _).1

/-- Who ends its subscription, if it still has it, leaves the journal without consumer. -/
theorem Manned.consumer_beginClose (h : f.Manned) (hi : i < f.count) :
    (f.site.beginClose i).1.journal.journal.consumer =
      if (f.courses i).cache.isSubscribed then none else f.consumer :=
  (Site.beginClose_of_some (h.has.cache?_eq hi)).1

theorem members_beginClose (h : f.Manned) (hi : i < f.count) :
    (f.site.beginClose i).1.members.length = f.count := by
  rw [(Site.beginClose_of_some (h.has.cache?_eq hi)).2.1]
  exact Site.length_members_stepCache

/-- The consumer after a cache was closed was it before, and is another cache. -/
theorem Manned.of_consumer_beginClose (h : f.Manned) (hi : i < f.count)
    (hj : (f.site.beginClose i).1.journal.journal.consumer = some j) :
    f.consumer = some j ∧ j ≠ i := by
  rw [h.consumer_beginClose hi] at hj
  split at hj
  · cases hj
  · next hnot =>
    refine ⟨hj, ?_⟩
    rintro rfl
    exact hnot (h.follows j hj).isSubscribed

theorem Manned.beginClose (h : f.Manned) (hi : i < f.count) :
    (f.move (.beginClose i)).Manned := by
  refine h.advance (h.has.beginClose hi) ⟨trivial, trivial⟩ (members_beginClose h hi) ?_
  intro k hk
  obtain ⟨hold, hne⟩ := h.of_consumer_beginClose hi hk
  exact ⟨hold, fun heq => absurd heq hne⟩

theorem Manned.drop (h : f.Manned) (hi : i < f.count) : (f.move (.drop i)).Manned := by
  refine h.advance (h.has.drop hi) ⟨trivial, trivial, trivial, trivial⟩
    ((Site.members_drop ..).trans (members_beginClose h hi)) ?_
  intro k hk
  rw [Site.journal_drop] at hk
  obtain ⟨hold, hne⟩ := h.of_consumer_beginClose hi hk
  exact ⟨hold, fun heq => absurd heq hne⟩

theorem Manned.endClose (h : f.Manned) (i : Nat) : (f.move (.endClose i)).Manned :=
  h.advance_same ((h.has.self i).endClose) ⟨trivial, trivial⟩ Site.length_members_stepCache
    Site.consumer_stepCache fun _ hfollows => hfollows.of_eq rfl rfl rfl

theorem Manned.tell (h : f.Manned) (service : Service) (on : Bool) :
    (f.move (.tell service on)).Manned where
  has := has_told h.has
  sound := fun i => sound_told (h.sound i)
  newest := by
    intro i hi
    rw [consumer, move, Site.consumer_tell] at hi
    rw [h.newest i hi, count, count, move, Site.members_tell]
  follows := by
    intro i hi
    rw [consumer, move, Site.consumer_tell] at hi
    obtain ⟨outlet, heq⟩ := f.toldCourses_eq on service i
    change (f.toldCourses on service i).Follows
    rw [heq]
    exact (h.follows i hi).of_eq rfl rfl rfl

theorem Manned.move (h : f.Manned) (hm : f.Allows m) : (f.move m).Manned := by
  cases m with
  | start settings isQuiet => exact h.start settings isQuiet
  | publish r => exact h.publish r
  | deliver i r => exact h.deliver i r
  | store ms => exact ⟨h.has, h.sound, h.newest, h.follows⟩
  | query i m => exact h.query hm
  | turnTail i => exact h.turnTail i
  | beginClose i => exact h.beginClose hm
  | endClose i => exact h.endClose i
  | drop i => exact h.drop hm
  | tell service on => exact h.tell service on

theorem Manned.run (h : f.Manned) {ms : List FleetMove} (hms : f.AllowsAll ms) :
    (f.run ms).Manned := by
  induction ms generalizing f with
  | nil => exact h
  | cons m ms ih => exact ih (h.move hms.1) hms.2

end Fleet

end JournalCache

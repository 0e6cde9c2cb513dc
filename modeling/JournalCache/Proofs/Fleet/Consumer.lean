import JournalCache.Proofs.Fleet.Manned
import Mathlib.Data.List.Induction

/-!
# Whom the journal delivers to

The journal delivers to the cache that was started last as long as no cache is closed or dropped:
the subscription that a cache ends is its own when it is that cache, and that of another cache when
it was started before. Only who was closed or dropped already has no subscription left to end. So
the consumer can be read off the moves that were made (`consumer_eq_some_iff`).
-/

namespace JournalCache

namespace Course

variable {c d : Course} {m : Move}

/-- Only closing ends a subscription. -/
theorem Step.isSubscribed_eq (h : c.Step m d) (hm : m ≠ .shutDown) :
    d.cache.isSubscribed = c.cache.isSubscribed := by
  cases h with
  | shutsDown => exact absurd rfl hm
  | _ => rfl

theorem Sound.isSubscribed_run (hs : c.Sound) {ms : List Move} (hms : c.AllowsAll ms)
    (hm : ∀ m ∈ ms, m ≠ .shutDown) : (c.run ms).cache.isSubscribed = c.cache.isSubscribed := by
  induction ms generalizing c with
  | nil => rfl
  | cons m ms ih =>
      have hstep := step_move hs hms.1
      refine (ih (hstep.sound hs) hms.2 fun n hn => hm n (List.mem_cons_of_mem _ hn)).trans ?_
      exact hstep.isSubscribed_eq (hm m List.mem_cons_self)

end Course

namespace Fleet

variable {f : Fleet} {m : FleetMove} {ms more : List FleetMove} {i k : Nat}

/-! ## What one move does to the consumer -/

/-- What a move that starts no cache leaves of who is delivered to. -/
def consumerAfter (f : Fleet) (m : FleetMove) : Option Nat :=
  match m.ended? with
  | some k => if (f.courses k).cache.isSubscribed then none else f.consumer
  | none => f.consumer

/-- A move starts a cache, to which the journal delivers then, or it starts none. -/
theorem Manned.consumer_move (h : f.Manned) (hm : f.Allows m) :
    (∃ settings isQuiet, m = .start settings isQuiet ∧ (f.move m).count = f.count + 1 ∧
        (f.move m).consumer = some f.count ∧ ((f.move m).courses f.count).Follows) ∨
      (f.move m).count = f.count ∧ (f.move m).consumer = f.consumerAfter m := by
  cases m with
  | start settings isQuiet =>
      rw [Fleet.move]
      split
      · next site hstart =>
        refine .inl ⟨settings, isQuiet, rfl, ?_⟩
        rw [Site.start_eq_ok hstart]
        refine ⟨List.length_append, rfl, ?_⟩
        change Course.Follows (Function.update f.courses f.count _ f.count)
        rw [Function.update_self]
        exact ⟨rfl, rfl, rfl⟩
      · exact .inr ⟨rfl, rfl⟩
  | publish r =>
      refine .inr ?_
      rw [Fleet.move]
      cases hconsumer : f.consumer with
      | none =>
          rw [Site.publish_of_none hconsumer]
          exact ⟨rfl, f.site.consumer_keep r⟩
      | some j =>
          rw [Site.publish_of_some hconsumer]
          exact ⟨Site.length_members_stepCache,
            Site.consumer_stepCache.trans (f.site.consumer_keep r)⟩
  | deliver j r => exact .inr ⟨Site.length_members_stepCache, Site.consumer_stepCache⟩
  | store ms => exact .inr ⟨rfl, rfl⟩
  | query j m =>
      exact .inr ⟨Site.members_query .., congrArg (fun j => j.journal.consumer)
        (Site.journal_query ..)⟩
  | turnTail j =>
      exact .inr ⟨Site.members_turnTail .., congrArg (fun j => j.journal.consumer)
        (Site.journal_turnTail ..)⟩
  | beginClose j => exact .inr ⟨members_beginClose h hm, h.consumer_beginClose hm⟩
  | endClose j => exact .inr ⟨Site.length_members_stepCache, Site.consumer_stepCache⟩
  | drop j =>
      refine .inr ⟨(Site.members_drop ..).trans (members_beginClose h hm), ?_⟩
      refine (congrArg (fun j => j.journal.consumer) (Site.journal_drop ..)).trans ?_
      exact h.consumer_beginClose hm
  | tell service on =>
      refine .inr ⟨?_, Site.consumer_tell ..⟩
      rw [count, Fleet.move, Site.members_tell]
      rfl

/-! ## Who has ended its subscription -/

/-- A cache makes moves that end no subscription. -/
theorem Manned.subscribed_advance (h : f.Manned) {j : Nat} {site : Site} {ms : List Move}
    (hms : (f.courses j).AllowsAll ms) (hnot : ∀ m ∈ ms, m ≠ .shutDown) :
    ((f.advance j site ms).courses i).cache.isSubscribed = (f.courses i).cache.isSubscribed := by
  by_cases hij : i = j
  · rw [hij, courses_advance_self]
    exact (h.sound j).isSubscribed_run hms hnot
  · rw [courses_advance_of_ne hij]

theorem ne_shutDown_of_mem_tailMoves {s : Site} {m : Move} (hm : m ∈ s.tailMoves i) :
    m ≠ .shutDown := by
  rcases eq_of_mem_tailMoves hm with rfl | rfl
  · exact nofun
  · exact nofun

/-- A cache is subscribed until it is closed or dropped. -/
theorem Manned.subscribed_move (h : f.Manned) (hm : f.Allows m) (hi : i < f.count) :
    ((f.move m).courses i).cache.isSubscribed =
      ((f.courses i).cache.isSubscribed && !m.ends i) := by
  have hkept : ∀ {b : Bool}, b = (f.courses i).cache.isSubscribed →
      b = ((f.courses i).cache.isSubscribed && !false) := by
    rintro b rfl
    exact (Bool.and_true _).symm
  -- the cache that ends its subscription is no longer subscribed, every other one is as before
  have hended : ∀ (j : Nat) (site : Site) (ms : List Move),
      ((f.courses j).run (.shutDown :: ms)).cache.isSubscribed = false →
        ((f.advance j site (.shutDown :: ms)).courses i).cache.isSubscribed =
          ((f.courses i).cache.isSubscribed && !(some j == some i)) := by
    intro j site ms hfalse
    by_cases hij : i = j
    · rw [hij, courses_advance_self, hfalse]
      simp
    · rw [courses_advance_of_ne hij]
      simp [Ne.symm hij]
  cases m with
  | start settings isQuiet => exact hkept (by rw [courses_start hi])
  | publish r =>
      refine hkept ?_
      rw [Fleet.move]
      split
      · exact h.subscribed_advance ⟨trivial, trivial⟩ (by simp)
      · rfl
  | deliver j r => exact hkept (h.subscribed_advance ⟨trivial, trivial⟩ (by simp))
  | store ms => exact hkept rfl
  | query j m =>
      refine hkept (h.subscribed_advance ⟨allows_of_allowsQuery hm.2, trivial⟩ ?_)
      intro n hn heq
      obtain rfl : n = m := List.mem_singleton.1 hn
      rw [heq] at hm
      exact hm.2
  | turnTail j =>
      refine hkept (h.subscribed_advance (allowsAll_tailMoves ..) fun m hmem => ?_)
      exact ne_shutDown_of_mem_tailMoves hmem
  | beginClose j => exact hended j _ [] rfl
  | endClose j => exact hkept (h.subscribed_advance ⟨trivial, trivial⟩ (by simp))
  | drop j => exact hended j _ [.stop, .release] rfl
  | tell service on =>
      refine hkept ?_
      obtain ⟨outlet, heq⟩ := f.toldCourses_eq on service i
      change (f.toldCourses on service i).cache.isSubscribed = _
      rw [heq]

/-- What is closed or dropped was started before. -/
theorem lt_count_of_ends (hm : f.Allows m) (hi : m.ends i) : i < f.count := by
  have hended : m.ended? = some i := by simpa [FleetMove.ends] using hi
  cases m with
  | beginClose j | drop j =>
      obtain rfl : j = i := Option.some.inj hended
      exact hm
  | _ => cases hended

theorem Manned.count_le (h : f.Manned) (hm : f.Allows m) : f.count ≤ (f.move m).count := by
  rcases h.consumer_move hm with ⟨_, _, -, hcount, -⟩ | ⟨hcount, -⟩ <;> omega

/-- A cache has ended its subscription once it was closed or dropped. -/
theorem subscribed_run (hms : empty.AllowsAll ms) (i : Nat) :
    (i < (empty.run ms).count →
        ((empty.run ms).courses i).cache.isSubscribed = !ms.any (·.ends i)) ∧
      ((empty.run ms).count ≤ i → ms.any (·.ends i) = false) := by
  induction ms using List.reverseRecOn with
  | nil => exact ⟨nofun, fun _ => rfl⟩
  | append_singleton ms m ih =>
      obtain ⟨hms, hm⟩ := allowsAll_concat.1 hms
      have hmanned := manned_empty.run hms
      obtain ⟨hstarted, hunstarted⟩ := ih hms
      have hany : (ms ++ [m]).any (·.ends i) = (ms.any (·.ends i) || m.ends i) := by simp
      rw [run_concat, hany]
      have hle := hmanned.count_le hm
      constructor
      · intro hi
        by_cases hlt : i < (empty.run ms).count
        · rw [hmanned.subscribed_move hm hlt, hstarted hlt, Bool.not_or]
        · -- the cache has just been started
          rcases hmanned.consumer_move hm with ⟨settings, isQuiet, rfl, hcount, -, hfollows⟩ |
            ⟨hcount, -⟩
          · have hnew : i = (empty.run ms).count := by omega
            rw [hunstarted (by omega), hnew, hfollows.isSubscribed]
            rfl
          · omega
      · intro hi
        rw [hunstarted (by omega), Bool.false_or, Bool.eq_false_iff]
        intro hends
        have hlt := lt_count_of_ends hm hends
        omega

/-! ## The consumer after any moves -/

/-- Cache `i` was started last, and since then nobody was closed or dropped who had not been closed
or dropped before. -/
def Undisturbed (ms : List FleetMove) (i : Nat) : Prop :=
  ∃ past settings isQuiet rest, ms = past ++ .start settings isQuiet :: rest ∧
    (empty.run past).count = i ∧ (empty.run (past ++ [.start settings isQuiet])).count = i + 1 ∧
    (empty.run ms).count = i + 1 ∧ ∀ k, rest.any (·.ends k) → past.any (·.ends k)

theorem undisturbed_start {settings : Settings} {isQuiet : Bool}
    (hcount : (empty.run (ms ++ [.start settings isQuiet])).count = (empty.run ms).count + 1) :
    Undisturbed (ms ++ [.start settings isQuiet]) i ↔ i = (empty.run ms).count := by
  constructor
  · rintro ⟨-, -, -, -, -, -, -, hlast, -⟩
    omega
  · rintro rfl
    exact ⟨ms, settings, isQuiet, [], rfl, rfl, hcount, hcount, nofun⟩

theorem undisturbed_concat
    (hcount : (empty.run (ms ++ [m])).count = (empty.run ms).count) :
    Undisturbed (ms ++ [m]) i ↔ Undisturbed ms i ∧ ∀ k, m.ends k → ms.any (·.ends k) := by
  constructor
  · rintro ⟨past, settings, isQuiet, rest, hms, hpast, hstart, hlast, hends⟩
    rcases List.eq_nil_or_concat rest with rfl | ⟨rest', m', rfl⟩
    · -- the last move would have started a cache
      obtain ⟨rfl, hm⟩ := List.append_inj' hms rfl
      rw [← hm, hcount, hpast] at hstart
      omega
    · rw [List.concat_eq_append, ← List.cons_append, ← List.append_assoc] at hms
      obtain ⟨rfl, hm⟩ := List.append_inj' hms rfl
      obtain rfl : m = m' := List.singleton_inj.1 hm
      rw [List.concat_eq_append] at hends
      refine ⟨⟨past, settings, isQuiet, rest', rfl, hpast, hstart, hcount ▸ hlast, ?_⟩, ?_⟩
      · intro k hk
        exact hends k (by rw [List.any_append, hk, Bool.true_or])
      · intro k hk
        have hpast := hends k (by simp [hk])
        rw [List.any_append, hpast, Bool.true_or]
  · rintro ⟨⟨past, settings, isQuiet, rest, rfl, hpast, hstart, hlast, hends⟩, hm⟩
    refine ⟨past, settings, isQuiet, rest ++ [m], by simp, hpast, hstart, hcount.trans hlast, ?_⟩
    intro k hk
    rw [List.any_append, Bool.or_eq_true] at hk
    rcases hk with hk | hk
    · exact hends k hk
    · have hbefore := hm k (by simpa using hk)
      rw [List.any_append, List.any_cons, Bool.or_eq_true, Bool.or_eq_true] at hbefore
      rcases hbefore with hbefore | hbefore | hbefore
      · exact hbefore
      · cases hbefore
      · exact hends k hbefore

theorem consumerAfter_eq_some :
    f.consumerAfter m = some i ↔
      f.consumer = some i ∧ ∀ k, m.ends k → (f.courses k).cache.isSubscribed = false := by
  unfold consumerAfter FleetMove.ends
  cases m.ended? with
  | none => simp
  | some k => simp [and_comm]

/-- The journal delivers to cache `i` exactly if that was started last and no other has ended its
subscription since. -/
theorem consumer_eq_some_iff (hms : empty.AllowsAll ms) :
    (empty.run ms).consumer = some i ↔ Undisturbed ms i := by
  induction ms using List.reverseRecOn with
  | nil =>
      refine ⟨nofun, ?_⟩
      rintro ⟨past, settings, isQuiet, rest, hms, -⟩
      exact absurd hms.symm (by simp)
  | append_singleton ms m ih =>
      obtain ⟨hms, hm⟩ := allowsAll_concat.1 hms
      have hmanned := manned_empty.run hms
      rcases hmanned.consumer_move hm with ⟨settings, isQuiet, rfl, hcount, hconsumer, -⟩ |
        ⟨hcount, hconsumer⟩
      · rw [undisturbed_start (by rw [run_concat, hcount]), run_concat, hconsumer]
        exact ⟨fun h => (Option.some.inj h).symm, fun h => congrArg some h.symm⟩
      · rw [undisturbed_concat (by rw [run_concat, hcount]), run_concat, hconsumer,
          consumerAfter_eq_some, ih hms]
        refine and_congr_right fun _ => forall_congr' fun k => imp_congr_right fun hk => ?_
        rw [(subscribed_run hms k).1 (lt_count_of_ends hm hk), Bool.not_eq_false']

/-! ## What reaches the consumer -/

theorem Manned.ne_of_consumer_ne (h : f.Manned) (hm : f.Allows m) (hi : i < f.count)
    (hne : f.consumer ≠ some i) : (f.move m).consumer ≠ some i := by
  rcases h.consumer_move hm with ⟨_, _, -, -, hconsumer, -⟩ | ⟨-, hconsumer⟩
  · rw [hconsumer]
    intro heq
    exact absurd (Option.some.inj heq) (Nat.ne_of_gt hi)
  · rw [hconsumer]
    exact fun heq => hne (consumerAfter_eq_some.1 heq).1

/-- The journal does not come back to a cache. -/
theorem Manned.ne_of_consumer_ne_run (h : f.Manned) (hmore : f.AllowsAll more) (hi : i < f.count)
    (hne : f.consumer ≠ some i) : (f.run more).consumer ≠ some i := by
  induction more generalizing f with
  | nil => exact hne
  | cons m more ih =>
      exact ih (h.move hmore.1) hmore.2 (Nat.lt_of_lt_of_le hi (h.count_le hmore.1))
        (h.ne_of_consumer_ne hmore.1 hi hne)

end Fleet

end JournalCache

import JournalCache.Proofs.Fleet.Consumer

/-!
# What the consumer takes in

As long as the journal delivers to a cache, every record that is published is accepted and reaches
its inbox, behind those that arrived before. Its tail ingestion handles them in this order, a share
in each of its turns, whatever is done with the other caches (`Manned.arrives_run`). `Delivers` puts
this together with whom the journal delivers to.
-/

namespace JournalCache

namespace Fleet

variable {f : Fleet} {m : FleetMove} {ms more : List FleetMove} {i : Nat}

def room (i : Nat) (m : FleetMove) : Nat := if m.isTurnOf i then Cache.share else 0

/-- What a move does to the tail of the cache that the journal delivers to, before and after it. -/
structure Moves (i : Nat) (m : FleetMove) (c d : Course) : Prop where
  handled : d.handled = c.handled ++ c.cache.inbox.take (room i m)
  inbox : d.cache.inbox = c.cache.inbox.drop (room i m) ++ (m.arrival? i).toList

/-- A move of others, or of a query, leaves the tail as it is. -/
theorem Moves.of_same {c d : Course} (hroom : room i m = 0) (harrival : m.arrival? i = none)
    (hhandled : d.handled = c.handled) (hinbox : d.cache.inbox = c.cache.inbox) :
    Moves i m c d where
  handled := by rw [hroom, hhandled, List.take_zero, List.append_nil]
  inbox := by
    rw [hroom, harrival, hinbox, List.drop_zero]
    exact (List.append_nil _).symm

theorem Moves.of_ne {j : Nat} {site : Site} {ms : List Move} (hij : i ≠ j) (hroom : room i m = 0)
    (harrival : m.arrival? i = none) :
    Moves i m (f.courses i) ((f.advance j site ms).courses i) := by
  rw [courses_advance_of_ne hij]
  exact .of_same hroom harrival rfl rfl

/-- A record that arrives stands behind those that arrived before. -/
theorem Moves.of_arrival {c : Course} {r : Delivery} (hroom : room i m = 0)
    (harrival : m.arrival? i = some r) : Moves i m c (c.move (.deliver r)) where
  handled := by
    rw [hroom, List.take_zero, List.append_nil]
    rfl
  inbox := by
    rw [hroom, harrival]
    rfl

/-- Nothing is lost or overtaken. -/
theorem Moves.total {c d : Course} (h : Moves i m c d) :
    d.handled ++ d.cache.inbox = c.handled ++ c.cache.inbox ++ (m.arrival? i).toList := by
  rw [h.handled, h.inbox, List.append_assoc, ← List.append_assoc (List.take ..),
    List.take_append_drop, List.append_assoc]

theorem Manned.arrives (h : f.Manned) (hm : f.Allows m) (hi : f.consumer = some i)
    (hi' : (f.move m).consumer = some i) :
    Moves i m (f.courses i) ((f.move m).courses i) := by
  have hlt := h.lt_count hi
  cases m with
  | start settings isQuiet =>
      rw [courses_start hlt]
      exact .of_same rfl rfl rfl rfl
  | publish r =>
      rw [Fleet.move, Site.publish_of_some hi]
      change Moves i _ _ ((f.advance i _ _).courses i)
      rw [courses_advance_self]
      exact .of_arrival rfl rfl
  | deliver j r =>
      by_cases hij : i = j
      · rw [Fleet.move, ← hij, courses_advance_self]
        exact .of_arrival rfl (if_pos rfl)
      · exact .of_ne hij rfl (if_neg (Ne.symm hij))
  | store ms => exact .of_same rfl rfl rfl rfl
  | query j m =>
      by_cases hij : i = j
      · subst hij
        rw [Fleet.move, courses_advance_self]
        obtain ⟨hhandled, hinbox, -⟩ := h.query_leaves_tail hm.2
        exact .of_same rfl rfl hhandled hinbox
      · exact .of_ne hij rfl rfl
  | turnTail j =>
      by_cases hij : i = j
      · subst hij
        have hroom : room i (.turnTail i) = Cache.share := by simp [room, FleetMove.isTurnOf]
        obtain ⟨-, hhandled, hinbox⟩ := Course.run_handle_tail (h.follows i hi)
          ((f.courses i).cache.inbox.take Cache.share)
        rw [Fleet.move, courses_advance_self, h.tailMoves_eq hi]
        refine ⟨?_, ?_⟩
        · rw [hhandled, hroom, List.length_take, ← List.take_eq_take_min]
        · rw [hinbox, hroom, List.length_take]
          exact (List.drop_eq_drop_iff.2 (by omega)).trans (List.append_nil _).symm
      · exact .of_ne hij (by simp [room, FleetMove.isTurnOf, Ne.symm hij]) rfl
  | beginClose j =>
      exact .of_ne (h.of_consumer_beginClose hm hi').2 rfl rfl
  | endClose j =>
      by_cases hij : i = j
      · subst hij
        rw [Fleet.move, courses_advance_self]
        exact .of_same rfl rfl (Lifetime.handled_release _) rfl
      · exact .of_ne hij rfl rfl
  | drop j =>
      have hconsumer : (f.site.beginClose j).1.journal.journal.consumer = some i := by
        rw [← Site.journal_drop]
        exact hi'
      exact .of_ne (h.of_consumer_beginClose hm hconsumer).2 rfl rfl
  | tell service on =>
      obtain ⟨outlet, heq⟩ := f.toldCourses_eq on service i
      change Moves i _ _ (f.toldCourses on service i)
      rw [heq]
      exact .of_same rfl rfl rfl rfl

/-! ## Any moves -/

/-- What tail ingestion of the consumer has handled and has still to handle, after moves that let
the journal deliver to it. -/
theorem Manned.arrives_run (h : f.Manned) (hmore : f.AllowsAll more) (hi : f.consumer = some i)
    (hi' : (f.run more).consumer = some i) :
    ((f.run more).courses i).handled ++ ((f.run more).courses i).cache.inbox =
        (f.courses i).handled ++ (f.courses i).cache.inbox ++
          more.filterMap (FleetMove.arrival? i) ∧
      (f.courses i).handled.length +
          min (f.courses i).cache.inbox.length (Cache.share * more.countP (·.isTurnOf i)) ≤
        ((f.run more).courses i).handled.length := by
  induction more generalizing f with
  | nil =>
      refine ⟨(List.append_nil _).symm, ?_⟩
      rw [List.countP_nil, Nat.mul_zero, Nat.min_zero]
      exact Nat.le_refl _
  | cons m more ih =>
      have hnext := h.move hmore.1
      -- the journal does not come back, so it delivers to the cache after the first move
      have hthen : (f.move m).consumer = some i := by
        by_contra hne
        exact hnext.ne_of_consumer_ne_run hmore.2
          (Nat.lt_of_lt_of_le (h.lt_count hi) (h.count_le hmore.1)) hne hi'
      have hmoves := h.arrives hmore.1 hi hthen
      obtain ⟨hlist, hlength⟩ := ih hnext hmore.2 hthen hi'
      refine ⟨hlist.trans ?_, Nat.le_trans ?_ hlength⟩
      · rw [hmoves.total, List.append_assoc, List.filterMap_cons]
        cases m.arrival? i <;> rfl
      · rw [hmoves.handled, hmoves.inbox, List.countP_cons]
        simp only [List.length_append, List.length_take, List.length_drop, room]
        cases m.isTurnOf i with
        | true =>
            rw [if_pos rfl, if_pos rfl, Nat.mul_succ]
            omega
        | false =>
            rw [if_neg Bool.false_ne_true, if_neg Bool.false_ne_true, Nat.add_zero]
            omega

/-- Whom the journal delivers to after the moves `ms`, and what becomes of what it delivers. -/
structure Delivers (ms : List FleetMove) : Prop where
  consumer : ∀ i, (empty.run ms).consumer = some i ↔ Undisturbed ms i
  /-- A record is accepted exactly if the journal delivers to somebody. -/
  accepted : ∀ r, ((empty.run ms).site.publish r).2 = (empty.run ms).consumer
  /-- The courses of the caches are what the caches go through. -/
  caches : ∀ i < (empty.run ms).count,
    (empty.run ms).site.cache? i = some ((empty.run ms).courses i).cache
  follows : ∀ i, (empty.run ms).consumer = some i → ((empty.run ms).courses i).Follows
  /-- As long as the journal delivers to a cache, nothing that arrives is lost or overtaken. -/
  arrives : ∀ i, (empty.run ms).consumer = some i → ∀ more, (empty.run ms).AllowsAll more →
    ((empty.run ms).run more).consumer = some i →
      (((empty.run ms).run more).courses i).handled ++
          (((empty.run ms).run more).courses i).cache.inbox =
        ((empty.run ms).courses i).handled ++ ((empty.run ms).courses i).cache.inbox ++
          more.filterMap (FleetMove.arrival? i)
  /-- With enough turns, all that has arrived is handled. -/
  handled : ∀ i, (empty.run ms).consumer = some i → ∀ more, (empty.run ms).AllowsAll more →
    ((empty.run ms).run more).consumer = some i →
      ((empty.run ms).courses i).cache.inbox.length ≤
          Cache.share * more.countP (·.isTurnOf i) →
        ((empty.run ms).courses i).handled ++ ((empty.run ms).courses i).cache.inbox <+:
          (((empty.run ms).run more).courses i).handled

theorem publish_snd (f : Fleet) (r : Delivery) : (f.site.publish r).2 = f.consumer := by
  cases hconsumer : f.consumer with
  | none => rw [Site.publish_of_none hconsumer]
  | some i => rw [Site.publish_of_some hconsumer]

theorem delivers (hms : empty.AllowsAll ms) : Delivers ms where
  consumer := fun _ => consumer_eq_some_iff hms
  accepted := fun r => publish_snd _ r
  caches := fun _ hi => (manned_empty.run hms).has.cache?_eq hi
  follows := (manned_empty.run hms).follows
  arrives := fun _ hi _ hmore hi' => ((manned_empty.run hms).arrives_run hmore hi hi').1
  handled := by
    intro i hi more hmore hi' hturns
    obtain ⟨hlist, hlength⟩ := (manned_empty.run hms).arrives_run hmore hi hi'
    rw [Nat.min_eq_left hturns, ← List.length_append] at hlength
    have harrived := List.prefix_append (((empty.run ms).courses i).handled ++
      ((empty.run ms).courses i).cache.inbox) (more.filterMap (FleetMove.arrival? i))
    rw [← hlist] at harrived
    exact List.prefix_of_prefix_length_le harrived (List.prefix_append _ _) hlength

/-- Two caches are started, and the first one is closed: the journal delivers to nobody then, though
the second one follows the tail and was neither closed nor dropped. -/
def disturbance : List FleetMove :=
  [.start .standard false, .start .standard false, .beginClose 0]

theorem delivers_disturbance :
    Delivers disturbance ∧ (empty.run disturbance).consumer = none ∧
      (empty.run disturbance).count = 2 ∧ disturbance.any (·.ends 1) = false ∧
      ((empty.run disturbance).courses 1).cache.isFollowing :=
  ⟨delivers (by decide), by decide, by decide, by decide, by decide⟩

end Fleet

end JournalCache

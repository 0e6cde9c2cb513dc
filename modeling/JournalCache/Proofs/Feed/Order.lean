import JournalCache.Proofs.Course.SingleFlight
import JournalCache.Proofs.Feed.Basic

/-!
# Feeds in order

The records that a cache handled, those in its inbox and those in the line are, in this order, the
first of those that were published; as long as the subscription lasts they are all of them. A
message in the log was published, or it lies below everything that was published
(`Ordered.history`). So the log above the first published record is the tail, and below it is
history.
-/

namespace JournalCache

namespace Feed

/-- The records that tail ingestion handled or may still handle, oldest first. -/
def tail (f : Feed) : List Delivery := f.course.handled ++ f.course.cache.inbox ++ f.line

/-- What was published, the log and the tail fit together. -/
structure Ordered (f : Feed) : Prop where
  keyed : f.journal.Keyed
  increasing : (f.published.map (·.offset)).Pairwise (· < ·)
  unreserved : ∀ r ∈ f.published, r.offset ≠ reservedOffset
  handled : f.course.handled <+: f.published
  following : f.course.cache.isFollowing → f.tail <+: f.published
  attached : f.course.cache.isFollowing → f.journal.consumer.isSome → f.tail = f.published
  stored : ∀ m, .message m ∈ f.published → f.journal.log.get? m.offset = some m
  history : ∀ o m, f.journal.log.get? o = some m →
    .message m ∈ f.published ∨ ∀ r ∈ f.published, o < r.offset

variable {f : Feed} {history : List Message} {number : Nat} {settings : Settings}
  {registry : Registry}

theorem ordered_start : (start history number settings registry).Ordered where
  keyed := Journal.keyed_empty.store history
  increasing := .nil
  unreserved := by simp [start]
  handled := List.nil_prefix
  following := fun _ => List.nil_prefix
  attached := fun _ _ => rfl
  stored := by simp [start]
  history := by simp [start]

namespace Ordered

theorem tailIncreases (h : f.Ordered) : f.course.TailIncreases := by
  rcases h.handled with ⟨rs, hrs⟩
  have hinc := h.increasing
  rw [← hrs, List.map_append, List.pairwise_append] at hinc
  exact hinc.1

/-- A step of the cache that delivers nothing keeps a feed in order. -/
theorem step (h : f.Ordered) {m : Move} {d : Course} (hstep : f.course.Step m d)
    (hm : ∀ r, m ≠ .deliver r) {j : Journal} (hlog : j.log = f.journal.log)
    (hconsumer : j.consumer.isSome → f.journal.consumer.isSome) :
    Ordered { f with journal := j, course := d } where
  keyed := by
    intro o m hm
    rw [hlog] at hm
    exact h.keyed o m hm
  increasing := h.increasing
  unreserved := h.unreserved
  handled := by
    rcases hstep.handled_eq with heq | ⟨-, hfollowing, r, rs, hinbox, rfl⟩
    · change d.handled <+: f.published
      rw [heq]
      exact h.handled
    · obtain ⟨later, hlater⟩ := h.following hfollowing
      rw [tail, hinbox] at hlater
      refine ⟨rs ++ f.line ++ later, ?_⟩
      change (f.course.takeIn r rs).handled ++ _ = f.published
      rw [Course.handled_takeIn, ← hlater]
      simp
  following := by
    intro hfollowing
    obtain ⟨hbefore, htail⟩ := hstep.tail hm hfollowing
    change d.handled ++ d.cache.inbox ++ f.line <+: f.published
    rw [htail]
    exact h.following hbefore
  attached := by
    intro hfollowing hattached
    obtain ⟨hbefore, htail⟩ := hstep.tail hm hfollowing
    change d.handled ++ d.cache.inbox ++ f.line = f.published
    rw [htail]
    exact h.attached hbefore (hconsumer hattached)
  stored := by
    intro m hm
    rw [hlog]
    exact h.stored m hm
  history := by
    intro o m hm
    rw [hlog] at hm
    exact h.history o m hm

/-- A record that is published lies above all that the log has. -/
theorem lt_of_get? (h : f.Ordered) {r : Delivery} (hr : f.Allows (.publish r)) {o : Offset}
    {m : Message} (hm : f.journal.log.get? o = some m) : o < r.offset := by
  rcases hr with ⟨-, habove, hfirst⟩
  cases hpublished : f.published with
  | nil => exact hfirst hpublished _ (SortedMap.get?_eq_some.1 hm)
  | cons p ps =>
      have hp : p ∈ f.published := by simp [hpublished]
      rcases h.history o m hm with hmem | hbelow
      · have ho : m.offset = o := h.keyed o m hm
        exact ho ▸ habove _ hmem
      · exact Std.lt_trans (hbelow p hp) (habove p hp)

theorem publish (h : f.Ordered) {r : Delivery} (hr : f.Allows (.publish r)) :
    (f.move (.publish r)).Ordered where
  keyed := by
    change (f.journal.keep r).Keyed
    rw [Journal.keep_eq]
    exact h.keyed.store _
  increasing := by
    change ((f.published ++ [r]).map (·.offset)).Pairwise (· < ·)
    rw [List.map_append, List.pairwise_append]
    refine ⟨h.increasing, List.pairwise_singleton _ _, ?_⟩
    intro a ha b hb
    obtain ⟨p, hp, rfl⟩ := List.mem_map.1 ha
    obtain rfl : b = r.offset := by simpa using hb
    exact hr.2.1 p hp
  unreserved := by
    intro p hp
    rcases List.mem_append.1 hp with hp | hp
    · exact h.unreserved p hp
    · rw [List.mem_singleton.1 hp]
      exact hr.1
  handled := h.handled.trans (List.prefix_append _ _)
  following := by
    intro hfollowing
    change f.course.handled ++ f.course.cache.inbox ++
      (if f.journal.consumer.isSome then f.line ++ [r] else f.line) <+: f.published ++ [r]
    split
    · next hattached =>
      have htail := h.attached hfollowing hattached
      rw [tail] at htail
      exact ⟨[], by simp [← htail]⟩
    · exact (h.following hfollowing).trans (List.prefix_append _ _)
  attached := by
    intro hfollowing hattached
    have hconsumer : (f.journal.keep r).consumer = f.journal.consumer := by cases r <;> rfl
    change (f.journal.keep r).consumer.isSome at hattached
    rw [hconsumer] at hattached
    change f.course.handled ++ f.course.cache.inbox ++
      (if f.journal.consumer.isSome then f.line ++ [r] else f.line) = f.published ++ [r]
    rw [if_pos hattached, ← h.attached hfollowing hattached, tail, List.append_assoc]
    simp
  stored := by
    intro m hm
    change (f.journal.keep r).log.get? m.offset = some m
    rw [Journal.keep_eq]
    rcases List.mem_append.1 hm with hmem | hmem
    · rw [Journal.get?_store_of_notMem]
      · exact h.stored m hmem
      · intro n hn hoffset
        obtain rfl := Delivery.mem_batch.1 hn
        have hlt : m.offset < n.offset := hr.2.1 _ hmem
        exact Std.lt_irrefl (hoffset ▸ hlt)
    · rw [← List.mem_singleton.1 hmem]
      exact Journal.get?_store_singleton _ _
  history := by
    intro o m hm
    change (f.journal.keep r).log.get? o = some m at hm
    rw [Journal.keep_eq] at hm
    rcases Journal.mem_of_get?_store hm with ⟨hmem, -⟩ | hold
    · obtain rfl := Delivery.mem_batch.1 hmem
      exact .inl (List.mem_append_right _ (by simp))
    · rcases h.history o m hold with hmem | hbelow
      · exact .inl (List.mem_append_left _ hmem)
      · refine .inr fun p hp => ?_
        rcases List.mem_append.1 hp with hp | hp
        · exact hbelow p hp
        · rw [List.mem_singleton.1 hp]
          exact h.lt_of_get? hr hold

theorem letIn (h : f.Ordered) : (f.move .letIn).Ordered := by
  rw [move]
  split
  · exact h
  · next r rs hline =>
    split
    · next hfollowing =>
      have htail :
          Feed.tail { f with line := rs, course := f.course.move (.deliver r) } = f.tail := by
        change f.course.handled ++ (f.course.cache.inbox ++ [r]) ++ rs = _
        rw [tail, hline]
        simp
      exact
        { h with
          handled := h.handled
          following := fun _ => htail ▸ h.following hfollowing
          attached := fun _ hattached => htail ▸ h.attached hfollowing hattached }
    · next hnot =>
      exact
        { h with
          handled := h.handled
          following := fun hfollowing => absurd hfollowing hnot
          attached := fun hfollowing => absurd hfollowing hnot }

/-- What may be stored beside the tail lies below all that was published. -/
theorem lt_of_historyEnd (h : f.Ordered)
    (hf : Course.Reachable number settings registry f.course) {o : Offset}
    (ho : f.isHistory o) : ∀ r ∈ f.published, o < r.offset := by
  have hinc := h.increasing
  have hhandled := h.handled
  cases hpublished : f.published with
  | nil => simp
  | cons r₀ rs =>
      rw [hpublished] at hinc hhandled
      have hfirst : o < r₀.offset := by
        cases hlow : f.course.lowest? with
        | none => simpa [isHistory, historyEnd?, hlow, hpublished] using ho
        | some low =>
            have hlt : o < low := by simpa [isHistory, historyEnd?, hlow] using ho
            obtain ⟨hmark, hne⟩ := Course.lowest?_eq_some.1 hlow
            cases hnil : f.course.handled with
            | nil => exact absurd (hmark.symm.trans (hf.of_handled_nil hnil).1) hne
            | cons p ps =>
                rw [hnil, List.cons_prefix_cons] at hhandled
                have hle := hf.lowMark_le_handled (r := r₀) (by simp [hnil, hhandled.1])
                exact Std.lt_of_lt_of_le hlt (hmark ▸ hle)
      intro r hr
      rcases List.mem_cons.1 hr with rfl | hr
      · exact hfirst
      · exact Std.lt_trans hfirst ((List.pairwise_cons.1 hinc).1 _ (List.mem_map_of_mem hr))

theorem store (h : f.Ordered) (hf : Course.Reachable number settings registry f.course)
    {ms : List Message} (hms : f.Allows (.store ms)) : (f.move (.store ms)).Ordered :=
  { h with
    keyed := h.keyed.store ms
    handled := h.handled
    following := h.following
    attached := h.attached
    stored := by
      intro m hm
      change (f.journal.store ms).log.get? m.offset = some m
      rw [Journal.get?_store_of_notMem]
      · exact h.stored m hm
      · intro n hn hoffset
        have hlt := h.lt_of_historyEnd hf (hms n hn) _ hm
        exact Std.lt_irrefl (hoffset ▸ hlt)
    history := by
      intro o m hm
      rcases Journal.mem_of_get?_store hm with ⟨hmem, rfl⟩ | hold
      · exact .inr (h.lt_of_historyEnd hf (hms m hmem))
      · exact h.history o m hold }

end Ordered

theorem Reachable.ordered (hf : Reachable history number settings registry f) : f.Ordered := by
  induction hf with
  | start => exact ordered_start
  | @move f hf m hm ih =>
      cases m with
      | publish r => exact ih.publish hm
      | letIn => exact ih.letIn
      | store ms => exact ih.store hf.course hm
      | failFetches on => exact ih.step (.stays .handle) (by simp) rfl id
      | reply =>
          rw [Feed.move]
          split
          · exact ih.step (Course.step_answer hf.course.sound _ _) (by simp) rfl id
          · exact ih
      | shutDown =>
          refine ih.step .shutsDown (by simp) ?_ ?_
          · split <;> rfl
          · split
            · intro hsome
              cases hsome
            · exact id
      | take m =>
          refine ih.step (Course.step_move hf.course.sound hm.2) ?_ rfl id
          rintro r rfl
          exact absurd hm.1 (by simp [Move.isOwn])

end Feed

end JournalCache

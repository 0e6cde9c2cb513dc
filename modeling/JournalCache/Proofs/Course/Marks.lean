import JournalCache.Proofs.Course.Notices
import JournalCache.Proofs.Course.Patience

/-!
# Where the marks stand

The highest mark is the offset of a message that tail ingestion handled (`Reachable.met`), and the
lowest mark stands at or below whatever it handled, so the marks always fit together. In any run the
lowest mark only goes down. The highest mark only goes up, as long as no message is handled at the
reserved offset, which would take it away.
-/

namespace JournalCache

namespace Course

def highest? (c : Course) : Option Offset := c.cache.highest?

/-- The messages that tail ingestion handled, in order; markers are none. -/
def messages (c : Course) : List Message := c.handled.flatMap Delivery.batch

def NoneReserved (c : Course) : Prop := ∀ m ∈ c.messages, m.offset ≠ reservedOffset

/-- The journal answered with no message below the offset that it was asked from. -/
def AnswersAbove (c : Course) : Prop :=
  ∀ k ∈ c.calls, ∀ batch, k.state = .answered (.ok batch) → ∀ m ∈ batch, k.fetch.first ≤ m.offset

/-- The marks fit together, move one way, and say what they are to say. -/
structure Marked (c : Course) : Prop where
  ordered : ∀ high, c.highest? = some high → ∃ low, c.lowest? = some low ∧ low ≤ high ∧
    high < reservedOffset ∧ c.cache.snapshot.span.toNat = high.toNat - low.toNat + 1
  unmet : c.highest? = none → c.cache.snapshot.span = 0
  /-- This is so in the midst of a merge too, when the listener looks. -/
  told : ∀ n ∈ c.outlet.notices, n.holdings.coverage.Fits
  lowest : ∀ ms, c.AllowsAll ms → ∀ low, c.lowest? = some low →
    ∃ low', (c.run ms).lowest? = some low' ∧ low' ≤ low
  highest : c.NoneReserved → ∀ high, c.highest? = some high ↔
    (∃ m ∈ c.messages, m.offset = high) ∧ ∀ m ∈ c.messages, m.offset ≤ high
  highest_none : c.NoneReserved → (c.highest? = none ↔ c.messages = [])
  grows : ∀ ms, c.AllowsAll ms → (c.run ms).NoneReserved → ∀ high, c.highest? = some high →
    ∃ high', (c.run ms).highest? = some high' ∧ high ≤ high'
  held : c.NoneReserved → c.AnswersAbove → ∀ agent o i,
    (c.cache.queue agent).get? o = some i → ∃ low, c.lowest? = some low ∧ low ≤ o

variable {c d : Course} {m : Move}

/-! ## The highest mark -/

/-- Only tail ingestion raises the highest mark. -/
theorem Step.highest?_eq (h : c.Step m d) :
    d.highest? = c.highest? ∧ d.messages = c.messages ∨ ∃ r rs, d = c.takeIn r rs := by
  rcases h.handled_eq with heq | ⟨-, -, r, rs, -, rfl⟩
  · refine .inl ⟨?_, by rw [messages, heq, messages]⟩
    cases h with
    | succeeds => exact congrArg shownOffset (Holdings.highMark_backfill ..)
    | handles => rw [handled_takeIn] at heq; simp at heq
    | _ => rfl
  · exact .inr ⟨r, rs, rfl⟩

theorem messages_takeIn (c : Course) (r : Delivery) (rs : List Delivery) :
    (c.takeIn r rs).messages = c.messages ++ r.batch := by
  rw [messages, handled_takeIn, List.flatMap_append, List.flatMap_singleton, messages]

theorem highest?_takeIn_message (c : Course) (m : Message) (rs : List Delivery) :
    (c.takeIn (.message m) rs).highest? =
      ((c.cache.holdings.coverage.lower m.offset).raise m.offset).highest? :=
  congrArg Coverage.highest? (Holdings.coverage_ingest _ _ (.message m))

variable {number : Nat} {settings : Settings} {registry : Registry}

/-- The highest mark is the offset of a message that was handled. -/
theorem Reachable.met (h : Reachable number settings registry c) {high : Offset}
    (hhigh : c.highest? = some high) : ∃ m ∈ c.messages, m.offset = high := by
  induction h with
  | start => cases hhigh
  | @move c hc m hm ih =>
      rcases (hc.step hm).highest?_eq with ⟨heq, hmessages⟩ | ⟨r, rs, heq⟩
      · rw [hmessages]
        exact ih (heq ▸ hhigh)
      · rw [heq, messages_takeIn]
        rw [heq] at hhigh
        have hold : c.highest? = some high → ∃ m ∈ c.messages ++ r.batch, m.offset = high := by
          intro hc
          obtain ⟨m, hm, hoffset⟩ := ih hc
          exact ⟨m, List.mem_append_left _ hm, hoffset⟩
        cases r with
        | marker p => exact hold hhigh
        | message n =>
            rw [highest?_takeIn_message] at hhigh
            rcases Coverage.highest?_of_raise hhigh with rfl | hhigh
            · exact ⟨n, List.mem_append_right _ List.mem_cons_self, rfl⟩
            · exact hold hhigh

/-- No handled message stands above the highest mark. -/
theorem Reachable.le_highest (h : Reachable number settings registry c) (hne : c.NoneReserved)
    {n : Message} (hn : n ∈ c.messages) : ∃ high, c.highest? = some high ∧ n.offset ≤ high := by
  induction h with
  | start => cases hn
  | @move c hc m hm ih =>
      rcases (hc.step hm).highest?_eq with ⟨heq, hmessages⟩ | ⟨r, rs, heq⟩
      · rw [heq]
        rw [NoneReserved, hmessages] at hne
        exact ih hne (hmessages ▸ hn)
      · rw [NoneReserved, heq, messages_takeIn] at hne
        rw [heq, messages_takeIn, List.mem_append] at hn
        rw [heq]
        have hold := ih fun m hm => hne m (List.mem_append_left _ hm)
        cases r with
        | marker p => exact hold (hn.resolve_right List.not_mem_nil)
        | message o =>
            rw [highest?_takeIn_message]
            obtain ⟨high, hhigh, hle, hup⟩ := Coverage.highest?_raise
              (c := c.cache.holdings.coverage.lower o.offset)
              (hne o (List.mem_append_right _ List.mem_cons_self))
            refine ⟨high, hhigh, ?_⟩
            rcases hn with hn | hn
            · obtain ⟨p, hp, hnp⟩ := hold hn
              exact Std.le_trans hnp (hup p hp)
            · rw [List.mem_singleton.1 hn]
              exact hle

theorem Reachable.highest?_eq_some (h : Reachable number settings registry c)
    (hne : c.NoneReserved) {high : Offset} : c.highest? = some high ↔
      (∃ m ∈ c.messages, m.offset = high) ∧ ∀ m ∈ c.messages, m.offset ≤ high := by
  constructor
  · intro hhigh
    refine ⟨h.met hhigh, fun m hm => ?_⟩
    obtain ⟨high', hhigh', hle⟩ := h.le_highest hne hm
    rw [hhigh] at hhigh'
    rwa [Option.some.inj hhigh']
  · rintro ⟨⟨m, hm, rfl⟩, hall⟩
    obtain ⟨high, hhigh, hle⟩ := h.le_highest hne hm
    obtain ⟨n, hn, hoffset⟩ := h.met hhigh
    rw [hhigh, Std.le_antisymm hle (hoffset ▸ hall n hn)]

theorem Reachable.highest?_eq_none (h : Reachable number settings registry c)
    (hne : c.NoneReserved) : c.highest? = none ↔ c.messages = [] := by
  constructor
  · intro hnone
    refine List.eq_nil_iff_forall_not_mem.2 fun m hm => ?_
    obtain ⟨high, hhigh, -⟩ := h.le_highest hne hm
    rw [hnone] at hhigh
    cases hhigh
  · intro hnil
    refine Option.eq_none_iff_forall_ne_some.2 fun high hhigh => ?_
    obtain ⟨m, hm, -⟩ := h.met hhigh
    rw [hnil] at hm
    cases hm

/-! ## The two marks together -/

theorem Reachable.fits (h : Reachable number settings registry c) :
    c.cache.holdings.coverage.Fits := by
  apply Coverage.fits_of_le
  intro high hhigh
  obtain ⟨m, hm, rfl⟩ := h.met hhigh
  obtain ⟨r, hr, hmr⟩ := List.mem_flatMap.1 hm
  have hle := h.lowMark_le_handled hr
  rw [Delivery.mem_batch.1 hmr] at hle
  exact hle

/-- What the listener finds are the marks of a reachable course. -/
theorem Reachable.fits_told (h : Reachable number settings registry c) :
    ∀ n ∈ c.outlet.notices, n.holdings.coverage.Fits := by
  induction h with
  | start => simp [Course.start]
  | @move c hc m hm ih =>
      obtain ⟨told, htold, hcoverage⟩ : ∃ told,
          (c.move m).outlet.notices = c.outlet.notices ++ told ∧
            ∀ n ∈ told, n.holdings.coverage = c.cache.holdings.coverage := by
        rcases (hc.step hm).merges with ⟨-, hmerges⟩ | ⟨x, -, hmerges⟩ <;>
        · obtain ⟨told, htold, hinside⟩ := hmerges.inside
          exact ⟨told, htold, fun n hn => (hinside n hn).1⟩
      rw [htold]
      intro n hn
      rcases List.mem_append.1 hn with hn | hn
      · exact ih n hn
      · rw [hcoverage n hn]
        exact hc.fits

/-! ## Along a run -/

theorem Sound.lowMark_run_le (hs : c.Sound) {ms : List Move} (hms : c.AllowsAll ms) :
    (c.run ms).lowMark ≤ c.lowMark := by
  induction ms generalizing c with
  | nil => exact Std.le_refl _
  | cons m ms ih =>
      have hstep := step_move hs hms.1
      exact Std.le_trans (ih (hstep.sound hs) hms.2) hstep.lowMark_le

theorem Sound.messages_run (hs : c.Sound) {ms : List Move} (hms : c.AllowsAll ms) :
    c.messages <+: (c.run ms).messages := by
  induction ms generalizing c with
  | nil => exact List.prefix_rfl
  | cons m ms ih =>
      have hstep := step_move hs hms.1
      obtain ⟨rs, hrs⟩ := hstep.handled
      refine List.IsPrefix.trans ?_ (ih (hstep.sound hs) hms.2)
      rw [messages, messages, hrs, List.flatMap_append]
      exact List.prefix_append _ _

theorem Sound.lowest?_run (hs : c.Sound) {ms : List Move} (hms : c.AllowsAll ms) {low : Offset}
    (hlow : c.lowest? = some low) : ∃ low', (c.run ms).lowest? = some low' ∧ low' ≤ low := by
  obtain ⟨rfl, hne⟩ := lowest?_eq_some.1 hlow
  have hle := hs.lowMark_run_le hms
  refine ⟨_, lowest?_eq_some.2 ⟨rfl, fun hmark => hne ?_⟩, hle⟩
  exact Std.le_antisymm (le_reservedOffset _) (hmark ▸ hle)

theorem Reachable.highest?_run (h : Reachable number settings registry c) {ms : List Move}
    (hms : c.AllowsAll ms) (hne : (c.run ms).NoneReserved) {high : Offset}
    (hhigh : c.highest? = some high) :
    ∃ high', (c.run ms).highest? = some high' ∧ high ≤ high' := by
  obtain ⟨m, hm, rfl⟩ := h.met hhigh
  exact (h.run hms).le_highest hne ((h.sound.messages_run hms).subset hm)

/-! ## What stands in the queues -/

theorem Reachable.merged_of_held (h : Reachable number settings registry c) {agent : String}
    {o : Offset} {i : Item} (hget : (c.cache.queue agent).get? o = some i) :
    ∃ m ∈ c.merged, m.offset = o := by
  induction h with
  | start => cases hget
  | @move c hc m hm ih =>
      have hmerge : ∀ batch, c.Merges (c.move m) batch →
          (c.cache.queue agent).get? o = some i ∨ ∃ m ∈ batch, m.offset = o := by
        intro batch hmerges
        rw [Cache.queue, AgentTable.queue_eq, hmerges.queues] at hget
        exact Holdings.of_get?_merge _ _ hget
      rcases (hc.step hm).merges with ⟨hdeeds, hmerges⟩ | ⟨x, hdeeds, hmerges⟩
      · rw [merged, hdeeds]
        exact ih ((hmerge _ hmerges).resolve_right (by simp))
      · rw [merged_concat hdeeds]
        rcases hmerge _ hmerges with hget | ⟨m, hm, hoffset⟩
        · obtain ⟨m, hm, hoffset⟩ := ih hget
          exact ⟨m, List.mem_append_left _ hm, hoffset⟩
        · exact ⟨m, List.mem_append_right _ hm, hoffset⟩

/-- A query returns with the messages that answer its call. -/
theorem Step.call_of_returned (h : c.Step m d) {q : Query} {batch : List Message}
    {result : Except Fault (Queue Item)} (hx : .returned q (some (.ok batch)) result ∈ d.deeds) :
    .returned q (some (.ok batch)) result ∈ c.deeds ∨
      ∃ k ∈ d.calls, k.state = .answered (.ok batch) := by
  cases h with
  | succeeds =>
      rcases List.mem_append.1 hx with hx | hx
      · exact .inl hx
      · cases List.mem_singleton.1 hx
        exact .inr ⟨_, List.mem_append_right _ List.mem_cons_self, rfl⟩
  | returnsAtOnce => exact .inl (by simpa using hx)
  | skips => exact .inl (by simpa [skip] using hx)
  | expires => exact .inl (by simpa [timeOut] using hx)
  | fails => exact .inl (by simpa [fail] using hx)
  | handles => exact .inl (by simpa [takeIn] using hx)
  | releases => exact .inl (by simpa using hx)
  | _ => exact .inl hx

theorem Reachable.call_of_returned (h : Reachable number settings registry c) {q : Query}
    {batch : List Message} {result : Except Fault (Queue Item)}
    (hx : .returned q (some (.ok batch)) result ∈ c.deeds) :
    ∃ k ∈ c.calls, k.state = .answered (.ok batch) := by
  induction h with
  | start => cases hx
  | move hc hm ih =>
      have hstep := hc.step hm
      rcases hstep.call_of_returned hx with hx | hcall
      · obtain ⟨k, hk, hstate⟩ := ih hx
        exact ⟨k, hstep.mem_calls hk (by simp [hstate]), hstate⟩
      · exact hcall

/-- What was fetched is covered, so the queues hold nothing below the lowest mark. -/
theorem Reachable.lowest?_le_held (h : Reachable number settings registry c)
    (hne : c.NoneReserved) (habove : c.AnswersAbove) {agent : String} {o : Offset} {i : Item}
    (hget : (c.cache.queue agent).get? o = some i) : ∃ low, c.lowest? = some low ∧ low ≤ o := by
  have hcovers : ∀ p, c.lowMark ≤ p → p ≠ reservedOffset → p ≤ o →
      ∃ low, c.lowest? = some low ∧ low ≤ o := by
    intro p hmark hp hpo
    refine ⟨_, lowest?_eq_some.2 ⟨rfl, fun hreserved => hp ?_⟩, Std.le_trans hmark hpo⟩
    exact Std.le_antisymm (le_reservedOffset _) (hreserved ▸ hmark)
  obtain ⟨m, hm, rfl⟩ := h.merged_of_held hget
  obtain ⟨x, hx, hmx⟩ := List.mem_flatMap.1 hm
  cases x with
  | released => cases hmx
  | handled r =>
      obtain rfl := Delivery.mem_batch.1 hmx
      have hmem : m ∈ c.messages := List.mem_flatMap.2 ⟨_, mem_handled.2 hx, hmx⟩
      exact hcovers _ (h.lowMark_le_handled (mem_handled.2 hx)) (hne m hmem) (Std.le_refl _)
  | returned q reply result =>
      cases reply with
      | none => cases hmx
      | some reply =>
          cases reply with
          | error => cases hmx
          | ok batch =>
              obtain ⟨k, hk, hstate⟩ := h.call_of_returned hx
              have hsuccess : k.isSuccess := isSuccess_iff.2 ⟨batch, hstate⟩
              have hlt := h.descending.nonempty k hk
              have hreserved : k.fetch.first ≠ reservedOffset := fun heq =>
                Std.not_lt.2 (le_reservedOffset k.fetch.upTo) (heq ▸ hlt)
              exact hcovers _ (h.descending.covered k hk hsuccess) hreserved
                (habove k hk batch hstate m hmx)

/-- Whatever the tail brings and the journal replies, the marks of a cache fit together and move one
way. -/
theorem marked (h : Reachable number settings registry c) : c.Marked where
  ordered := h.fits.ordered
  unmet := h.fits.unmet
  told := h.fits_told
  lowest := fun _ hms _ => h.sound.lowest?_run hms
  highest := fun hne _ => h.highest?_eq_some hne
  highest_none := h.highest?_eq_none
  grows := fun _ hms hne _ => h.highest?_run hms hne
  held := fun hne habove _ _ _ => h.lowest?_le_held hne habove

/-- The tail comes out of order and meets the reserved offset; queries fetch below a marker. -/
def unruly : List Move :=
  [.deliver (.message (Sample.message .zero 30 "a" .add)), .handle,
    .deliver (.message (Sample.message .zero reservedOffset "a" .add)), .handle,
    .deliver (.message (Sample.message .zero 12 "b" .test)), .handle,
    .deliver (Sample.marker .zero 10), .handle, .ask ⟨1, "a", 5⟩,
    .answer 1 (.ok (Sample.messages .zero "a" [8, 6]))]

theorem marked_unruly :
    ((start 0 .standard .empty).run unruly).Marked ∧
      ((start 0 .standard .empty).run unruly).lowest? = some 5 ∧
      ((start 0 .standard .empty).run unruly).highest? = some 12 :=
  ⟨marked (Reachable.start.run (by decide)), by decide, by decide⟩

end Course

end JournalCache

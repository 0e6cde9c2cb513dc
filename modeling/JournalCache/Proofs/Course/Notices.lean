import JournalCache.Proofs.Course.SingleFlight
import JournalCache.Proofs.Holdings.Notices
import JournalCache.Proofs.Journal.Log
import Mathlib.Data.List.Perm.Basic

/-!
# Every message is told of once

Two kinds of ends merge messages: a record of the tail that is handled, and an answer with messages.
The listener is told of the groups of each such batch, in the order in which they were merged, and
of nothing else (`Step.merges`). It is told when the messages of the group are readable and the
marks have not moved yet. If the tail comes in increasing order and the journal answers with what
its log has in the range, no two merged messages share an offset (`Gathered`), so what was told of
is what the queues hold.
-/

namespace JournalCache

def Deed.batch : Deed → List Message
  | .returned _ (some (.ok batch)) _ => batch
  | .handled r => r.batch
  | _ => []

/-- The messages with which the journal answered a query that has returned. -/
def Deed.answer? : Deed → Option (List Message)
  | .returned _ (some (.ok batch)) _ => some batch
  | _ => none

def Call.answer? (k : Call) : Option (List Message) :=
  match k.state with
  | .answered (.ok batch) => some batch
  | _ => none

def Message.entry (m : Message) : String × Offset × Item := (m.agent, m.offset, .ofMessage m)

namespace Course

def merged (c : Course) : List Message := c.deeds.flatMap Deed.batch

def told (c : Course) : List Message := c.outlet.notices.flatMap (·.messages)

/-- Every answer of the journal is what a log has in the range that was asked for. -/
def AnswersFromLog (c : Course) : Prop :=
  ∀ k ∈ c.calls, ∀ batch, k.state = .answered (.ok batch) →
    ∃ j : Journal, j.Keyed ∧ batch = j.range k.fetch.first k.fetch.upTo

/-- The listener is told of what is merged, once, and finds it readable before it counts as
covered. -/
structure Notified (c : Course) : Prop where
  log : c.outlet.notices.map Notice.group =
    c.deeds.flatMap fun x => Message.groups (Message.shown x.batch)
  answers : c.deeds.filterMap Deed.answer? = c.calls.filterMap Call.answer?
  once : c.told.Perm (Message.shown c.merged)
  each : ∀ n ∈ c.outlet.notices, n.messages ≠ [] ∧
    (∀ m ∈ n.messages, m.agent = n.agent ∧ m.isTest = false) ∧
    ∃ x ∈ c.deeds, n.messages = Message.ofAgent n.agent (Message.shown x.batch)
  inside : ∀ m, c.Allows m → ∃ told, (c.move m).outlet.notices = c.outlet.notices ++ told ∧
    ∀ n ∈ told, n.holdings.coverage = c.cache.holdings.coverage ∧
      ∀ o ∈ n.messages.map (·.offset), ∃ last, Message.lastAt? o n.messages = some last ∧
        (n.holdings.table.queue n.agent).get? o = some (Item.ofMessage last)
  held : c.TailIncreases → c.AnswersFromLog →
    (c.told.map Message.entry).Perm c.cache.holdings.table.contents

variable {c d : Course} {m : Move} {batch : List Message}

/-! ## What a step merges -/

/-- From `c` to `d` a batch was merged, and the listener was told of its groups. -/
structure Merges (c d : Course) (batch : List Message) : Prop where
  notices : d.outlet.notices = c.outlet.notices ++
    Holdings.noticesOf (c.cache.holdings, c.outlet) (Message.groups (Message.shown batch))
  queues : ∀ agent, d.cache.holdings.table.queue? agent =
    (c.cache.holdings.merge c.outlet batch).1.table.queue? agent

theorem Merges.nothing (hnotices : d.outlet.notices = c.outlet.notices)
    (hqueues : ∀ agent,
      d.cache.holdings.table.queue? agent = c.cache.holdings.table.queue? agent) :
    c.Merges d [] where
  notices := hnotices.trans (List.append_nil _).symm
  queues := hqueues

theorem merges_succeed (c : Course) (q : Query) (rest : List Query) (upTo : Offset)
    (past : List Call) (batch : List Message) :
    c.Merges (c.succeed q rest upTo past batch) batch where
  notices := Holdings.notices_merge _ _ _
  queues := fun _ => rfl

theorem merges_takeIn (c : Course) (r : Delivery) (rs : List Delivery) :
    c.Merges (c.takeIn r rs) r.batch := by
  obtain ⟨htable, houtlet⟩ := c.cache.holdings.table_ingest c.outlet r
  refine ⟨?_, fun agent => congrArg (·.queue? agent) htable⟩
  change (c.cache.holdings.ingest c.outlet r).2.notices = _
  rw [houtlet]
  exact Holdings.notices_merge _ _ _

/-- A step ends nothing, or one thing, and merges the messages of that. -/
theorem Step.merges (h : c.Step m d) :
    d.deeds = c.deeds ∧ c.Merges d [] ∨ ∃ x, d.deeds = c.deeds ++ [x] ∧ c.Merges d x.batch := by
  cases h with
  | succeeds => exact .inr ⟨_, rfl, merges_succeed ..⟩
  | handles => exact .inr ⟨_, rfl, merges_takeIn ..⟩
  | returnsAtOnce => exact .inr ⟨_, rfl, .nothing rfl fun _ => rfl⟩
  | skips => exact .inr ⟨_, rfl, .nothing rfl fun _ => rfl⟩
  | expires => exact .inr ⟨_, rfl, .nothing rfl fun _ => rfl⟩
  | fails => exact .inr ⟨_, rfl, .nothing rfl fun _ => rfl⟩
  | releases => exact .inr ⟨_, rfl, .nothing rfl (Cache.queue?_releaseQueues _ _)⟩
  | _ => exact .inl ⟨rfl, .nothing rfl fun _ => rfl⟩

theorem merged_concat {x : Deed} (h : d.deeds = c.deeds ++ [x]) :
    d.merged = c.merged ++ x.batch := by
  rw [merged, merged, h, List.flatMap_append, List.flatMap_singleton]

/-- The deeds of a step that is none of the two merge nothing. -/
theorem Step.merged_eq (h : c.Step m d) (hhandle : m ≠ .handle)
    (hanswer : ∀ ticket batch, m ≠ .answer ticket (.ok batch)) : d.merged = c.merged := by
  cases h with
  | handles => exact absurd rfl hhandle
  | succeeds => exact absurd rfl (hanswer _ _)
  | returnsAtOnce => exact (merged_concat rfl).trans (List.append_nil _)
  | skips => exact (merged_concat rfl).trans (List.append_nil _)
  | expires => exact (merged_concat rfl).trans (List.append_nil _)
  | fails => exact (merged_concat rfl).trans (List.append_nil _)
  | releases => exact (merged_concat rfl).trans (List.append_nil _)
  | _ => rfl

theorem Merges.inside (h : c.Merges d batch) :
    ∃ told, d.outlet.notices = c.outlet.notices ++ told ∧
      ∀ n ∈ told, n.holdings.coverage = c.cache.holdings.coverage ∧
        ∀ o ∈ n.messages.map (·.offset), ∃ last, Message.lastAt? o n.messages = some last ∧
          (n.holdings.table.queue n.agent).get? o = some (Item.ofMessage last) := by
  refine ⟨_, h.notices, fun n hn => ?_⟩
  obtain ⟨-, -, hcoverage, hqueue⟩ := Holdings.of_mem_noticesOf hn
  refine ⟨hcoverage, fun o ho => ?_⟩
  obtain ⟨m, hm, rfl⟩ := List.mem_map.1 ho
  obtain ⟨last, hlast⟩ := Option.isSome_iff_exists.1 (Message.lastAt?_isSome hm)
  exact ⟨last, hlast, hqueue _ _ hlast⟩

/-! ## Every run -/

variable {number : Nat} {settings : Settings} {registry : Registry}

theorem Reachable.notices_eq (h : Reachable number settings registry c) :
    c.outlet.notices.map Notice.group =
      c.deeds.flatMap fun x => Message.groups (Message.shown x.batch) := by
  induction h with
  | start => rfl
  | move hc hm ih =>
      rcases (hc.step hm).merges with ⟨hdeeds, hmerges⟩ | ⟨x, hdeeds, hmerges⟩
      · rw [hdeeds, hmerges.notices, List.map_append, ih]
        exact List.append_nil _
      · rw [hdeeds, hmerges.notices, List.map_append, Holdings.map_group_noticesOf, ih,
          List.flatMap_append, List.flatMap_singleton]

theorem filterMap_answer?_of_ended {past : List Call} {f : Fetch}
    (hcalls : c.calls = past ++ [⟨f, .outstanding⟩]) (state : CallState) :
    (past ++ [(⟨f, state⟩ : Call)]).filterMap Call.answer? =
      c.calls.filterMap Call.answer? ++ [(⟨f, state⟩ : Call)].filterMap Call.answer? := by
  rw [hcalls, List.filterMap_append, List.filterMap_append]
  simp [Call.answer?]

theorem Reachable.answers_eq (h : Reachable number settings registry c) :
    c.deeds.filterMap Deed.answer? = c.calls.filterMap Call.answer? := by
  induction h with
  | start => rfl
  | @move c hc m hm ih =>
      have hstep := hc.step hm
      generalize c.move m = d at hstep
      have hdeeds : ∀ x : Deed, (c.deeds ++ [x]).filterMap Deed.answer? =
          c.calls.filterMap Call.answer? ++ [x].filterMap Deed.answer? := by
        intro x
        rw [List.filterMap_append, ih]
      cases hstep with
      | fetches => exact ih.trans ((List.filterMap_append).trans (List.append_nil _)).symm
      | leavesFetch _ _ hcalls =>
          exact ih.trans ((filterMap_answer?_of_ended hcalls _).trans (List.append_nil _)).symm
      | @succeeds _ _ _ _ batch _ _ hcalls =>
          exact (hdeeds _).trans (filterMap_answer?_of_ended hcalls (.answered (.ok batch))).symm
      | @fails _ _ _ _ e _ _ hcalls =>
          exact (hdeeds _).trans (filterMap_answer?_of_ended hcalls (.answered (.error e))).symm
      | returnsAtOnce => exact (hdeeds _).trans (List.append_nil _)
      | skips => exact (hdeeds _).trans (List.append_nil _)
      | expires => exact (hdeeds _).trans (List.append_nil _)
      | handles => exact (hdeeds _).trans (List.append_nil _)
      | releases => exact (hdeeds _).trans (List.append_nil _)
      | _ => exact ih

theorem flatMap_snd_groups (c : Course) :
    c.told = (c.outlet.notices.map Notice.group).flatMap (·.2) := by
  rw [told, List.flatMap_map]
  rfl

/-- Every merged message but the test messages is told of once. -/
theorem Reachable.once (h : Reachable number settings registry c) :
    c.told.Perm (Message.shown c.merged) := by
  rw [flatMap_snd_groups, h.notices_eq, List.flatMap_assoc, merged, Message.shown,
    List.filter_flatMap]
  exact List.Perm.flatMap_left _ fun x _ => Message.perm_groups _

theorem Reachable.each (h : Reachable number settings registry c) {n : Notice}
    (hn : n ∈ c.outlet.notices) :
    n.messages ≠ [] ∧ (∀ m ∈ n.messages, m.agent = n.agent ∧ m.isTest = false) ∧
      ∃ x ∈ c.deeds, n.messages = Message.ofAgent n.agent (Message.shown x.batch) := by
  have hgroup : n.group ∈ c.deeds.flatMap fun x => Message.groups (Message.shown x.batch) := by
    rw [← h.notices_eq]
    exact List.mem_map_of_mem hn
  obtain ⟨x, hx, hgroup⟩ := List.mem_flatMap.1 hgroup
  obtain ⟨hagent, hmessages⟩ := Message.mem_groups.1 hgroup
  change n.agent ∈ _ at hagent
  change n.messages = _ at hmessages
  rw [hmessages]
  refine ⟨Message.ofAgent_ne_nil hagent, fun m hm => ?_, x, hx, rfl⟩
  obtain ⟨hm, hname⟩ := Message.mem_ofAgent.1 hm
  exact ⟨hname, (Message.mem_shown.1 hm).2⟩

/-! ## What the queues hold -/

/-- No two merged messages share an offset: they stand between the lowest mark and a record of the
tail, and the queues hold what is made of them. -/
structure Gathered (c : Course) : Prop where
  nodup : (c.merged.map (·.offset)).Nodup
  above : ∀ m ∈ c.merged, c.lowMark ≤ m.offset
  below : ∀ m ∈ c.merged, ∃ r ∈ c.handled, m.offset ≤ r.offset
  items : ∀ agent o i, (c.cache.queue agent).get? o = some i ↔
    ∃ m ∈ Message.shown c.merged, m.agent = agent ∧ m.offset = o ∧ Item.ofMessage m = i

theorem Gathered.stays (hc : c.Gathered) (hmerged : d.merged = c.merged)
    (hhandled : d.handled = c.handled) (hmark : d.lowMark = c.lowMark)
    (hqueues : ∀ agent,
      d.cache.holdings.table.queue? agent = c.cache.holdings.table.queue? agent) :
    d.Gathered where
  nodup := hmerged ▸ hc.nodup
  above := by
    rw [hmerged, hmark]
    exact hc.above
  below := by
    rw [hmerged, hhandled]
    exact hc.below
  items := by
    intro agent o i
    rw [hmerged, Cache.queue, AgentTable.queue_eq, hqueues]
    exact hc.items agent o i

/-- Messages that stand below the mark, or above all records of the tail, were not merged before. -/
theorem Gathered.add (hc : c.Gathered) (h : c.Merges d batch)
    (hmerged : d.merged = c.merged ++ batch) (hnodup : (batch.map (·.offset)).Nodup)
    (hfresh : ∀ m ∈ batch, ∀ n ∈ c.merged, n.offset ≠ m.offset)
    (habove : ∀ m ∈ d.merged, d.lowMark ≤ m.offset)
    (hbelow : ∀ m ∈ d.merged, ∃ r ∈ d.handled, m.offset ≤ r.offset) : d.Gathered where
  nodup := by
    rw [hmerged, List.map_append, List.nodup_append]
    refine ⟨hc.nodup, hnodup, fun o ho p hp hop => ?_⟩
    obtain ⟨n, hn, rfl⟩ := List.mem_map.1 ho
    obtain ⟨m, hm, rfl⟩ := List.mem_map.1 hp
    exact hfresh m hm n hn hop
  above := habove
  below := hbelow
  items := by
    intro agent o i
    have hnone : ∀ m ∈ batch, (c.cache.queue m.agent).get? m.offset = none := by
      intro m hm
      cases hget : (c.cache.queue m.agent).get? m.offset with
      | none => rfl
      | some i =>
          obtain ⟨n, hn, -, hoffset, -⟩ := (hc.items _ _ _).1 hget
          exact absurd hoffset (hfresh m hm n (Message.mem_shown.1 hn).1)
    have hqueue : d.cache.queue agent =
        (c.cache.holdings.merge c.outlet batch).1.table.queue agent := by
      rw [AgentTable.queue_eq, ← h.queues]
      rfl
    have hshown : Message.shown d.merged = Message.shown c.merged ++ Message.shown batch := by
      rw [hmerged, Message.shown, List.filter_append]
      rfl
    rw [hqueue, Holdings.get?_merge _ _ hnodup hnone, hshown]
    simp only [List.mem_append, or_and_right, exists_or]
    exact or_congr (hc.items agent o i) Iff.rfl

theorem Step.answersFromLog (h : c.Step m d) (hd : d.AnswersFromLog) : c.AnswersFromLog :=
  fun k hk batch hstate => hd k (h.mem_calls hk (by simp [hstate])) batch hstate

theorem Gathered.takeIn (hc : c.Gathered) {r : Delivery} {rs : List Delivery}
    (hinc : (c.takeIn r rs).TailIncreases) : (c.takeIn r rs).Gathered := by
  have hmerged : (c.takeIn r rs).merged = c.merged ++ r.batch :=
    merged_concat (x := .handled r) rfl
  rw [TailIncreases, handled_takeIn, List.map_append, List.pairwise_append] at hinc
  have hlt : ∀ n ∈ c.merged, n.offset < r.offset := by
    intro n hn
    obtain ⟨s, hs, hle⟩ := hc.below n hn
    exact Std.lt_of_le_of_lt hle (hinc.2.2 _ (List.mem_map_of_mem hs) _ (by simp))
  have hoffset : ∀ m ∈ r.batch, m.offset = r.offset := by
    intro m hm
    rw [Delivery.mem_batch.1 hm]
    rfl
  refine hc.add (merges_takeIn c r rs) hmerged ?_ ?_ ?_ ?_
  · cases r with
    | marker => exact .nil
    | message => exact List.nodup_singleton _
  · intro m hm n hn heq
    have hnlt := hlt n hn
    rw [heq, hoffset m hm] at hnlt
    exact Std.lt_irrefl hnlt
  · intro m hm
    rw [lowMark_takeIn, Std.min_le]
    rcases List.mem_append.1 (hmerged ▸ hm) with hm | hm
    · exact .inl (hc.above m hm)
    · exact .inr (hoffset m hm ▸ Std.le_refl _)
  · intro m hm
    rw [handled_takeIn]
    rcases List.mem_append.1 (hmerged ▸ hm) with hm | hm
    · obtain ⟨s, hs, hle⟩ := hc.below m hm
      exact ⟨s, List.mem_append_left _ hs, hle⟩
    · exact ⟨r, by simp, hoffset m hm ▸ Std.le_refl _⟩

/-- What a log has below the lowest mark lies below all that was merged. -/
theorem Gathered.succeed (hc : c.Gathered) (hnil : c.handled ≠ [])
    (hhandled : ∀ r ∈ c.handled, c.lowMark ≤ r.offset) {j : Journal} (hj : j.Keyed) {q : Query}
    (hlt : q.requested < c.lowMark) (rest : List Query) (past : List Call) :
    (c.succeed q rest c.lowMark past (j.range q.requested c.lowMark)).Gathered := by
  let batch := j.range q.requested c.lowMark
  have hbatch : ∀ m ∈ batch, q.requested ≤ m.offset ∧ m.offset < c.lowMark :=
    fun m hm => (hj.mem_range.1 hm).2
  have hmerged : (c.succeed q rest c.lowMark past batch).merged = c.merged ++ batch :=
    merged_concat (x := .returned q (some (.ok batch)) _) rfl
  have hmark : (c.succeed q rest c.lowMark past batch).lowMark = q.requested :=
    lowMark_succeed hlt fun m hm => (hbatch m hm).1
  have hheld : (c.succeed q rest c.lowMark past batch).handled = c.handled := by
    simp [Course.handled, Course.succeed]
  refine hc.add (merges_succeed ..) hmerged (hj.nodup_range _ _) ?_ ?_ ?_
  · intro m hm n hn heq
    have hle := hc.above n hn
    rw [heq] at hle
    exact Std.not_lt.2 hle (hbatch m hm).2
  · intro m hm
    rw [hmark]
    rcases List.mem_append.1 (hmerged ▸ hm) with hm | hm
    · exact Std.le_trans (Std.le_of_lt hlt) (hc.above m hm)
    · exact (hbatch m hm).1
  · intro m hm
    rw [hheld]
    rcases List.mem_append.1 (hmerged ▸ hm) with hm | hm
    · exact hc.below m hm
    · obtain ⟨r, hr⟩ := List.exists_mem_of_ne_nil _ hnil
      exact ⟨r, hr, Std.le_trans (Std.le_of_lt (hbatch m hm).2) (hhandled r hr)⟩

theorem gathered_start (number : Nat) (settings : Settings) (registry : Registry) :
    (start number settings registry).Gathered := by
  have hnone : ∀ m, m ∉ (start number settings registry).merged := fun _ => List.not_mem_nil
  refine ⟨.nil, fun m hm => absurd hm (hnone m), fun m hm => absurd hm (hnone m), ?_⟩
  intro agent o i
  constructor
  · intro hget
    cases hget
  · rintro ⟨m, hm, -⟩
    exact absurd (Message.mem_shown.1 hm).1 (hnone m)

theorem Reachable.gathered (h : Reachable number settings registry c) (hinc : c.TailIncreases)
    (hlog : c.AnswersFromLog) : c.Gathered := by
  induction h with
  | start => exact gathered_start ..
  | @move c hc m hm ih =>
      have hstep := hc.step hm
      have hcalls := hc.upTo_eq_lowMark (hstep.tailIncreases hinc)
      replace ih := ih (hstep.tailIncreases hinc) (hstep.answersFromLog hlog)
      generalize c.move m = d at hstep hinc hlog
      have hstays : m ≠ .handle → (∀ ticket batch, m ≠ .answer ticket (.ok batch)) →
          d.Gathered := by
        intro hhandle hanswer
        obtain ⟨hhandled, hmark, hqueues, -⟩ := hstep.quiet hhandle hanswer
        exact ih.stays (hstep.merged_eq hhandle hanswer) hhandled hmark hqueues
      cases hstep with
      | stays => exact ih
      | handles => exact ih.takeIn hinc
      | @succeeds q rest upTo past batch hholder hpending hpast =>
          have hmem : (⟨⟨q.ticket, q.requested, upTo⟩, .outstanding⟩ : Call) ∈ c.calls := by
            simp [hpast]
          have hlt := hc.descending.nonempty _ hmem
          obtain rfl : upTo = c.lowMark := hcalls _ hmem rfl
          obtain ⟨j, hj, rfl⟩ : ∃ j : Journal, j.Keyed ∧ batch = j.range q.requested c.lowMark :=
            hlog ⟨⟨q.ticket, q.requested, c.lowMark⟩, .answered (.ok batch)⟩
              (List.mem_append_right _ (List.mem_singleton_self _)) batch rfl
          have hnil : c.handled ≠ [] := by
            intro hnil
            rw [(hc.of_handled_nil hnil).2.1] at hmem
            cases hmem
          exact ih.succeed hnil (fun r hr => hc.lowMark_le_handled hr) hj hlt rest past
      | fetches hm => rcases hm with rfl | rfl <;> exact hstays (by simp) (by simp)
      | _ => exact hstays (by simp) (by simp)

/-- What was told of is what the queues hold. -/
theorem Gathered.perm_contents (hc : c.Gathered) (htold : c.told.Perm (Message.shown c.merged)) :
    (c.told.map Message.entry).Perm c.cache.holdings.table.contents := by
  refine (htold.map _).trans ((List.perm_ext_iff_of_nodup ?_ (AgentTable.nodup_contents _)).2 ?_)
  · refine List.Nodup.of_map (·.2.1) ?_
    rw [List.map_map]
    exact Message.nodup_shown hc.nodup
  · rintro ⟨agent, o, i⟩
    rw [AgentTable.mem_contents]
    refine Iff.trans ?_ (hc.items agent o i).symm
    simp [Message.entry, List.mem_map]

/-- Whatever the queries, the tail and the journal do, the listener is told of every merged message
once, in the order in which they are merged, and finds it readable before it counts as covered. -/
theorem notified (h : Reachable number settings registry c) : c.Notified where
  log := h.notices_eq
  answers := h.answers_eq
  once := h.once
  each := fun _ => h.each
  inside := by
    intro m hm
    rcases (h.step hm).merges with ⟨-, hmerges⟩ | ⟨x, -, hmerges⟩
    · exact hmerges.inside
    · exact hmerges.inside
  held := fun hinc hlog => (h.gathered hinc hlog).perm_contents h.once

/-- Two queries fetch what the log has for them, and a test message and another one of the tail come
in between. -/
def busy : List Move :=
  [.deliver (.message (Sample.message .zero 10 "a" .add)), .handle, .ask ⟨1, "a", 5⟩,
    .ask ⟨2, "b", 2⟩, .deliver (.message (Sample.message .zero 11 "b" .test)), .handle,
    .answer 1 (.ok [Sample.message .zero 6 "b" .add, Sample.message .zero 8 "a" .delete]),
    .resume 2, .deliver (.message (Sample.message .zero 12 "b" .add)), .handle,
    .answer 2 (.ok [Sample.message .zero 3 "a" .add])]

theorem notified_busy :
    ((start 0 .standard .empty).run busy).Notified ∧
      ((start 0 .standard .empty).run busy).told.map (·.offset) = [10, 6, 8, 12, 3] :=
  ⟨notified (Reachable.start.run (by decide)), by decide⟩

end Course

end JournalCache

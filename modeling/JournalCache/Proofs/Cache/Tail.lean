import JournalCache.Cache.Basic
import JournalCache.Journal.Sample
import JournalCache.Proofs.Coverage.Updates
import JournalCache.Proofs.Holdings.Batches
import JournalCache.Proofs.Holdings.Marks

/-!
# What tail ingestion leaves of a list of records

Tail ingestion merges each message as a batch of its own and moves the marks record by record. The
records may come in any order, with markers and tests among them, and some more than once. The
queues, and the order in which they are made, are those that one batch with all the messages would
leave (`table_ingestAll`, `made_ingestAll`). The marks are not: they are the extremes of all offsets
(`coverage_ingestAll`), where one batch would only lower the lowest mark to its first message. It
does not matter when the records were delivered and in how many turns they were handled
(`work_eq`).
-/

namespace JournalCache

namespace Delivery

def messages (rs : List Delivery) : List Message := rs.flatMap batch

/-- The changes that a record of the tail makes to the marks. -/
def updates : Delivery → List Coverage.Update
  | .marker p => [.lower p.offset]
  | .message m => [.lower m.offset, .raise m.offset]

theorem messages_concat (rs : List Delivery) (r : Delivery) :
    messages (rs ++ [r]) = messages rs ++ r.batch := by
  rw [messages, List.flatMap_append, List.flatMap_singleton, messages]

theorem messages_eq_nil {rs : List Delivery} :
    messages rs = [] ↔ ∀ r ∈ rs, ∃ p, r = .marker p := by
  rw [messages, List.flatMap_eq_nil_iff]
  refine forall₂_congr fun r _ => ?_
  cases r <;> simp [batch]

theorem filterMap_lowered?_updates (rs : List Delivery) :
    (rs.flatMap updates).filterMap Coverage.Update.lowered? = rs.map offset := by
  induction rs with
  | nil => rfl
  | cons r rs ih =>
      rw [List.flatMap_cons, List.filterMap_append, ih]
      cases r <;> rfl

theorem filterMap_raised?_updates (rs : List Delivery) :
    (rs.flatMap updates).filterMap Coverage.Update.raised? = (messages rs).map (·.offset) := by
  induction rs with
  | nil => rfl
  | cons r rs ih =>
      rw [List.flatMap_cons, List.filterMap_append, ih]
      cases r <;> rfl

def NoneReserved (rs : List Delivery) : Prop := ∀ r ∈ rs, r.offset ≠ reservedOffset

instance (rs : List Delivery) : Decidable (NoneReserved rs) :=
  inferInstanceAs (Decidable (∀ r ∈ rs, _))

theorem NoneReserved.lowCandidates_eq {rs : List Delivery} (h : NoneReserved rs) :
    Coverage.Update.lowCandidates (rs.flatMap updates) = rs.map offset := by
  rw [Coverage.Update.lowCandidates, filterMap_lowered?_updates, List.filter_eq_self]
  intro o ho
  obtain ⟨r, hr, rfl⟩ := List.mem_map.1 ho
  exact decide_eq_true (h r hr)

theorem NoneReserved.highCandidates_eq {rs : List Delivery} (h : NoneReserved rs) :
    Coverage.Update.highCandidates (rs.flatMap updates) = (messages rs).map (·.offset) := by
  rw [Coverage.Update.highCandidates_eq, filterMap_raised?_updates]
  intro hraise
  obtain ⟨r, hr, hupdate⟩ := List.mem_flatMap.1 hraise
  cases r with
  | marker p => simp [updates] at hupdate
  | message m =>
      have hoffset : m.offset = reservedOffset := by simpa [updates, eq_comm] using hupdate
      exact h _ hr hoffset

/-- A record brings one group of one message at most. -/
theorem groups_batch (r : Delivery) : Message.groups (Message.shown r.batch) =
    (Message.shown r.batch).map fun m => (m.agent, [m]) := by
  cases r with
  | marker p => rfl
  | message m =>
      rw [batch, Message.shown, List.filter_cons]
      cases m.isTest with
      | true => rfl
      | false => simp [Message.groups, Message.agents, Message.ofAgent, List.eraseDups_cons]

end Delivery

namespace Holdings

variable {h h' : Holdings} {o o' : Outlet}

/-- What a merge makes of the table and the registry depends on nothing else. -/
theorem table_merge_congr (htable : h.table = h'.table) (hregistry : o.registry = o'.registry)
    (batch : List Message) :
    (h.merge o batch).1.table = (h'.merge o' batch).1.table ∧
      (h.merge o batch).2.registry = (h'.merge o' batch).2.registry := by
  have henlists := enlists_merge h o batch
  rw [htable, hregistry] at henlists
  refine henlists.eq (enlists_merge h' o' batch) (SortedMap.ext_get? fun agent => ?_)
  change AgentTable.queue? _ agent = AgentTable.queue? _ agent
  rw [queue?_merge, queue?_merge, AgentTable.queue_eq, AgentTable.queue_eq, htable]

theorem newcomers_empty (number : Nat) (registers : Bool) (names : List String) :
    (empty number registers).table.newcomers names = names :=
  List.filter_eq_self.2 fun _ _ => rfl

end Holdings

namespace Cache

def ingestAll (s : Cache × Outlet) (rs : List Delivery) : Cache × Outlet :=
  rs.foldl (fun s r => s.1.ingest s.2 r) s

/-- The agents whose queue is made while records are handled, in the order in which they are
made. -/
def madeFrom (s : Cache × Outlet) : List Delivery → List String
  | [] => []
  | r :: rs =>
    Holdings.madeBy (s.1.holdings, s.2) (Message.groups (Message.shown r.batch)) ++
      madeFrom (s.1.ingest s.2 r) rs

/-- What comes of merging the messages of records as one batch. -/
def mergeWhole (s : Cache × Outlet) (rs : List Delivery) : Holdings × Outlet :=
  s.1.holdings.merge s.2 (Delivery.messages rs)

variable (s : Cache × Outlet) (rs : List Delivery)

theorem ingestAll_append (rs' : List Delivery) :
    ingestAll s (rs ++ rs') = ingestAll (ingestAll s rs) rs' := List.foldl_append

theorem ingestAll_concat (r : Delivery) :
    ingestAll s (rs ++ [r]) = (ingestAll s rs).1.ingest (ingestAll s rs).2 r :=
  ingestAll_append s rs [r]

theorem madeFrom_concat (r : Delivery) : madeFrom s (rs ++ [r]) = madeFrom s rs ++
    Holdings.madeBy ((ingestAll s rs).1.holdings, (ingestAll s rs).2)
      (Message.groups (Message.shown r.batch)) := by
  induction rs generalizing s with
  | nil => exact List.append_nil _
  | cons r' rs ih =>
      rw [List.cons_append, madeFrom, ih, madeFrom, List.append_assoc]
      rfl

theorem mergeWhole_concat (r : Delivery) : mergeWhole s (rs ++ [r]) =
    s.1.holdings.merge s.2 (Delivery.messages rs ++ r.batch) := by
  rw [mergeWhole, Delivery.messages_concat]

/-! ## The queues -/

theorem table_ingestAll :
    (ingestAll s rs).1.holdings.table = (mergeWhole s rs).1.table ∧
      (ingestAll s rs).2.registry = (mergeWhole s rs).2.registry := by
  induction rs using List.reverseRecOn with
  | nil => exact ⟨rfl, rfl⟩
  | append_singleton rs r ih =>
      obtain ⟨htable, houtlet⟩ := (ingestAll s rs).1.holdings.table_ingest (ingestAll s rs).2 r
      -- by now the marks and the notices differ from those after one batch, but no merge reads them
      obtain ⟨hmerge, hregistry⟩ := Holdings.table_merge_congr ih.1 ih.2 r.batch
      obtain ⟨hwhole, hwhole'⟩ :=
        Holdings.table_append s.1.holdings s.2 (Delivery.messages rs) r.batch
      rw [ingestAll_concat, mergeWhole_concat, hwhole, hwhole']
      exact ⟨htable.trans hmerge, (congrArg Outlet.registry houtlet).trans hregistry⟩

theorem made_ingestAll : madeFrom s rs = Holdings.madeBy (s.1.holdings, s.2)
    (Message.groups (Message.shown (Delivery.messages rs))) := by
  induction rs using List.reverseRecOn with
  | nil => rfl
  | append_singleton rs r ih =>
      rw [madeFrom_concat, ih, Delivery.messages_concat, Holdings.made_append]
      refine congrArg _ ?_
      rw [Holdings.made_merge, (table_ingestAll s rs).1]
      exact (Holdings.made_merge _ _ _).symm

/-! ## The marks, the listener and the counters -/

theorem coverage_ingestAll : (ingestAll s rs).1.holdings.coverage =
    s.1.holdings.coverage.run (rs.flatMap Delivery.updates) := by
  induction rs using List.reverseRecOn with
  | nil => rfl
  | append_singleton rs r ih =>
      rw [ingestAll_concat, List.flatMap_append, List.flatMap_singleton, Coverage.run_append, ← ih]
      refine (Holdings.coverage_ingest _ _ r).trans ?_
      cases r <;> rfl

/-- The listener is told of each message by itself, unless it is a test. -/
theorem notices_ingestAll : ∃ ns, (ingestAll s rs).2.notices = s.2.notices ++ ns ∧
    ns.map Notice.group =
      (Message.shown (Delivery.messages rs)).map fun m => (m.agent, [m]) := by
  induction rs using List.reverseRecOn with
  | nil => exact ⟨[], (List.append_nil _).symm, rfl⟩
  | append_singleton rs r ih =>
      obtain ⟨ns, hnotices, hgroups⟩ := ih
      have hlast := ((ingestAll s rs).1.holdings.table_ingest (ingestAll s rs).2 r).2
      have hmore := (congrArg Outlet.notices hlast).trans (Holdings.notices_merge _ _ _)
      rw [hnotices, List.append_assoc] at hmore
      rw [ingestAll_concat]
      refine ⟨_, hmore, ?_⟩
      rw [List.map_append, hgroups, Holdings.map_group_noticesOf, Delivery.groups_batch,
        Delivery.messages_concat, Message.shown_append, List.map_append]

theorem activity_ingestAll : (ingestAll s rs).1.activity =
    { s.1.activity with handled := s.1.activity.handled + rs.length } := by
  induction rs generalizing s with
  | nil => rfl
  | cons r rs ih =>
      refine (ih (s.1.ingest s.2 r)).trans ?_
      rw [List.length_cons, Nat.add_comm rs.length, ← Nat.add_assoc]
      rfl

/-! ## Deliveries and turns -/

/-- A record is delivered to a cache, or tail ingestion has its turn. -/
inductive Intake where
  | deliver (r : Delivery)
  | turn

/-- The record that is delivered, if any. -/
def Intake.delivered? : Intake → Option Delivery
  | .deliver r => some r
  | .turn => none

def takeIn (s : Cache × Outlet) : Intake → Cache × Outlet
  | .deliver r => (s.1.deliver r, s.2)
  | .turn => s.1.handleShare s.2

def work (s : Cache × Outlet) (is : List Intake) : Cache × Outlet := is.foldl takeIn s

def awaiting (s : Cache × Outlet) (inbox : List Delivery) : Cache × Outlet :=
  ({ s.1 with inbox }, s.2)

/-- Handling records does not look at the inbox. -/
theorem ingestAll_awaiting (inbox : List Delivery) :
    ingestAll (awaiting s inbox) rs = awaiting (ingestAll s rs) inbox := by
  induction rs generalizing s with
  | nil => rfl
  | cons r rs ih => exact ih (s.1.ingest s.2 r)

theorem handleNext_cons {r : Delivery} {rest : List Delivery} (h : s.1.inbox = r :: rest) :
    s.1.handleNext s.2 = awaiting (s.1.ingest s.2 r) rest := by
  rw [handleNext, h]
  rfl

theorem foldl_handleNext {α : Type} (xs : List α) :
    xs.foldl (fun s _ => s.1.handleNext s.2) s =
      ingestAll (awaiting s (s.1.inbox.drop xs.length)) (s.1.inbox.take xs.length) := by
  induction xs generalizing s with
  | nil => rfl
  | cons x xs ih =>
      rw [List.foldl_cons, ih]
      cases hinbox : s.1.inbox with
      | nil =>
          have hidle : s.1.handleNext s.2 = s := by rw [handleNext, hinbox]
          rw [hidle, hinbox, List.drop_nil, List.take_nil, List.drop_nil, List.take_nil]
      | cons r rest =>
          rw [handleNext_cons s hinbox]
          rfl

theorem handleShare_eq : s.1.handleShare s.2 =
    ingestAll (awaiting s (s.1.inbox.drop share)) (s.1.inbox.take share) := by
  refine (foldl_handleNext s _).trans ?_
  rw [List.length_take, ← List.take_eq_take_min, ← List.drop_eq_drop_min]

/-- What was delivered was handled or lies in the inbox. -/
theorem exists_work_eq (is : List Intake) : ∃ done left,
    done ++ left = s.1.inbox ++ is.filterMap Intake.delivered? ∧
      work s is = awaiting (ingestAll s done) left := by
  induction is using List.reverseRecOn with
  | nil => exact ⟨[], s.1.inbox, (List.append_nil _).symm, rfl⟩
  | append_singleton is i ih =>
      obtain ⟨done, left, hall, hwork⟩ := ih
      have hstep : work s (is ++ [i]) = takeIn (work s is) i := List.foldl_append
      rw [hstep, hwork, List.filterMap_append, ← List.append_assoc, ← hall]
      cases i with
      | deliver r => exact ⟨done, left ++ [r], (List.append_assoc ..).symm, rfl⟩
      | turn =>
          refine ⟨done ++ left.take share, left.drop share, ?_, ?_⟩
          · rw [List.append_assoc, List.take_append_drop]
            exact (List.append_nil _).symm
          · rw [takeIn, handleShare_eq, ingestAll_awaiting, ingestAll_awaiting, ingestAll_append]
            rfl

theorem work_eq {is : List Intake} (hstart : s.1.inbox = []) (hend : (work s is).1.inbox = []) :
    work s is = ingestAll s (is.filterMap Intake.delivered?) := by
  obtain ⟨done, left, hall, hwork⟩ := exists_work_eq s is
  rw [hwork] at hend
  change left = [] at hend
  rw [hend, List.append_nil, hstart, List.nil_append] at hall
  rw [hwork, hend, ← hall, ← ingestAll_awaiting, ← hstart]
  rfl

/-! ## The closed form -/

/-- What a cache that has met nothing is after the records `rs`, and what it has reported. -/
structure Ingested (number : Nat) (settings : Settings) (o : Outlet) (rs : List Delivery)
    (after : Cache × Outlet) : Prop where
  /-- The queues, and their registrations, are those that one batch with all messages leaves. -/
  table : after.1.holdings.table =
    (mergeWhole (start number settings, o) rs).1.table
  queues : ∀ agent, after.1.holdings.table.queue? agent =
    (mergeWhole (start number settings, o) rs).1.table.queue? agent
  /-- The queues are registered in the same order. -/
  registry : after.2.registry = (mergeWhole (start number settings, o) rs).2.registry
  /-- The queues are made in the same order: in that of the agents' first messages that are no
  tests. -/
  made : madeFrom (start number settings, o) rs =
    Holdings.madeBy ((start number settings).holdings, o)
      (Message.groups (Message.shown (Delivery.messages rs)))
  made_eq : madeFrom (start number settings, o) rs =
    Message.agents (Message.shown (Delivery.messages rs))
  /-- At each offset of a queue stands the item of the last message for it. -/
  items : ∀ agent p, (after.1.queue agent).get? p =
    (((Delivery.messages rs).filter fun m => m.isFor agent && m.offset == p).getLast?).map
      Item.ofMessage
  /-- The lowest mark is the least offset of all records. -/
  lowest : after.1.lowest? = (rs.map Delivery.offset).min?
  lowest_none : after.1.lowest? = none ↔ rs = []
  /-- The highest mark is the greatest offset of all messages, tests or not. -/
  highest : after.1.highest? = ((Delivery.messages rs).map (·.offset)).max?
  highest_none : after.1.highest? = none ↔ ∀ r ∈ rs, ∃ p, r = .marker p
  /-- The listener is told of each message that is no test, by itself and in the order of the
  records. -/
  notices : ∃ ns, after.2.notices = o.notices ++ ns ∧ ns.map Notice.group =
    (Message.shown (Delivery.messages rs)).map fun m => (m.agent, [m])
  /-- All records are counted, and nothing else is. -/
  activity : after.1.activity = { Activity.none with handled := rs.length }
  /-- Deliveries and turns of tail ingestion, in whatever order, come to the same. -/
  turns : ∀ is : List Intake, is.filterMap Intake.delivered? = rs →
    (work (start number settings, o) is).1.inbox = [] →
      work (start number settings, o) is = after

/-- Handling records one by one comes to one merge of all their messages, and to the extremes of
their offsets. -/
theorem ingested (number : Nat) (settings : Settings) (o : Outlet) (rs : List Delivery)
    (hrs : Delivery.NoneReserved rs) :
    Ingested number settings o rs (ingestAll (start number settings, o) rs) := by
  have htable := table_ingestAll (start number settings, o) rs
  have hcoverage := coverage_ingestAll (start number settings, o) rs
  have hmade := made_ingestAll (start number settings, o) rs
  have hlowest : (ingestAll (start number settings, o) rs).1.lowest? =
      (rs.map Delivery.offset).min? := by
    rw [lowest?, hcoverage]
    exact (Coverage.lowest?_run _).trans (congrArg List.min? hrs.lowCandidates_eq)
  have hhighest : (ingestAll (start number settings, o) rs).1.highest? =
      ((Delivery.messages rs).map (·.offset)).max? := by
    rw [highest?, hcoverage]
    exact (Coverage.highest?_run _).trans (congrArg List.max? hrs.highCandidates_eq)
  constructor
  case table => exact htable.1
  case queues => exact fun agent => congrArg (·.queue? agent) htable.1
  case registry => exact htable.2
  case made => exact hmade
  case made_eq =>
    rw [hmade, Holdings.made_merge]
    exact Holdings.newcomers_empty _ _ _
  case items =>
    intro agent p
    rw [queue, htable.1, mergeWhole, Holdings.get?_queue_merge]
    exact Option.or_none
  case lowest => exact hlowest
  case lowest_none => rw [hlowest, List.min?_eq_none_iff, List.map_eq_nil_iff]
  case highest => exact hhighest
  case highest_none =>
    rw [hhighest, List.max?_eq_none_iff, List.map_eq_nil_iff, Delivery.messages_eq_nil]
  case notices => exact notices_ingestAll _ rs
  case activity =>
    rw [activity_ingestAll]
    exact congrArg (fun n => { Activity.none with handled := n }) (Nat.zero_add _)
  case turns =>
    rintro is rfl hend
    exact work_eq _ rfl hend

/-- A marker and a test, an offset that falls and one that is met twice, in two turns. One batch
with these messages would lower the lowest mark to its first message only. -/
theorem ingested_unordered :
    let rs := [.message (Sample.message .zero 7 "b" .add), Sample.marker .zero 3,
      .message (Sample.message .zero 9 "a" .test), .message (Sample.message .zero 5 "a" .add),
      .message (Sample.message .zero 7 "b" .delete)]
    let s := (start 0 .standard, Outlet.empty)
    Delivery.NoneReserved rs ∧ Ingested 0 .standard .empty rs (ingestAll s rs) ∧
      (ingestAll s rs).1.lowest? = some 3 ∧ (ingestAll s rs).1.highest? = some 9 ∧
      (mergeWhole s rs).1.coverage.lowest? = some 7 ∧ madeFrom s rs = ["b", "a"] ∧
      work s ((rs.take 2).map .deliver ++ .turn :: (rs.drop 2).map .deliver ++ [.turn]) =
        ingestAll s rs := by
  intro rs s
  have hrs : Delivery.NoneReserved rs := by decide
  have h := ingested 0 .standard .empty rs hrs
  exact ⟨hrs, h, h.lowest, h.highest, rfl, h.made_eq, h.turns _ rfl rfl⟩

end Cache

end JournalCache

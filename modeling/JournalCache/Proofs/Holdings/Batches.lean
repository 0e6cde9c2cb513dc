import JournalCache.Journal.Sample
import JournalCache.Proofs.Holdings.Specification

/-!
# The order and the boundaries of batches

What is held after several batches does not depend on their order, as long as no two of them have a
message for the same place in a queue (`SameContents`). It does not depend on where a batch ends and
the next one begins either, and neither does the order in which queues are made and registered nor
what the listener is told of each agent (`SameInPieces`). So a range may be fetched in pieces, and
pieces may come between what the tail brings.
-/

namespace JournalCache

namespace AgentTable

variable {t t' : AgentTable}

/-- Tables with the same queues, known from the items at each offset. -/
theorem queues_eq (hmade : ∀ agent, (t.queue? agent).isSome ↔ (t'.queue? agent).isSome)
    (hitems : ∀ agent o, (t.queue agent).get? o = (t'.queue agent).get? o) :
    t.queues = t'.queues := by
  refine SortedMap.ext_get? fun agent => ?_
  have hqueue : t.queue agent = t'.queue agent := SortedMap.ext_get? (hitems agent)
  rw [queue_eq, queue_eq] at hqueue
  have hsome := hmade agent
  change t.queue? agent = t'.queue? agent
  cases ht : t.queue? agent with
  | none =>
      rw [ht] at hsome
      cases ht' : t'.queue? agent with
      | none => rfl
      | some q' =>
          rw [ht'] at hsome
          exact absurd (hsome.2 rfl) Bool.false_ne_true
  | some q =>
      rw [ht] at hsome hqueue
      obtain ⟨q', hq'⟩ := Option.isSome_iff_exists.1 (hsome.1 rfl)
      rw [hq'] at hqueue ⊢
      exact congrArg some hqueue

end AgentTable

theorem Coverage.eq_of_le_iff {c d : Coverage} (hhigh : c.highMark = d.highMark)
    (hlow : ∀ o, c.lowMark ≤ o ↔ d.lowMark ≤ o) : c = d := by
  have hmark : c.lowMark = d.lowMark :=
    Std.le_antisymm ((hlow _).2 (Std.le_refl _)) ((hlow _).1 (Std.le_refl _))
  cases c
  cases d
  cases hmark
  cases hhigh
  rfl

namespace Holdings

/-! ## The order of batches -/

/-- The same queues with the same items, and the same marks. -/
structure Alike (h h' : Holdings) : Prop where
  queues : h.table.queues = h'.table.queues
  coverage : h.coverage = h'.coverage

/-- No place in the queues gets messages from both batches. -/
def Apart (xs ys : List Message) : Prop :=
  ∀ m ∈ Message.shown xs, ∀ n ∈ Message.shown ys, m.agent = n.agent → m.offset ≠ n.offset

instance (xs ys : List Message) : Decidable (Apart xs ys) :=
  inferInstanceAs (Decidable (∀ m ∈ _, ∀ n ∈ _, _ → _))

section Order

variable {h h' : Holdings} {xs ys : List Message} (o o' : Outlet)

theorem Alike.refl (h : Holdings) : Alike h h := ⟨rfl, rfl⟩

theorem Alike.trans {h'' : Holdings} (hab : Alike h h') (hbc : Alike h' h'') : Alike h h'' :=
  ⟨hab.queues.trans hbc.queues, hab.coverage.trans hbc.coverage⟩

theorem Alike.queue? (hh : Alike h h') (agent : String) :
    h.table.queue? agent = h'.table.queue? agent := congrArg (·.get? agent) hh.queues

theorem Alike.queue (hh : Alike h h') (agent : String) :
    h.table.queue agent = h'.table.queue agent := congrArg (·.getD .empty) (hh.queue? agent)

theorem Apart.symm (hapart : Apart xs ys) : Apart ys xs := fun m hm n hn hagent hoffset =>
  hapart n hn m hm hagent.symm hoffset.symm

/-- At each place one of the two batches at most leaves an item. -/
theorem Apart.lastFor? (hapart : Apart xs ys) (agent : String) (p : Offset) :
    Message.lastFor? agent p xs = none ∨ Message.lastFor? agent p ys = none := by
  cases hx : Message.lastFor? agent p xs with
  | none => exact .inl rfl
  | some m =>
      refine .inr (Option.eq_none_iff_forall_ne_some.2 fun n hy => ?_)
      obtain ⟨hm, hmfor, hmp⟩ := Message.mem_of_lastFor? hx
      obtain ⟨hn, hnfor, hnp⟩ := Message.mem_of_lastFor? hy
      obtain ⟨hmtest, hmagent⟩ := Message.isFor_iff.1 hmfor
      obtain ⟨hntest, hnagent⟩ := Message.isFor_iff.1 hnfor
      exact hapart m (Message.mem_shown.2 ⟨hm, hmtest⟩) n (Message.mem_shown.2 ⟨hn, hntest⟩)
        (hmagent.trans hnagent.symm) (hmp.trans hnp.symm)

/-- What a batch leaves does not depend on the registry and the listener. -/
theorem Alike.merge (hh : Alike h h') (batch : List Message) :
    Alike (h.merge o batch).1 (h'.merge o' batch).1 where
  queues := by
    refine SortedMap.ext_get? fun agent => ?_
    change AgentTable.queue? _ agent = AgentTable.queue? _ agent
    rw [queue?_merge, queue?_merge, hh.queue?, hh.queue]
  coverage := by rw [coverage_merge, coverage_merge, hh.coverage]

/-- Two batches for different places may change places. -/
theorem alike_swap (hapart : Apart xs ys) (o₁ o₂ : Outlet) :
    Alike ((h.merge o xs).1.merge o₁ ys).1 ((h.merge o' ys).1.merge o₂ xs).1 where
  queues := by
    refine AgentTable.queues_eq (fun agent => ?_) fun agent p => ?_
    · simp only [isSome_queue?_merge]
      rw [or_assoc, or_assoc, or_congr_right or_comm]
    · simp only [get?_queue_merge]
      rcases hapart.lastFor? agent p with hx | hy
      · rw [hx]
        rfl
      · rw [hy]
        rfl
  coverage := by
    refine Coverage.eq_of_le_iff ?_ fun p => ?_
    · simp only [highMark_merge]
    · simp only [lowMark_merge_le_iff]
      rw [or_assoc, or_assoc, or_congr_right or_comm]

def mergeAll (s : Holdings × Outlet) (batches : List (List Message)) : Holdings × Outlet :=
  batches.foldl (fun s batch => s.1.merge s.2 batch) s

theorem Alike.mergeAll {s s' : Holdings × Outlet} (hs : Alike s.1 s'.1)
    (batches : List (List Message)) : Alike (mergeAll s batches).1 (mergeAll s' batches).1 := by
  induction batches generalizing s s' with
  | nil => exact hs
  | cons batch batches ih => exact ih (hs.merge _ _ batch)

/-- The batches may come in any order. -/
theorem alike_of_perm {bs cs : List (List Message)} (hperm : bs.Perm cs)
    (hapart : bs.Pairwise Apart) (s : Holdings × Outlet) :
    Alike (mergeAll s bs).1 (mergeAll s cs).1 := by
  induction hperm generalizing s with
  | nil => exact .refl _
  | cons b _ ih => exact ih hapart.of_cons _
  | swap b c bs =>
      have hcb : Apart c b := List.rel_of_pairwise_cons hapart List.mem_cons_self
      exact (alike_swap _ _ hcb _ _).mergeAll bs
  | trans hbc _ ih ih' =>
      have hapart' := (hbc.pairwise_iff fun hxy => hxy.symm).1 hapart
      exact (ih hapart s).trans (ih' hapart' s)

end Order

/-! ## The boundaries of batches -/

section Boundaries

variable (h : Holdings) (o : Outlet) (xs ys : List Message)

theorem mergeAll_pair :
    mergeAll (h, o) [xs, ys] = (h.merge o xs).1.merge (h.merge o xs).2 ys := rfl

/-- An agent has no queue after a batch if it had none and no message is for it. -/
theorem isNone_queue?_merge (agent : String) :
    ((h.merge o xs).1.table.queue? agent).isNone ↔
      (h.table.queue? agent).isNone ∧ agent ∉ Message.agents (Message.shown xs) := by
  rw [queue?_merge]
  split
  · next hagent => simp [hagent]
  · next hagent => simp [hagent]

/-- Who gets a queue in a batch gets it in one of its parts. -/
theorem newcomers_append :
    h.table.newcomers (Message.agents (Message.shown (xs ++ ys))) =
      h.table.newcomers (Message.agents (Message.shown xs)) ++
        (h.merge o xs).1.table.newcomers (Message.agents (Message.shown ys)) := by
  rw [Message.shown_append, Message.agents_append, AgentTable.newcomers, List.filter_append,
    List.filter_filter]
  refine congrArg _ (List.filter_congr fun agent _ => ?_)
  rw [Bool.eq_iff_iff, isNone_queue?_merge]
  simp

theorem queues_append :
    (h.merge o (xs ++ ys)).1.table.queues = (mergeAll (h, o) [xs, ys]).1.table.queues := by
  rw [mergeAll_pair]
  refine AgentTable.queues_eq (fun agent => ?_) fun agent p => ?_
  · simp only [isSome_queue?_merge, Message.shown_append, List.mem_append, or_and_right,
      exists_or, or_assoc]
  · simp only [get?_queue_merge, Message.lastFor?_append, Option.map_or, Option.or_assoc]

theorem table_append :
    (h.merge o (xs ++ ys)).1.table = (mergeAll (h, o) [xs, ys]).1.table ∧
      (h.merge o (xs ++ ys)).2.registry = (mergeAll (h, o) [xs, ys]).2.registry :=
  (enlists_merge h o (xs ++ ys)).eq
    ((enlists_merge h o xs).trans (enlists_merge _ _ ys) (newcomers_append h o xs ys))
    (queues_append h o xs ys)

theorem made_append : madeBy (h, o) (Message.groups (Message.shown (xs ++ ys))) =
    madeBy (h, o) (Message.groups (Message.shown xs)) ++
      madeBy (h.merge o xs) (Message.groups (Message.shown ys)) := by
  rw [made_merge h o (xs ++ ys), made_merge h o xs, newcomers_append h o]
  exact congrArg _ (made_merge (h.merge o xs).1 (h.merge o xs).2 ys).symm

theorem merged_append : (MergeCount.ofBatch (xs ++ ys)).merged =
    (MergeCount.ofBatch xs).merged + (MergeCount.ofBatch ys).merged := by
  rw [merged_ofBatch, merged_ofBatch, merged_ofBatch, List.countP_append]

theorem filtered_append : (MergeCount.ofBatch (xs ++ ys)).filtered =
    (MergeCount.ofBatch xs).filtered + (MergeCount.ofBatch ys).filtered := by
  have hmerged := merged_append xs ys
  have hall := merged_add_filtered (xs ++ ys)
  have hx := merged_add_filtered xs
  have hy := merged_add_filtered ys
  rw [List.length_append] at hall
  omega

end Boundaries

end Holdings

/-- All that a listener is told of an agent, one message after another. -/
def Notice.messagesOf (agent : String) (ns : List Notice) : List Message :=
  (ns.filter fun n => n.agent == agent).flatMap (·.messages)

namespace Notice

theorem messagesOf_append (agent : String) (ns ms : List Notice) :
    messagesOf agent (ns ++ ms) = messagesOf agent ns ++ messagesOf agent ms := by
  rw [messagesOf, List.filter_append, List.flatMap_append]
  rfl

theorem messagesOf_eq (agent : String) (ns : List Notice) :
    messagesOf agent ns = ((ns.map group).filter fun g => g.1 == agent).flatMap (·.2) := by
  rw [List.filter_map, List.flatMap_map]
  rfl

end Notice

/-- Among the groups of a batch there is one of the agent at most. -/
theorem Message.flatMap_groups_shown (agent : String) (batch : List Message) :
    ((groups (shown batch)).filter fun g => g.1 == agent).flatMap (·.2) =
      batch.filter (isFor agent) := by
  rw [groups_shown, List.filter_map, List.flatMap_map]
  change ((agents (shown batch)).filter fun name => name == agent).flatMap _ = _
  have hnodup : (agents (shown batch)).Nodup := nodup_eraseDups _
  rw [List.filter_beq]
  by_cases hagent : agent ∈ agents (shown batch)
  · rw [List.count_eq_one_of_mem hnodup hagent]
    exact List.append_nil _
  · have hnone : batch.filter (isFor agent) = [] := by
      rw [List.filter_eq_nil_iff]
      exact fun m hm hfor => hagent (mem_agents_shown.2 ⟨m, hm, hfor⟩)
    rw [List.count_eq_zero_of_not_mem hagent, hnone]
    rfl

namespace Holdings

section Boundaries

variable (h : Holdings) (o : Outlet) (xs ys : List Message)

theorem messagesOf_merge (agent : String) (batch : List Message) :
    Notice.messagesOf agent (h.merge o batch).2.notices =
      Notice.messagesOf agent o.notices ++ batch.filter (Message.isFor agent) := by
  rw [notices_merge, Notice.messagesOf_append, Notice.messagesOf_eq agent (noticesOf _ _),
    map_group_noticesOf, Message.flatMap_groups_shown]

theorem messagesOf_append (agent : String) :
    Notice.messagesOf agent (h.merge o (xs ++ ys)).2.notices =
      Notice.messagesOf agent (mergeAll (h, o) [xs, ys]).2.notices := by
  rw [mergeAll_pair, messagesOf_merge, messagesOf_merge, messagesOf_merge, List.filter_append,
    List.append_assoc]

theorem coverage_append (hheads : ∀ x ∈ xs.head?, ∀ y ∈ ys.head?, x.offset ≤ y.offset) :
    (h.merge o (xs ++ ys)).1.coverage = (mergeAll (h, o) [xs, ys]).1.coverage := by
  rw [mergeAll_pair]
  refine Coverage.eq_of_le_iff ?_ fun p => ?_
  · simp only [highMark_merge]
  · simp only [lowMark_merge_le_iff]
    cases xs with
    | nil => simp
    | cons x xs =>
        cases ys with
        | nil => simp
        | cons y ys =>
            have hxy : y.offset ≤ p → x.offset ≤ p := Std.le_trans (hheads x rfl y rfl)
            simp only [List.cons_append, List.head?_cons, Option.some.injEq, exists_eq_left']
            rw [or_assoc, or_iff_left_of_imp hxy]

end Boundaries

/-- One batch `xs ++ ys` and the two batches `xs` and `ys` come to the same. -/
structure SameInPieces (h : Holdings) (o : Outlet) (xs ys : List Message) : Prop where
  /-- The same queues with the same items, and the same registrations. -/
  table : (h.merge o (xs ++ ys)).1.table = (mergeAll (h, o) [xs, ys]).1.table
  /-- The same queues are registered in the same order. -/
  registry : (h.merge o (xs ++ ys)).2.registry = (mergeAll (h, o) [xs, ys]).2.registry
  /-- The same queues are made in the same order. -/
  made : madeBy (h, o) (Message.groups (Message.shown (xs ++ ys))) =
    madeBy (h, o) (Message.groups (Message.shown xs)) ++
      madeBy (h.merge o xs) (Message.groups (Message.shown ys))
  merged : (MergeCount.ofBatch (xs ++ ys)).merged =
    (MergeCount.ofBatch xs).merged + (MergeCount.ofBatch ys).merged
  filtered : (MergeCount.ofBatch (xs ++ ys)).filtered =
    (MergeCount.ofBatch xs).filtered + (MergeCount.ofBatch ys).filtered
  /-- The listener is told the same messages of each agent, in the same order. -/
  told : ∀ agent, Notice.messagesOf agent (h.merge o (xs ++ ys)).2.notices =
    Notice.messagesOf agent (mergeAll (h, o) [xs, ys]).2.notices
  /-- The same marks, unless the second batch starts below the first. -/
  coverage : (∀ x ∈ xs.head?, ∀ y ∈ ys.head?, x.offset ≤ y.offset) →
    (h.merge o (xs ++ ys)).1.coverage = (mergeAll (h, o) [xs, ys]).1.coverage

theorem sameInPieces (h : Holdings) (o : Outlet) (xs ys : List Message) :
    SameInPieces h o xs ys where
  table := (table_append h o xs ys).1
  registry := (table_append h o xs ys).2
  made := made_append h o xs ys
  merged := merged_append xs ys
  filtered := filtered_append xs ys
  told := messagesOf_append h o xs ys
  coverage := coverage_append h o xs ys

/-- Whoever reads finds the same. -/
structure SameContents (h h' : Holdings) : Prop where
  queues : ∀ agent, h.table.queue? agent = h'.table.queue? agent
  agents : h.table.agents = h'.table.agents
  total : h.table.total = h'.table.total
  lowest? : h.coverage.lowest? = h'.coverage.lowest?

theorem Alike.sameContents {h h' : Holdings} (hh : Alike h h') : SameContents h h' where
  queues := hh.queue?
  agents := congrArg SortedMap.keys hh.queues
  total := congrArg (fun queues => queues.values.foldr (fun q n => q.size + n) 0) hh.queues
  lowest? := congrArg Coverage.lowest? hh.coverage

/-- Batches for different places may come in any order, and any batch may be cut into two. -/
theorem merge_batches (s : Holdings × Outlet) :
    (∀ bs cs : List (List Message), bs.Perm cs → bs.Pairwise Apart →
      SameContents (mergeAll s bs).1 (mergeAll s cs).1) ∧
    ∀ xs ys : List Message, SameInPieces s.1 s.2 xs ys :=
  ⟨fun _ _ hperm hapart => (alike_of_perm hperm hapart s).sameContents, sameInPieces s.1 s.2⟩

/-- Three batches of two agents, with a test message first, and one of them in two pieces. -/
theorem merge_batches_three :
    let x := [Sample.message .zero 7 "a" .test, Sample.message .zero 8 "b" .add]
    let y := Sample.messages .zero "a" [5, 6]
    let z := [Sample.message .zero 9 "a" .delete, Sample.message .zero 5 "b" .add]
    let s := (empty 0 true, Outlet.empty)
    SameContents (mergeAll s [x, y, z]).1 (mergeAll s [z, x, y]).1 ∧
      ((empty 0 true).merge .empty (x ++ z)).1.coverage = (mergeAll s [x, z]).1.coverage := by
  intro x y z s
  have hperm : [x, y, z].Perm [z, x, y] := @List.perm_append_comm _ [x, y] [z]
  have hapart : [x, y, z].Pairwise Apart := by decide
  have hheads : ∀ m ∈ x.head?, ∀ n ∈ z.head?, m.offset ≤ n.offset := by decide
  exact ⟨(merge_batches s).1 _ _ hperm hapart, ((merge_batches s).2 x z).coverage hheads⟩

end Holdings

end JournalCache

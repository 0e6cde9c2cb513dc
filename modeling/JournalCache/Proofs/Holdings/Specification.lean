import JournalCache.Proofs.AgentTable.Enlisting
import JournalCache.Proofs.Holdings.Groups
import Mathlib.Data.List.Dedup

/-!
# All that merging a batch does

Merging walks over the groups of a batch. What this comes to is said here without the walk
(`MergeSpec`): which item stands at each offset of each queue, which agents get a queue and are
registered and in which order, what the listener is told and what is readable then, how many
messages and agents are counted, by how much the table grows and where the lowest mark stands. It
holds of every batch, whatever its offsets, agents and tests, and whatever was held before.
-/

namespace JournalCache

namespace Message

/-- The places in the queues that the messages of a batch are for, each once. -/
def places (batch : List Message) : List (String × Offset) :=
  ((shown batch).map fun m => (m.agent, m.offset)).dedup

theorem mem_places {batch : List Message} {agent : String} {o : Offset} :
    (agent, o) ∈ places batch ↔ (lastFor? agent o batch).isSome := by
  rw [places, List.mem_dedup, List.mem_map, lastFor?_isSome]
  simp only [mem_shown, isFor_iff, Prod.mk.injEq, and_assoc]

/-- As many messages are in the groups of a batch as are in the batch. -/
theorem foldr_length_groups (batch : List Message) :
    (groups batch).foldr (fun g n => g.2.length + n) 0 = batch.length := by
  have hsum : ∀ gs : List (String × List Message),
      gs.foldr (fun g n => g.2.length + n) 0 = (gs.flatMap (·.2)).length := by
    intro gs
    induction gs with
    | nil => rfl
    | cons g gs ih => rw [List.foldr_cons, List.flatMap_cons, List.length_append, ih]
  rw [hsum, (perm_groups batch).length_eq]

end Message

namespace AgentTable

/-- The places in the queues at which there is an item. -/
def places (t : AgentTable) : List (String × Offset) := t.contents.map fun e => (e.1, e.2.1)

theorem mem_places {t : AgentTable} {agent : String} {o : Offset} :
    (agent, o) ∈ t.places ↔ ((t.queue agent).get? o).isSome := by
  rw [places, List.mem_map, Option.isSome_iff_exists]
  constructor
  · rintro ⟨⟨_, _, i⟩, hmem, heq⟩
    obtain ⟨rfl, rfl⟩ := Prod.mk.inj heq
    exact ⟨i, mem_contents.1 hmem⟩
  · rintro ⟨i, hi⟩
    exact ⟨(agent, o, i), mem_contents.2 hi, rfl⟩

theorem nodup_places (t : AgentTable) : t.places.Nodup := by
  refine t.nodup_contents.map_on ?_
  rintro ⟨a, o, i⟩ hi ⟨b, p, j⟩ hj heq
  obtain ⟨rfl, rfl⟩ := Prod.mk.inj heq
  have hij := (mem_contents.1 hi).symm.trans (mem_contents.1 hj)
  rw [Option.some.inj hij]

theorem total_eq (t : AgentTable) : t.total = t.places.length := by
  have hsum : ∀ es : List (String × Queue Item), (es.map (·.2)).foldr (fun q n => q.size + n) 0 =
      (es.flatMap fun e => e.2.entries.map fun i => (e.1, i.1, i.2)).length := by
    intro es
    induction es with
    | nil => rfl
    | cons e es ih =>
        rw [List.map_cons, List.foldr_cons, List.flatMap_cons, List.length_append, List.length_map,
          ih, SortedMap.size]
  rw [places, List.length_map]
  exact hsum t.queues.entries

end AgentTable

namespace Holdings

/-! ## The walk -/

/-- The agents whose queue is made while groups are merged, in the order in which they are made. -/
def madeBy (s : Holdings × Outlet) : List (String × List Message) → List String
  | [] => []
  | g :: gs => s.1.table.newcomers [g.1] ++ madeBy (mergeGroup s g) gs

variable {s : Holdings × Outlet} {gs : List (String × List Message)}

/-- A group changes no queue of another agent. -/
theorem queue?_mergeGroup_of_mem {g : String × List Message} {names : List String}
    (h : g.1 ∉ names) : ∀ name ∈ names,
      (mergeGroup s g).1.table.queue? name = s.1.table.queue? name := by
  intro name hname
  rw [queue?_mergeGroup, if_neg]
  rintro rfl
  exact h hname

theorem madeBy_eq (hnodup : (gs.map (·.1)).Nodup) :
    madeBy s gs = s.1.table.newcomers (gs.map (·.1)) := by
  induction gs generalizing s with
  | nil => rfl
  | cons g gs ih =>
      obtain ⟨hg, hnodup⟩ := List.nodup_cons.1 hnodup
      have hsame : (mergeGroup s g).1.table.newcomers (gs.map (·.1)) =
          s.1.table.newcomers (gs.map (·.1)) := by
        refine List.filter_congr fun name hname => ?_
        rw [queue?_mergeGroup_of_mem hg name hname]
      rw [madeBy, ih hnodup, hsame]
      exact (List.filter_append [g.1] (gs.map (·.1))).symm

theorem enlists_mergeGroups (hnodup : (gs.map (·.1)).Nodup) :
    AgentTable.Enlists (gs.map (·.1)) s.1.table s.2.registry (mergeGroups s gs).1.table
      (mergeGroups s gs).2.registry := by
  induction gs generalizing s with
  | nil => exact AgentTable.enlists_nil _ _
  | cons g gs ih =>
      obtain ⟨hg, hnodup⟩ := List.nodup_cons.1 hnodup
      have hfirst : AgentTable.Enlists [g.1] s.1.table s.2.registry (mergeGroup s g).1.table
          (mergeGroup s g).2.registry :=
        (AgentTable.enlists_ensure s.1.table s.2.registry g.1).put _ _
      exact hfirst.cons (queue?_mergeGroup_of_mem hg) (ih hnodup)

/-! ## The queues after a merge -/

variable (h : Holdings) (o : Outlet) (batch : List Message)

theorem queue?_merge (agent : String) :
    (h.merge o batch).1.table.queue? agent =
      if agent ∈ Message.agents (Message.shown batch) then
        some ((h.table.queue agent).putStaged
          (Message.staged (Message.ofAgent agent (Message.shown batch))))
      else h.table.queue? agent := by
  rw [table_merge, mergeGroups_eq_take, queue?_take_groups, List.take_length]

/-- At each offset of a queue stands the item of the last message for it, or what stood there. -/
theorem get?_queue_merge (agent : String) (p : Offset) :
    ((h.merge o batch).1.table.queue agent).get? p =
      ((Message.lastFor? agent p batch).map Item.ofMessage).or
        ((h.table.queue agent).get? p) := by
  rw [AgentTable.queue_eq, queue?_merge]
  split
  · rw [Option.getD_some, Queue.get?_putStaged, Message.get?_staged,
      Message.lastAt?_ofAgent_shown]
  · next hagent =>
    have hnone : Message.lastFor? agent p batch = none := by
      rw [← Option.not_isSome_iff_eq_none, Message.lastFor?_isSome]
      rintro ⟨m, hm, hfor, -⟩
      exact hagent (Message.mem_agents_shown.2 ⟨m, hm, hfor⟩)
    rw [hnone]
    rfl

/-- The places in the batch at which there was nothing come to those at which there was
something. -/
theorem perm_places_merge : (h.merge o batch).1.table.places.Perm
    (h.table.places ++
      (Message.places batch).filter fun e => ((h.table.queue e.1).get? e.2).isNone) := by
  refine (List.perm_ext_iff_of_nodup (AgentTable.nodup_places _) ?_).2 ?_
  · refine List.nodup_append'.2
      ⟨AgentTable.nodup_places _, (List.nodup_dedup _).filter _, ?_⟩
    rintro ⟨agent, p⟩ hold hnew
    have hsome := AgentTable.mem_places.1 hold
    have hnone := (List.mem_filter.1 hnew).2
    rw [Option.isNone_iff_eq_none] at hnone
    rw [hnone] at hsome
    cases hsome
  · rintro ⟨agent, p⟩
    rw [AgentTable.mem_places, get?_queue_merge, List.mem_append, List.mem_filter,
      AgentTable.mem_places, Message.mem_places]
    cases Message.lastFor? agent p batch <;> cases (h.table.queue agent).get? p <;> simp

/-! ## The specification -/

/-- What merging a batch leaves of `h` and `o`, and what is counted and told, where `names` are the
agents of the batch. -/
structure MergeSpec (h : Holdings) (o : Outlet) (batch : List Message) (names : List String)
    (after : Holdings × Outlet) : Prop where
  /-- The agents of messages that are no tests. -/
  mem_names : ∀ agent, agent ∈ names ↔ ∃ m ∈ batch, m.isTest = false ∧ m.agent = agent
  /-- Each agent once, in the order of the first messages that are no tests. -/
  inOrder : names.Pairwise fun a b =>
    batch.findIdx (Message.isFor a) < batch.findIdx (Message.isFor b)
  /-- The queues of other agents are as they were, and none is made for them. -/
  others : ∀ agent, agent ∉ names → after.1.table.queue? agent = h.table.queue? agent
  /-- Every agent has a queue, with the item of the last message for each offset over what stood
  there. -/
  queues : ∀ agent ∈ names, ∃ q, after.1.table.queue? agent = some q ∧ ∀ p, q.get? p =
    (((batch.filter fun m => m.isFor agent && m.offset == p).getLast?).map Item.ofMessage).or
      ((h.table.queue agent).get? p)
  /-- The queues that did not exist are made in the order of the agents. -/
  made : madeBy (h, o) (Message.groups (Message.shown batch)) = h.table.newcomers names
  /-- They are registered in this order, if queues are registered and the registry takes them. -/
  enlists : AgentTable.Enlists names h.table o.registry after.1.table after.2.registry
  /-- The listener is told once of each agent in this order, with all messages of the agent that
  are no tests, as they come in the batch. -/
  notices : ∃ ns, after.2.notices = o.notices ++ ns ∧
    ns.map Notice.group = names.map fun agent => (agent, batch.filter (Message.isFor agent))
  /-- When it is told of an agent, the queues of this agent and of those before it stand as they do
  at the end, those of the agents behind it stand as they did at the start, and so do the marks. -/
  readable : ∀ k n, after.2.notices[o.notices.length + k]? = some n →
    n.holdings.coverage = h.coverage ∧ ∀ agent, n.holdings.table.queue? agent =
      if agent ∈ names.take (k + 1) then after.1.table.queue? agent else h.table.queue? agent
  /-- One pass over the batch, with a map of where each agent's group stands, makes these groups. -/
  onePass : ((Message.shown batch).foldl Grouping.add .empty).groups =
    names.map fun agent => (agent, batch.filter (Message.isFor agent))
  merged : (MergeCount.ofBatch batch).merged = batch.countP fun m => !m.isTest
  /-- The difference that `filtered` is computed as is not cut off at zero. -/
  merged_le : (MergeCount.ofBatch batch).merged ≤ batch.length
  filtered : (MergeCount.ofBatch batch).merged + (MergeCount.ofBatch batch).filtered = batch.length
  agents : (MergeCount.ofBatch batch).agents = names.length
  /-- The table grows by the places at which there was nothing. -/
  total : after.1.table.total = h.table.total +
    ((Message.places batch).filter fun e => ((h.table.queue e.1).get? e.2).isNone).length
  /-- The lowest mark goes down to the first message, test or not, and the highest stays. -/
  coverage : after.1.coverage =
    match batch.head? with
    | none => h.coverage
    | some m => h.coverage.lower m.offset

theorem made_merge : madeBy (h, o) (Message.groups (Message.shown batch)) =
    h.table.newcomers (Message.agents (Message.shown batch)) := by
  rw [madeBy_eq (Message.nodup_map_fst_groups _), Message.map_fst_groups]

theorem enlists_merge : AgentTable.Enlists (Message.agents (Message.shown batch)) h.table
    o.registry (h.merge o batch).1.table (h.merge o batch).2.registry := by
  rw [table_merge, outlet_merge, ← Message.map_fst_groups]
  exact enlists_mergeGroups (s := (h, o)) (Message.nodup_map_fst_groups _)

theorem merged_ofBatch : (MergeCount.ofBatch batch).merged = batch.countP fun m => !m.isTest := by
  rw [List.countP_eq_length_filter, MergeCount.ofBatch, Message.grouped_eq]
  exact Message.foldr_length_groups _

theorem merged_le_length : (MergeCount.ofBatch batch).merged ≤ batch.length :=
  merged_ofBatch batch ▸ List.countP_le_length

theorem merged_add_filtered :
    (MergeCount.ofBatch batch).merged + (MergeCount.ofBatch batch).filtered = batch.length :=
  Nat.add_sub_cancel' (merged_le_length batch)

/-- Half way through a merge the first agents have what they have at the end, and the others and the
marks are as at the start. -/
theorem holdings_of_getElem?_noticesOf {k : Nat} {n : Notice}
    (hn : (noticesOf (h, o) (Message.groups (Message.shown batch)))[k]? = some n) :
    n.holdings.coverage = h.coverage ∧ ∀ agent, n.holdings.table.queue? agent =
      if agent ∈ (Message.agents (Message.shown batch)).take (k + 1) then
        (h.merge o batch).1.table.queue? agent
      else h.table.queue? agent := by
  rw [getElem?_noticesOf, Option.map_eq_some_iff] at hn
  obtain ⟨g, -, rfl⟩ := hn
  refine ⟨coverage_mergeGroups _ _, fun agent => ?_⟩
  rw [queue?_merge, queue?_take_groups]
  split
  · next htold => rw [if_pos (List.mem_of_mem_take htold)]
  · rfl

theorem merge_spec :
    MergeSpec h o batch (Message.agents (Message.shown batch)) (h.merge o batch) := by
  constructor
  case mem_names =>
    intro agent
    rw [Message.mem_agents_shown]
    simp only [Message.isFor_iff]
  case inOrder => exact Message.pairwise_agents batch
  case others =>
    intro agent hagent
    rw [queue?_merge, if_neg hagent]
  case queues =>
    intro agent hagent
    have hqueue : (h.merge o batch).1.table.queue? agent =
        some ((h.merge o batch).1.table.queue agent) := by
      rw [AgentTable.queue_eq, queue?_merge, if_pos hagent]
      rfl
    exact ⟨_, hqueue, get?_queue_merge h o batch agent⟩
  case made => exact made_merge h o batch
  case enlists => exact enlists_merge h o batch
  case notices =>
    refine ⟨_, notices_merge h o batch, ?_⟩
    rw [map_group_noticesOf, Message.groups_shown]
  case readable =>
    intro k n hn
    rw [notices_merge, List.getElem?_append_right (Nat.le_add_right _ k),
      Nat.add_sub_cancel_left] at hn
    exact holdings_of_getElem?_noticesOf h o batch hn
  case onePass => exact (Message.grouped_eq batch).trans (Message.groups_shown batch)
  case merged => exact merged_ofBatch batch
  case merged_le => exact merged_le_length batch
  case filtered => exact merged_add_filtered batch
  case agents =>
    change (Message.grouped batch).length = _
    rw [Message.grouped_eq]
    exact List.length_map _
  case total =>
    rw [AgentTable.total_eq, AgentTable.total_eq, (perm_places_merge h o batch).length_eq,
      List.length_append]
  case coverage =>
    rw [coverage_merge]
    cases batch <;> rfl

end Holdings

end JournalCache

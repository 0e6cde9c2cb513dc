import JournalCache.Proofs.Holdings.Marks
import Mathlib.Data.List.Nodup

/-!
# What stands in the queues

Merging a batch adds the items of its messages to the queues of their agents and takes nothing away.
This holds already half way through, when only the first of its agents were told: their items are
there, those of the other agents are not. A record of the tail is merged as a batch of its own.
-/

namespace JournalCache

namespace Message

theorem lastAt?_eq_some {batch : List Message} (h : (batch.map (·.offset)).Nodup) {o : Offset}
    {m : Message} : lastAt? o batch = some m ↔ m ∈ batch ∧ m.offset = o := by
  constructor
  · intro hm
    have hmem := List.mem_of_find?_eq_some hm
    have hoffset := List.find?_some hm
    exact ⟨List.mem_reverse.1 hmem, by simpa using hoffset⟩
  · intro hall
    rcases hall with ⟨hm, rfl⟩
    cases hlast : lastAt? m.offset batch with
    | none =>
        have hnone := List.find?_eq_none.1 hlast m (List.mem_reverse.2 hm)
        simp at hnone
    | some n =>
        have hmem := List.mem_reverse.1 (List.mem_of_find?_eq_some hlast)
        have hoffset : n.offset = m.offset := by simpa using List.find?_some hlast
        rw [List.inj_on_of_nodup_map h hmem hm hoffset]

theorem nodup_shown {batch : List Message} (h : (batch.map (·.offset)).Nodup) :
    ((shown batch).map (·.offset)).Nodup := h.sublist (List.filter_sublist.map _)

theorem nodup_ofAgent {batch : List Message} (h : (batch.map (·.offset)).Nodup) (agent : String) :
    ((ofAgent agent batch).map (·.offset)).Nodup := h.sublist (List.filter_sublist.map _)

theorem mem_shown {batch : List Message} {m : Message} :
    m ∈ shown batch ↔ m ∈ batch ∧ m.isTest = false := by
  simp [shown]

theorem mem_ofAgent {agent : String} {batch : List Message} {m : Message} :
    m ∈ ofAgent agent batch ↔ m ∈ batch ∧ m.agent = agent := by
  simp [ofAgent]

/-- The groups of the agents that come first. -/
theorem mem_take_groups {batch : List Message} {k : Nat} {agent : String}
    (h : agent ∈ (agents batch).take k) : (agent, ofAgent agent batch) ∈ (groups batch).take k := by
  rw [groups, ← List.map_take, List.mem_map]
  exact ⟨agent, h, rfl⟩

theorem map_fst_take_groups (batch : List Message) (k : Nat) :
    ((groups batch).take k).map (·.1) = (agents batch).take k := by
  rw [List.map_take, map_fst_groups]

end Message

def Delivery.batch : Delivery → List Message
  | .marker _ => []
  | .message m => [m]

theorem Delivery.mem_batch {r : Delivery} {m : Message} : m ∈ r.batch ↔ r = .message m := by
  cases r with
  | marker => simp [batch]
  | message n => simp [batch, eq_comm]

namespace AgentTable

/-- The entries of all queues: each an agent with an offset and an item. -/
def contents (t : AgentTable) : List (String × Offset × Item) :=
  t.queues.entries.flatMap fun e => e.2.entries.map fun i => (e.1, i.1, i.2)

theorem mem_contents {t : AgentTable} {agent : String} {o : Offset} {i : Item} :
    (agent, o, i) ∈ t.contents ↔ (t.queue agent).get? o = some i := by
  rw [contents, List.mem_flatMap, queue_eq]
  constructor
  · intro h
    rcases h with ⟨⟨name, q⟩, hq, hmem⟩
    obtain ⟨e, he, heq⟩ := List.mem_map.1 hmem
    cases heq
    rw [queue?, SortedMap.get?_eq_some.2 hq]
    exact SortedMap.get?_eq_some.2 he
  · intro h
    cases hq : t.queue? agent with
    | none =>
        rw [hq] at h
        cases h
    | some q =>
        rw [hq] at h
        exact ⟨(agent, q), SortedMap.get?_eq_some.1 hq,
          List.mem_map.2 ⟨(o, i), SortedMap.get?_eq_some.1 h, rfl⟩⟩

theorem nodup_contents (t : AgentTable) : t.contents.Nodup := by
  rw [contents, List.nodup_flatMap]
  constructor
  · intro e _
    refine e.2.nodup_entries.map fun i j hij => ?_
    simpa [Prod.ext_iff] using hij
  · refine t.queues.increasing.imp fun {e f} hlt x hxe hxf => ?_
    obtain ⟨i, -, rfl⟩ := List.mem_map.1 hxe
    obtain ⟨j, -, heq⟩ := List.mem_map.1 hxf
    have hname : f.1 = e.1 := congrArg (·.1) heq
    exact Std.lt_irrefl (hname ▸ hlt)

end AgentTable

namespace Holdings

variable (s : Holdings × Outlet) (batch : List Message)

theorem queue?_take_groups (k : Nat) (agent : String) :
    (mergeGroups s ((Message.groups batch).take k)).1.table.queue? agent =
      if agent ∈ (Message.agents batch).take k then
        some ((s.1.table.queue agent).putStaged (Message.staged (Message.ofAgent agent batch)))
      else s.1.table.queue? agent := by
  have hnames := Message.map_fst_take_groups batch k
  by_cases h : agent ∈ (Message.agents batch).take k
  · have hnodup : (((Message.groups batch).take k).map (·.1)).Nodup := by
      rw [hnames]
      exact (Message.nodup_eraseDups _).sublist (List.take_sublist _ _)
    have hqueue := queue?_mergeGroups_of_mem s hnodup (Message.mem_take_groups h)
    rw [if_pos h]
    exact hqueue
  · rw [if_neg h]
    exact queue?_mergeGroups_of_notMem s (hnames ▸ h)

/-- The agents that were told of their messages have them, besides what they had. -/
theorem get?_take_groups {batch : List Message} (hnodup : (batch.map (·.offset)).Nodup)
    (hfresh : ∀ m ∈ batch, (s.1.table.queue m.agent).get? m.offset = none) {k : Nat}
    {agent : String} {o : Offset} {i : Item} :
    ((mergeGroups s ((Message.groups batch).take k)).1.table.queue agent).get? o = some i ↔
      (s.1.table.queue agent).get? o = some i ∨
        agent ∈ (Message.agents batch).take k ∧
          ∃ m ∈ batch, m.agent = agent ∧ m.offset = o ∧ Item.ofMessage m = i := by
  rw [AgentTable.queue_eq, queue?_take_groups]
  by_cases h : agent ∈ (Message.agents batch).take k
  · rw [if_pos h, Option.getD_some, Queue.get?_putStaged, Message.get?_staged]
    cases hlast : Message.lastAt? o (Message.ofAgent agent batch) with
    | none =>
        have hnone : ¬ ∃ m ∈ batch, m.agent = agent ∧ m.offset = o ∧ Item.ofMessage m = i := by
          intro hall
          rcases hall with ⟨m, hm, hagent, ho, -⟩
          have hsome := (Message.lastAt?_eq_some (Message.nodup_ofAgent hnodup agent)).2
            ⟨Message.mem_ofAgent.2 ⟨hm, hagent⟩, ho⟩
          rw [hlast] at hsome
          cases hsome
        simp [hnone]
    | some m =>
        obtain ⟨hgroup, rfl⟩ :=
          (Message.lastAt?_eq_some (Message.nodup_ofAgent hnodup agent)).1 hlast
        obtain ⟨hm, rfl⟩ := Message.mem_ofAgent.1 hgroup
        have honly : (∃ n ∈ batch, n.agent = m.agent ∧ n.offset = m.offset ∧
            Item.ofMessage n = i) ↔ Item.ofMessage m = i := by
          constructor
          · intro hall
            rcases hall with ⟨n, hn, -, hoffset, rfl⟩
            rw [List.inj_on_of_nodup_map hnodup hm hn hoffset.symm]
          · exact fun hi => ⟨m, hm, rfl, rfl, hi⟩
        simp [hfresh m hm, h, honly]
  · rw [if_neg h, ← AgentTable.queue_eq]
    simp [h]

theorem mergeGroups_eq_take (batch : List Message) :
    mergeGroups s (Message.groups batch) =
      mergeGroups s ((Message.groups batch).take (Message.agents batch).length) := by
  rw [List.take_of_length_le (by simp [Message.groups])]

variable (h : Holdings) (o : Outlet)

theorem get?_merge {batch : List Message} (hnodup : (batch.map (·.offset)).Nodup)
    (hfresh : ∀ m ∈ batch, (h.table.queue m.agent).get? m.offset = none) {agent : String}
    {p : Offset} {i : Item} :
    ((h.merge o batch).1.table.queue agent).get? p = some i ↔
      (h.table.queue agent).get? p = some i ∨
        ∃ m ∈ Message.shown batch, m.agent = agent ∧ m.offset = p ∧ Item.ofMessage m = i := by
  rw [table_merge, mergeGroups_eq_take, get?_take_groups _ (Message.nodup_shown hnodup)
    fun m hm => hfresh m (Message.mem_shown.1 hm).1, List.take_length]
  apply or_congr_right
  constructor
  · intro hall
    rcases hall with ⟨-, hm⟩
    exact hm
  · intro hall
    rcases hall with ⟨m, hm, hagent, hrest⟩
    exact ⟨Message.mem_agents.2 ⟨m, hm, hagent⟩, m, hm, hagent, hrest⟩

/-- Whatever the messages, what stands in a queue after a merge was there or is of one of them. -/
theorem of_get?_merge {batch : List Message} {agent : String} {p : Offset} {i : Item}
    (hget : ((h.merge o batch).1.table.queue agent).get? p = some i) :
    (h.table.queue agent).get? p = some i ∨ ∃ m ∈ batch, m.offset = p := by
  rw [AgentTable.queue_eq, table_merge, mergeGroups_eq_take, queue?_take_groups] at hget
  split at hget
  · rw [Option.getD_some, Queue.get?_putStaged, Message.get?_staged] at hget
    cases hlast : Message.lastAt? p (Message.ofAgent agent (Message.shown batch)) with
    | none =>
        rw [hlast] at hget
        exact .inl hget
    | some m =>
        have hmem := List.mem_reverse.1 (List.mem_of_find?_eq_some hlast)
        have hshown := (Message.mem_ofAgent.1 hmem).1
        exact .inr ⟨m, (Message.mem_shown.1 hshown).1, by simpa using List.find?_some hlast⟩
  · exact .inl hget

theorem isSome_queue?_merge (batch : List Message) (agent : String) :
    ((h.merge o batch).1.table.queue? agent).isSome ↔
      (h.table.queue? agent).isSome ∨ ∃ m ∈ Message.shown batch, m.agent = agent := by
  rw [table_merge, mergeGroups_eq_take, queue?_take_groups, List.take_length,
    ← Message.mem_agents]
  by_cases hagent : agent ∈ Message.agents (Message.shown batch)
  · simp [hagent]
  · simp [hagent]

theorem notices_merge (batch : List Message) :
    (h.merge o batch).2.notices =
      o.notices ++ noticesOf (h, o) (Message.groups (Message.shown batch)) := by
  rw [outlet_merge]
  exact notices_mergeGroups _ _

/-- A record of the tail is merged as a batch of its own. -/
theorem table_ingest (r : Delivery) :
    (h.ingest o r).1.table = (h.merge o r.batch).1.table ∧
      (h.ingest o r).2 = (h.merge o r.batch).2 := by
  cases r <;> exact ⟨rfl, rfl⟩

end Holdings

end JournalCache

import JournalCache.Proofs.Holdings.Contents

/-!
# What a listener is told of a batch

The groups of a batch share its messages out among the agents (`perm_groups`). The listener is told
of them one by one, and of each when its messages are readable and the marks still stand where they
stood before the batch (`of_mem_noticesOf`).
-/

namespace JournalCache

namespace Message

/-- Messages shared out among agents, each of whom takes what is there of its own. -/
theorem perm_flatMap_ofAgent {names : List String} {batch : List Message} (hnodup : names.Nodup)
    (hall : ∀ m ∈ batch, m.agent ∈ names) :
    (names.flatMap fun agent => ofAgent agent batch).Perm batch := by
  induction names generalizing batch with
  | nil =>
      have hnil : batch = [] := List.eq_nil_iff_forall_not_mem.2 fun m hm => nomatch hall m hm
      rw [hnil]
      rfl
  | cons name names ih =>
      obtain ⟨hname, hnodup⟩ := List.nodup_cons.1 hnodup
      let others := batch.filter fun m => !m.agent == name
      have hothers : ∀ m ∈ others, m.agent ∈ names := by
        intro m hm
        obtain ⟨hm, hne⟩ := List.mem_filter.1 hm
        exact (List.mem_cons.1 (hall m hm)).resolve_left (by simpa using hne)
      have hshares : ∀ agent ∈ names, ofAgent agent batch = ofAgent agent others := by
        intro agent hagent
        have hne : agent ≠ name := fun heq => hname (heq ▸ hagent)
        rw [ofAgent, ofAgent, List.filter_filter]
        apply List.filter_congr
        intro m _
        by_cases hm : m.agent = agent
        · simp [hm, hne]
        · simp [hm]
      rw [List.flatMap_cons, List.flatMap_congr hshares]
      exact ((ih hnodup hothers).append_left _).trans (List.filter_append_perm _ batch)

theorem perm_groups (batch : List Message) : ((groups batch).flatMap (·.2)).Perm batch := by
  rw [groups, List.flatMap_map]
  exact perm_flatMap_ofAgent (nodup_eraseDups _) fun m hm => mem_agents.2 ⟨m, hm, rfl⟩

theorem ofAgent_ne_nil {agent : String} {batch : List Message} (h : agent ∈ agents batch) :
    ofAgent agent batch ≠ [] := by
  obtain ⟨m, hm, hagent⟩ := mem_agents.1 h
  exact List.ne_nil_of_mem (mem_ofAgent.2 ⟨hm, hagent⟩)

theorem lastAt?_isSome {batch : List Message} {m : Message} (hm : m ∈ batch) :
    (lastAt? m.offset batch).isSome := by
  rw [lastAt?, List.find?_isSome]
  exact ⟨m, List.mem_reverse.2 hm, by simp⟩

end Message

def Notice.group (n : Notice) : String × List Message := (n.agent, n.messages)

namespace Holdings

theorem map_group_noticesOf (s : Holdings × Outlet) (gs : List (String × List Message)) :
    (noticesOf s gs).map Notice.group = gs := by
  induction gs generalizing s with
  | nil => rfl
  | cons g gs ih => rw [noticesOf, List.map_cons, ih, Notice.group]

variable {s : Holdings × Outlet} {batch : List Message} {n : Notice}

/-- Whoever is told of messages finds the last of them at each offset, and the marks as they stood
before the batch. -/
theorem of_mem_noticesOf (hn : n ∈ noticesOf s (Message.groups batch)) :
    n.agent ∈ Message.agents batch ∧ n.messages = Message.ofAgent n.agent batch ∧
      n.holdings.coverage = s.1.coverage ∧
      ∀ o m, Message.lastAt? o n.messages = some m →
        (n.holdings.table.queue n.agent).get? o = some (Item.ofMessage m) := by
  obtain ⟨k, hk⟩ := List.mem_iff_getElem?.1 hn
  rw [getElem?_noticesOf, Option.map_eq_some_iff] at hk
  obtain ⟨g, hg, rfl⟩ := hk
  obtain ⟨hagent, hmessages⟩ := Message.mem_groups.1 (List.mem_of_getElem? hg)
  refine ⟨hagent, hmessages, coverage_mergeGroups _ _, ?_⟩
  intro o m hlast
  have htold : g.1 ∈ (Message.agents batch).take (k + 1) := by
    rw [← Message.map_fst_take_groups]
    exact List.mem_map_of_mem (List.mem_of_getElem? (List.getElem?_take_of_succ.trans hg))
  rw [AgentTable.queue_eq, queue?_take_groups, if_pos htold, Option.getD_some,
    Queue.get?_putStaged, Message.get?_staged, ← hmessages, hlast]
  rfl

end Holdings

end JournalCache

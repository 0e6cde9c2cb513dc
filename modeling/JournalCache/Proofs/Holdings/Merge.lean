import JournalCache.Proofs.AgentTable.Basic
import JournalCache.Proofs.Holdings.Grouping

/-!
# What merging a batch leaves

Merging goes agent by agent, so all it does is said by a walk over the groups of the batch. The walk
leaves the marks alone (`coverage_mergeGroups`), overwrites the queue of each agent of a group with
what the group has staged (`queue?_mergeGroups`), and tells the listener of each group once, with
what the cache held just after that group (`notices_mergeGroups`). Then the lowest mark is lowered
to the first message of the batch (`coverage_merge`).
-/

namespace JournalCache

namespace Message

def lastAt? (o : Offset) (batch : List Message) : Option Message :=
  batch.reverse.find? fun m => m.offset = o

theorem get?_staged (batch : List Message) (o : Offset) :
    (staged batch).get? o = (lastAt? o batch).map Item.ofMessage := by
  rw [staged, SortedMap.get?_ofList, SortedMap.lastWrite?, lastAt?, ← List.map_reverse,
    List.find?_map, Option.map_map]
  rfl

end Message

namespace AgentTable

theorem queue_eq (t : AgentTable) (agent : String) :
    t.queue agent = (t.queue? agent).getD .empty := rfl

theorem queue?_ensure (t : AgentTable) (r : Registry) (agent other : String) :
    (t.ensure r agent).1.queue? other =
      if other = agent then some (t.queue agent) else t.queue? other := by
  cases hqueue : t.queue? agent with
  | some q =>
      rw [ensure_of_isSome (by rw [hqueue]; rfl), queue_eq, hqueue]
      split
      · next h => exact h ▸ hqueue
      · rfl
  | none =>
      rw [ensure_of_none hqueue, queue_eq, hqueue]
      split
      · exact SortedMap.get?_insert ..
      · exact SortedMap.get?_insert ..

theorem queue?_put (t : AgentTable) (agent other : String) (staged : Queue Item) :
    (t.put agent staged).queue? other =
      if other = agent then some ((t.queue agent).putStaged staged) else t.queue? other := by
  rw [queue?, put, SortedMap.get?_insert]
  rfl

theorem mem_agents {t : AgentTable} {agent : String} :
    agent ∈ t.agents ↔ (t.queue? agent).isSome := SortedMap.mem_keys

end AgentTable

namespace Holdings

/-- What is held, and what was reported, after the groups of a batch were put into their queues one
after another. -/
def mergeGroups (s : Holdings × Outlet) (gs : List (String × List Message)) : Holdings × Outlet :=
  gs.foldl mergeGroup s

theorem mergeGroups_cons (s : Holdings × Outlet) (g : String × List Message)
    (gs : List (String × List Message)) :
    mergeGroups s (g :: gs) = mergeGroups (mergeGroup s g) gs := rfl

theorem merge_eq (h : Holdings) (o : Outlet) (batch : List Message) :
    h.merge o batch =
      ((mergeGroups (h, o) (Message.groups (Message.shown batch))).1.lowerTo batch,
        (mergeGroups (h, o) (Message.groups (Message.shown batch))).2) := by
  rw [← Message.grouped_eq]
  rfl

theorem coverage_mergeGroup (s : Holdings × Outlet) (g : String × List Message) :
    (mergeGroup s g).1.coverage = s.1.coverage := rfl

theorem coverage_mergeGroups (s : Holdings × Outlet) (gs : List (String × List Message)) :
    (mergeGroups s gs).1.coverage = s.1.coverage := by
  induction gs generalizing s with
  | nil => rfl
  | cons g gs ih => rw [mergeGroups_cons, ih, coverage_mergeGroup]

theorem coverage_merge (h : Holdings) (o : Outlet) (batch : List Message) :
    (h.merge o batch).1.coverage =
      match batch with
      | [] => h.coverage
      | m :: _ => h.coverage.lower m.offset := by
  rw [merge_eq]
  cases batch with
  | nil => exact coverage_mergeGroups _ _
  | cons m ms => exact congrArg (·.lower m.offset) (coverage_mergeGroups _ _)

theorem table_merge (h : Holdings) (o : Outlet) (batch : List Message) :
    (h.merge o batch).1.table =
      (mergeGroups (h, o) (Message.groups (Message.shown batch))).1.table := by
  rw [merge_eq]
  cases batch <;> rfl

theorem outlet_merge (h : Holdings) (o : Outlet) (batch : List Message) :
    (h.merge o batch).2 = (mergeGroups (h, o) (Message.groups (Message.shown batch))).2 := by
  rw [merge_eq]

/-! ## The queues -/

theorem queue?_mergeGroup (s : Holdings × Outlet) (g : String × List Message) (agent : String) :
    (mergeGroup s g).1.table.queue? agent =
      if agent = g.1 then some ((s.1.table.queue g.1).putStaged (Message.staged g.2))
      else s.1.table.queue? agent := by
  have hensure := AgentTable.queue?_ensure s.1.table s.2.registry g.1
  have hself : (s.1.table.ensure s.2.registry g.1).1.queue g.1 = s.1.table.queue g.1 := by
    rw [AgentTable.queue_eq, hensure, if_pos rfl]
    rfl
  have hput := AgentTable.queue?_put (s.1.table.ensure s.2.registry g.1).1 g.1 agent
    (Message.staged g.2)
  rw [hself] at hput
  by_cases h : agent = g.1
  · rw [if_pos h] at hput ⊢
    exact hput
  · rw [if_neg h] at hput ⊢
    rw [hensure, if_neg h] at hput
    exact hput

theorem queue?_mergeGroups_of_notMem {gs : List (String × List Message)} {agent : String}
    (s : Holdings × Outlet) (h : agent ∉ gs.map (·.1)) :
    (mergeGroups s gs).1.table.queue? agent = s.1.table.queue? agent := by
  induction gs generalizing s with
  | nil => rfl
  | cons g gs ih =>
      rw [List.map_cons, List.mem_cons, not_or] at h
      rw [mergeGroups_cons, ih _ h.2, queue?_mergeGroup, if_neg h.1]

theorem queue?_mergeGroups_of_mem {gs : List (String × List Message)}
    {g : String × List Message} (s : Holdings × Outlet) (hgs : (gs.map (·.1)).Nodup)
    (hg : g ∈ gs) :
    (mergeGroups s gs).1.table.queue? g.1 =
      some ((s.1.table.queue g.1).putStaged (Message.staged g.2)) := by
  induction gs generalizing s with
  | nil => cases hg
  | cons f gs ih =>
      rw [List.map_cons, List.nodup_cons] at hgs
      rw [mergeGroups_cons]
      rcases List.mem_cons.1 hg with rfl | hg
      · rw [queue?_mergeGroups_of_notMem _ hgs.1, queue?_mergeGroup, if_pos rfl]
      · have hne : g.1 ≠ f.1 := by
          intro heq
          exact hgs.1 (heq ▸ List.mem_map_of_mem hg)
        rw [ih _ hgs.2 hg, AgentTable.queue_eq, queue?_mergeGroup, if_neg hne]
        rfl

/-! ## The notices -/

theorem notices_mergeGroup (s : Holdings × Outlet) (g : String × List Message) :
    (mergeGroup s g).2.notices = s.2.notices ++ [⟨g.1, g.2, (mergeGroup s g).1⟩] := rfl

/-- The notices of a walk over groups, each with what was held just after its group. -/
def noticesOf (s : Holdings × Outlet) : List (String × List Message) → List Notice
  | [] => []
  | g :: gs => ⟨g.1, g.2, (mergeGroup s g).1⟩ :: noticesOf (mergeGroup s g) gs

theorem notices_mergeGroups (s : Holdings × Outlet) (gs : List (String × List Message)) :
    (mergeGroups s gs).2.notices = s.2.notices ++ noticesOf s gs := by
  induction gs generalizing s with
  | nil => simp [mergeGroups, noticesOf]
  | cons g gs ih =>
      rw [mergeGroups_cons, ih, notices_mergeGroup, noticesOf, List.append_assoc]
      rfl

theorem map_agent_noticesOf (s : Holdings × Outlet) (gs : List (String × List Message)) :
    (noticesOf s gs).map (·.agent) = gs.map (·.1) := by
  induction gs generalizing s with
  | nil => rfl
  | cons g gs ih => rw [noticesOf, List.map_cons, List.map_cons, ih]

theorem getElem?_noticesOf (s : Holdings × Outlet) (gs : List (String × List Message)) (k : Nat) :
    (noticesOf s gs)[k]? =
      gs[k]?.map fun g => ⟨g.1, g.2, (mergeGroups s (gs.take (k + 1))).1⟩ := by
  induction gs generalizing s k with
  | nil => rfl
  | cons g gs ih =>
      cases k with
      | zero => rfl
      | succ k =>
          rw [noticesOf, List.getElem?_cons_succ, List.getElem?_cons_succ, ih]
          rfl

end Holdings

end JournalCache

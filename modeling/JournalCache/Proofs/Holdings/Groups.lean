import JournalCache.Proofs.Holdings.Notices
import Mathlib.Data.List.Induction

/-!
# The messages of a batch for an agent

The messages of a batch that are no tests are shared out among their agents, each agent standing
where its first message stands (`pairwise_agents`). What a second batch adds to the agents and to
the last messages of a first one is said by `agents_append` and `lastFor?_append`.
-/

namespace JournalCache

namespace Message

variable {agent : String} {o : Offset} {m : Message}

def isFor (agent : String) (m : Message) : Bool := !m.isTest && m.agent == agent

def lastFor? (agent : String) (o : Offset) (batch : List Message) : Option Message :=
  (batch.filter fun m => m.isFor agent && m.offset == o).getLast?

theorem isFor_iff : m.isFor agent ↔ m.isTest = false ∧ m.agent = agent := by
  simp [isFor]

theorem ofAgent_shown (agent : String) (batch : List Message) :
    ofAgent agent (shown batch) = batch.filter (isFor agent) := by
  rw [ofAgent, shown, List.filter_filter]
  refine List.filter_congr fun m _ => ?_
  rw [isFor, Bool.and_comm]

theorem groups_shown (batch : List Message) : groups (shown batch) =
    (agents (shown batch)).map fun agent => (agent, batch.filter (isFor agent)) := by
  rw [groups]
  refine List.map_congr_left fun agent _ => ?_
  rw [ofAgent_shown]

theorem nodup_map_fst_groups (batch : List Message) : ((groups batch).map (·.1)).Nodup := by
  rw [map_fst_groups]
  exact nodup_eraseDups _

theorem lastAt?_ofAgent_shown (agent : String) (o : Offset) (batch : List Message) :
    lastAt? o (ofAgent agent (shown batch)) = lastFor? agent o batch := by
  rw [lastAt?, ofAgent_shown, ← List.getLast?_filter, List.filter_filter, lastFor?]
  refine congrArg List.getLast? (List.filter_congr fun m _ => ?_)
  rw [Bool.and_comm]
  rfl

theorem lastFor?_append (agent : String) (o : Offset) (xs ys : List Message) :
    lastFor? agent o (xs ++ ys) = (lastFor? agent o ys).or (lastFor? agent o xs) := by
  rw [lastFor?, List.filter_append, List.getLast?_append]
  rfl

theorem mem_of_lastFor? {batch : List Message} (h : lastFor? agent o batch = some m) :
    m ∈ batch ∧ m.isFor agent ∧ m.offset = o := by
  obtain ⟨hm, hfor⟩ := List.mem_filter.1 (List.mem_of_getLast? h)
  simpa [hm] using hfor

theorem lastFor?_isSome {batch : List Message} : (lastFor? agent o batch).isSome ↔
    ∃ m ∈ batch, m.isFor agent ∧ m.offset = o := by
  rw [lastFor?, List.getLast?_filter, List.find?_isSome]
  simp

theorem shown_append (xs ys : List Message) : shown (xs ++ ys) = shown xs ++ shown ys :=
  List.filter_append xs ys

theorem mem_agents_shown {batch : List Message} :
    agent ∈ agents (shown batch) ↔ ∃ m ∈ batch, m.isFor agent := by
  rw [mem_agents]
  constructor
  · rintro ⟨m, hm, hagent⟩
    obtain ⟨hm, htest⟩ := mem_shown.1 hm
    exact ⟨m, hm, isFor_iff.2 ⟨htest, hagent⟩⟩
  · rintro ⟨m, hm, hfor⟩
    obtain ⟨htest, hagent⟩ := isFor_iff.1 hfor
    exact ⟨m, mem_shown.2 ⟨hm, htest⟩, hagent⟩

/-! ## The agents in their order -/

/-- The agents of a second batch come behind those of the first, if they are not among them. -/
theorem agents_append (xs ys : List Message) :
    agents (xs ++ ys) = agents xs ++ (agents ys).filter fun agent => agent ∉ agents xs := by
  induction ys using List.reverseRecOn with
  | nil => simp [agents]
  | append_singleton ys m ih =>
      rw [← List.append_assoc, agents_concat, agents_concat, ih]
      by_cases hx : m.agent ∈ agents xs
      · by_cases hy : m.agent ∈ agents ys <;> simp [hx, hy]
      · by_cases hy : m.agent ∈ agents ys <;> simp [hx, hy]

/-- An agent stands in front of another if its first message does. -/
theorem pairwise_agents (batch : List Message) : (agents (shown batch)).Pairwise fun a b =>
    batch.findIdx (isFor a) < batch.findIdx (isFor b) := by
  induction batch using List.reverseRecOn with
  | nil => exact .nil
  | append_singleton batch m ih =>
      have hold : ∀ a ∈ agents (shown batch), batch.findIdx (isFor a) < batch.length := fun a ha =>
        List.findIdx_lt_length.2 (mem_agents_shown.1 ha)
      have hkept : (agents (shown batch)).Pairwise fun a b =>
          (batch ++ [m]).findIdx (isFor a) < (batch ++ [m]).findIdx (isFor b) := by
        refine ih.imp_of_mem fun {a b} ha hb hab => ?_
        rwa [List.findIdx_append, if_pos (hold a ha), List.findIdx_append, if_pos (hold b hb)]
      rw [shown_append]
      cases htest : m.isTest with
      | true =>
          have hnone : shown [m] = [] := by simp [shown, htest]
          rwa [hnone, List.append_nil]
      | false =>
          have hone : shown [m] = [m] := by simp [shown, htest]
          rw [hone, agents_concat]
          split
          · exact hkept
          · next hnew =>
            refine List.pairwise_append.2 ⟨hkept, List.pairwise_singleton _ _, ?_⟩
            rintro a ha b hb
            obtain rfl := List.mem_singleton.1 hb
            have hlate : ¬ batch.findIdx (isFor m.agent) < batch.length := fun h =>
              hnew (mem_agents_shown.2 (List.findIdx_lt_length.1 h))
            rw [List.findIdx_append, if_pos (hold a ha), List.findIdx_append, if_neg hlate]
            exact Nat.lt_of_lt_of_le (hold a ha) (Nat.le_add_left _ _)

end Message

end JournalCache

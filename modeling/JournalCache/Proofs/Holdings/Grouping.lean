import JournalCache.Holdings
import JournalCache.Proofs.SortedMap.Lookup
import Mathlib.Data.List.Induction
import Mathlib.Data.List.Nodup

/-!
# The groups of a batch

A batch is read once: each message goes to the end of its agent's group, which a map of places finds
and which is opened behind the others if there is none. What comes out is that each agent stands
where its first message stands, with all its messages in their order (`grouped_eq`). While the batch
is read, the groups are those of the messages read so far, and the map has the place of each
(`Grouping.Tracks`).
-/

namespace JournalCache

namespace Message

/-- The agents of the messages, in the order of their first appearance. -/
def agents (batch : List Message) : List String := (batch.map (·.agent)).eraseDups

def ofAgent (agent : String) (batch : List Message) : List Message :=
  batch.filter fun m => m.agent == agent

/-- The messages by agent, in the order of the agents' first appearance. -/
def groups (batch : List Message) : List (String × List Message) :=
  (agents batch).map fun agent => (agent, ofAgent agent batch)

variable {batch : List Message}

theorem mem_agents {agent : String} : agent ∈ agents batch ↔ ∃ m ∈ batch, m.agent = agent := by
  rw [agents, List.mem_eraseDups, List.mem_map]

theorem nodup_eraseDups : ∀ names : List String, names.eraseDups.Nodup
  | [] => .nil
  | a :: as => by
      have hlen : (as.filter fun b => !b == a).length < as.length + 1 :=
        Nat.lt_succ_of_le (List.length_filter_le _ _)
      rw [List.eraseDups_cons, List.nodup_cons]
      refine ⟨?_, nodup_eraseDups _⟩
      simp
termination_by names => names.length

theorem map_fst_groups (batch : List Message) : (groups batch).map (·.1) = agents batch := by
  rw [groups, List.map_map]
  exact List.map_id _

theorem mem_groups {g : String × List Message} :
    g ∈ groups batch ↔ g.1 ∈ agents batch ∧ g.2 = ofAgent g.1 batch := by
  rw [groups, List.mem_map]
  constructor
  · intro h
    rcases h with ⟨agent, hagent, rfl⟩
    exact ⟨hagent, rfl⟩
  · intro h
    rcases h with ⟨hagent, hmessages⟩
    exact ⟨g.1, hagent, by rw [← hmessages]⟩

/-! ## One message more -/

theorem modify_concat {α : Type} (f : α → α) (xs : List α) (x : α) :
    (xs ++ [x]).modify xs.length f = xs ++ [f x] := by
  induction xs with
  | nil => rfl
  | cons y xs ih => exact congrArg (y :: ·) ih

theorem getElem?_concat_eq_some {α : Type} {xs : List α} {x y : α} {k : Nat} :
    (xs ++ [x])[k]? = some y ↔ xs[k]? = some y ∨ k = xs.length ∧ x = y := by
  rcases Nat.lt_trichotomy k xs.length with h | rfl | h
  · simp [List.getElem?_append_left h, Nat.ne_of_lt h]
  · simp
  · have hold : xs[k]? = none := List.getElem?_eq_none (Nat.le_of_lt h)
    have hnew : (xs ++ [x])[k]? = none :=
      List.getElem?_eq_none (by rwa [List.length_append])
    simp [hold, hnew, Nat.ne_of_gt h]

variable {m : Message}

theorem agents_concat (batch : List Message) (m : Message) : agents (batch ++ [m]) =
    if m.agent ∈ agents batch then agents batch else agents batch ++ [m.agent] := by
  have hnames : m.agent ∈ agents batch ↔ m.agent ∈ batch.map (·.agent) := List.mem_eraseDups
  rw [agents, List.map_append, List.eraseDups_append, ← agents]
  by_cases h : m.agent ∈ batch.map (·.agent)
  · have hrest : [m.agent].removeAll (batch.map (·.agent)) = [] := by
      simpa [List.removeAll] using h
    rw [if_pos (hnames.2 h), List.map_singleton, hrest]
    exact List.append_nil _
  · have hrest : [m.agent].removeAll (batch.map (·.agent)) = [m.agent] := by
      simpa [List.removeAll] using h
    rw [if_neg (mt hnames.1 h), List.map_singleton, hrest]
    rfl

theorem ofAgent_concat (agent : String) (batch : List Message) (m : Message) :
    ofAgent agent (batch ++ [m]) =
      if m.agent = agent then ofAgent agent batch ++ [m] else ofAgent agent batch := by
  rw [ofAgent, List.filter_append, ← ofAgent]
  split
  · next h => simp [h]
  · next h => simp [h]

/-- The group of an agent that is known grows, at its place. -/
theorem groups_concat_of_getElem? {k : Nat} (h : (agents batch)[k]? = some m.agent) :
    groups (batch ++ [m]) = (groups batch).modify k fun g => (g.1, g.2 ++ [m]) := by
  refine List.ext_getElem? fun i => ?_
  rw [List.getElem?_modify, groups, groups, agents_concat, if_pos (List.mem_of_getElem? h),
    List.getElem?_map, List.getElem?_map]
  cases hi : (agents batch)[i]? with
  | none => rfl
  | some agent =>
      have hplace : k = i ↔ m.agent = agent := by
        constructor
        · rintro rfl
          exact Option.some.inj (h.symm.trans hi)
        · rintro rfl
          exact (List.getElem?_inj (List.getElem?_eq_some_iff.1 h).1 (nodup_eraseDups _)).1
            (h.trans hi.symm)
      rw [Option.map_some, ofAgent_concat, Option.map_some, Option.map_eq_map, Option.map_some]
      by_cases hk : k = i
      · rw [if_pos (hplace.1 hk), if_pos hk]
      · rw [if_neg (mt hplace.2 hk), if_neg hk]

/-- A new agent gets a group behind the others. -/
theorem groups_concat_of_notMem (h : m.agent ∉ agents batch) :
    groups (batch ++ [m]) = groups batch ++ [(m.agent, [m])] := by
  have hnone : ofAgent m.agent batch = [] := by
    rw [ofAgent, List.filter_eq_nil_iff]
    intro n hn hagent
    exact h (mem_agents.2 ⟨n, hn, by simpa using hagent⟩)
  have hothers : ∀ agent ∈ agents batch, (agent, ofAgent agent (batch ++ [m])) =
      (agent, ofAgent agent batch) := by
    intro agent hagent
    rw [ofAgent_concat, if_neg fun heq : m.agent = agent => h (heq ▸ hagent)]
  rw [groups, agents_concat, if_neg h, List.map_append, List.map_congr_left hothers,
    List.map_singleton, ofAgent_concat, if_pos rfl, hnone, ← groups]
  rfl

end Message

namespace Grouping

/-- The groups are those of the messages read so far, and every agent's place is known. -/
structure Tracks (batch : List Message) (g : Grouping) : Prop where
  groups : g.groups = Message.groups batch
  places : ∀ agent k, g.places.get? agent = some k ↔ (Message.agents batch)[k]? = some agent

variable {batch : List Message} {g : Grouping}

theorem tracks_empty : Tracks [] empty where
  groups := rfl
  places agent k := by simp [empty, Message.agents]

theorem Tracks.length (h : g.Tracks batch) : g.groups.length = (Message.agents batch).length := by
  rw [h.groups, Message.groups, List.length_map]

/-- An agent without a place has no message yet. -/
theorem Tracks.notMem (h : g.Tracks batch) {agent : String} (hnone : g.places.get? agent = none) :
    agent ∉ Message.agents batch := by
  intro hmem
  obtain ⟨k, hk⟩ := List.mem_iff_getElem?.1 hmem
  rw [(h.places agent k).2 hk] at hnone
  exact Option.some_ne_none _ hnone

theorem Tracks.add (h : g.Tracks batch) (m : Message) : (g.add m).Tracks (batch ++ [m]) := by
  cases hplace : g.places.get? m.agent with
  | some k =>
      have hk := (h.places m.agent k).1 hplace
      have hadd : g.add m =
          { g with groups := g.groups.modify k fun group => (group.1, group.2 ++ [m]) } := by
        rw [Grouping.add, place, hplace]
      rw [hadd]
      refine ⟨?_, fun agent i => ?_⟩
      · rw [Message.groups_concat_of_getElem? hk, h.groups]
      · rw [Message.agents_concat, if_pos (List.mem_of_getElem? hk)]
        exact h.places agent i
  | none =>
      have hnew := h.notMem hplace
      have hadd : g.add m =
          { groups := g.groups ++ [(m.agent, [m])]
            places := g.places.insert m.agent g.groups.length } := by
        rw [Grouping.add, place, hplace]
        dsimp only
        rw [Message.modify_concat, List.nil_append]
      rw [hadd]
      refine ⟨?_, fun agent i => ?_⟩
      · rw [Message.groups_concat_of_notMem hnew, h.groups]
      · rw [SortedMap.get?_insert, Message.agents_concat, if_neg hnew, h.length,
          Message.getElem?_concat_eq_some, ← h.places]
        by_cases hagent : agent = m.agent
        · rw [if_pos hagent, hagent, hplace]
          simp [eq_comm]
        · rw [if_neg hagent]
          simp [Ne.symm hagent]

end Grouping

namespace Message

/-- One pass over a batch makes its groups. -/
theorem grouped_eq (batch : List Message) : grouped batch = groups (shown batch) := by
  have htracks : ∀ batch : List Message, (batch.foldl Grouping.add .empty).Tracks batch := by
    intro batch
    induction batch using List.reverseRecOn with
    | nil => exact Grouping.tracks_empty
    | append_singleton batch m ih =>
        rw [List.foldl_concat]
        exact ih.add m
  exact (htracks (shown batch)).groups

end Message

end JournalCache

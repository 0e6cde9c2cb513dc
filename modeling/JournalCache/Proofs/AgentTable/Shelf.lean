import JournalCache.Proofs.AgentTable.Roster

/-!
# The registered queues themselves

A table and its registry do not hold copies: the registry is given the queue that the table made,
and shows what is put into it later. A shelf tells this apart. It keeps every queue that was made at
a place of its own; the table goes from agents to places, and the registry holds the places that it
was given. Doing the same with a roster and with a shelf leaves the same queues (`Shelves`), and the
place that the registry holds for an agent is the place of the table. With this, `RollCall` says
whom a table and its registry name after any moves, and what they show of them.
-/

namespace JournalCache

/-- The queues that were made, and who holds which of them. -/
structure Shelf where
  /-- Every queue that was made, at its place. -/
  queues : List (Queue Item)
  /-- The place of each agent's queue, as the table holds it. -/
  places : SortedMap String Nat
  /-- The agents and places that the registry was given, in order. -/
  given : List (String × Nat)
  registers : Bool
  isReleased : Bool
  refusesQueues : Bool

namespace Shelf

def start (registers : Bool) : Shelf := ⟨[], .empty, [], registers, false, false⟩

def move (s : Shelf) : RosterMove → Shelf
  | .ensure agent =>
    if s.places.contains agent then s
    else
      { s with
        queues := s.queues ++ [.empty]
        places := s.places.insert agent s.queues.length
        given :=
          if s.registers && !s.isReleased && !s.refusesQueues then
            s.given ++ [(agent, s.queues.length)]
          else s.given }
  | .put agent staged =>
    match s.places.get? agent with
    | some place => { s with queues := s.queues.modify place (·.putStaged staged) }
    | none => s
  | .release => { s with isReleased := true }
  | .refuseQueues on => { s with refusesQueues := on }
  | .failReleases _ => s

def run (s : Shelf) (ms : List RosterMove) : Shelf := ms.foldl move s

theorem run_concat (s : Shelf) (ms : List RosterMove) (m : RosterMove) :
    s.run (ms ++ [m]) = (s.run ms).move m := by
  rw [run, List.foldl_append]
  rfl

/-- The queue that the registry shows for an agent: the first that it was given. -/
def shown? (s : Shelf) (agent : String) : Option (Queue Item) :=
  (s.given.find? fun e => e.1 == agent).bind fun e => s.queues[e.2]?

/-- The queues of the shelf are those of the roster. -/
structure Shelves (s : Shelf) (r : Roster) : Prop where
  queue : ∀ agent, r.table.queue? agent = (s.places.get? agent).bind fun place => s.queues[place]?
  /-- A place of the table is there, and is of one agent only. -/
  place_lt : ∀ agent place, s.places.get? agent = some place → place < s.queues.length
  place_inj : ∀ agent other place,
    s.places.get? agent = some place → s.places.get? other = some place → agent = other
  /-- What the registry was given is what the table holds. -/
  given : ∀ e ∈ s.given, s.places.get? e.1 = some e.2
  listed : s.given.map (·.1) = r.registry.agents
  registers : s.registers = r.table.registers
  isReleased : s.isReleased = r.table.isReleased
  refusesQueues : s.refusesQueues = r.registry.refusesQueues

variable {s : Shelf} {r : Roster}

theorem shelves_start (number : Nat) (registers : Bool) :
    (start registers).Shelves (Roster.start number registers) where
  queue := fun _ => rfl
  place_lt := nofun
  place_inj := nofun
  given := nofun
  listed := rfl
  registers := rfl
  isReleased := rfl
  refusesQueues := rfl

theorem Shelves.isSome_queue? (h : s.Shelves r) (agent : String) :
    (r.table.queue? agent).isSome = (s.places.get? agent).isSome := by
  rw [h.queue]
  cases hplace : s.places.get? agent with
  | none => rfl
  | some place =>
      have hlt := h.place_lt agent place hplace
      simp [hlt]

/-! ## A queue is made -/

theorem Shelves.ensure_of_isSome (h : s.Shelves r) {agent : String}
    (hsome : (r.table.queue? agent).isSome) :
    (s.move (.ensure agent)).Shelves (r.move (.ensure agent)) := by
  have hplace : s.places.contains agent = true := by
    rw [SortedMap.contains, ← h.isSome_queue?, hsome]
  rw [move, if_pos hplace, Roster.move, AgentTable.ensure_of_isSome hsome]
  exact h

/-- After a queue is made, the new one is empty and the others are as they were. -/
theorem Shelves.queue_made (h : s.Shelves r) (agent other : String) :
    (r.table.queues.insert agent .empty).get? other =
      ((s.places.insert agent s.queues.length).get? other).bind
        fun place => (s.queues ++ [.empty])[place]? := by
  rw [SortedMap.get?_insert, SortedMap.get?_insert]
  by_cases hother : other = agent
  · simp [hother]
  · rw [if_neg hother, if_neg hother]
    refine (h.queue other).trans ?_
    cases hplace : s.places.get? other with
    | none => rfl
    | some place =>
        exact (List.getElem?_append_left (h.place_lt other place hplace)).symm

/-- A place that is held after a queue is made is the new one or was held before. -/
theorem place_made {agent other : String} {place : Nat}
    (hplace : (s.places.insert agent s.queues.length).get? other = some place) :
    other = agent ∧ place = s.queues.length ∨
      other ≠ agent ∧ s.places.get? other = some place := by
  rw [SortedMap.get?_insert] at hplace
  split at hplace
  · next heq => exact .inl ⟨heq, (Option.some.inj hplace).symm⟩
  · next hne => exact .inr ⟨hne, hplace⟩

theorem Shelves.place_made_lt (h : s.Shelves r) {agent other : String} {place : Nat}
    (hplace : (s.places.insert agent s.queues.length).get? other = some place) :
    place < (s.queues ++ [SortedMap.empty]).length := by
  rw [List.length_append]
  rcases place_made hplace with ⟨-, rfl⟩ | ⟨-, hold⟩
  · exact Nat.lt_succ_self _
  · exact Nat.lt_succ_of_lt (h.place_lt other place hold)

theorem Shelves.place_made_inj (h : s.Shelves r) {agent other another : String} {place : Nat}
    (hother : (s.places.insert agent s.queues.length).get? other = some place)
    (hanother : (s.places.insert agent s.queues.length).get? another = some place) :
    other = another := by
  rcases place_made hother with ⟨hnew, rfl⟩ | ⟨-, hold⟩
  · rcases place_made hanother with ⟨hnew', -⟩ | ⟨-, hold⟩
    · exact hnew.trans hnew'.symm
    · exact absurd (h.place_lt another _ hold) (Nat.lt_irrefl _)
  · rcases place_made hanother with ⟨-, rfl⟩ | ⟨-, hold'⟩
    · exact absurd (h.place_lt other _ hold) (Nat.lt_irrefl _)
    · exact h.place_inj other another place hold hold'

/-- What the registry was given is not touched when a queue is made for another agent. -/
theorem Shelves.given_made (h : s.Shelves r) {agent : String} (hnew : s.places.get? agent = none)
    {e : String × Nat} (he : e ∈ s.given) :
    (s.places.insert agent s.queues.length).get? e.1 = some e.2 := by
  have hheld := h.given e he
  rw [SortedMap.get?_insert, if_neg, hheld]
  intro heq
  rw [heq, hnew] at hheld
  cases hheld

theorem Shelves.ensure_of_none (h : s.Shelves r) {agent : String}
    (hnone : r.table.queue? agent = none) :
    (s.move (.ensure agent)).Shelves (r.move (.ensure agent)) := by
  have hnew : s.places.get? agent = none := by
    have hsome := h.isSome_queue? agent
    rw [hnone] at hsome
    exact Option.isNone_iff_eq_none.1 (by simpa using hsome)
  have hnot : ¬ s.places.contains agent := by
    rw [SortedMap.contains, hnew]
    exact Bool.false_ne_true
  have hregisters : (s.registers && !s.isReleased && !s.refusesQueues) =
      (r.table.registers && !r.table.isReleased && !r.registry.refusesQueues) := by
    rw [h.registers, h.isReleased, h.refusesQueues]
  rw [move, if_neg hnot, Roster.move, AgentTable.ensure_of_none hnone, hregisters]
  cases r.table.registers && !r.table.isReleased && !r.registry.refusesQueues with
  | false =>
      exact ⟨h.queue_made agent, fun _ _ => h.place_made_lt, fun _ _ _ => h.place_made_inj,
        fun _ => h.given_made hnew, h.listed, h.registers, h.isReleased, h.refusesQueues⟩
  | true =>
      refine ⟨h.queue_made agent, fun _ _ => h.place_made_lt, fun _ _ _ => h.place_made_inj, ?_,
        ?_, h.registers, h.isReleased, h.refusesQueues⟩
      · intro e he
        rcases List.mem_append.1 he with he | he
        · exact h.given_made hnew he
        · rw [List.mem_singleton.1 he]
          exact (SortedMap.get?_insert ..).trans (if_pos rfl)
      · have hlisted := h.listed
        rw [Registry.agents] at hlisted
        simp only [if_true, Registry.agents, List.map_append, hlisted]
        rfl

/-! ## Every move -/

theorem Shelves.put (h : s.Shelves r) (agent : String) (staged : Queue Item) :
    (s.move (.put agent staged)).Shelves (r.move (.put agent staged)) := by
  have hsome := h.isSome_queue? agent
  rw [move, Roster.move]
  cases hplace : s.places.get? agent with
  | none =>
      rw [hplace] at hsome
      have hnot : ¬ r.table.queues.contains agent := by
        rw [SortedMap.contains, ← AgentTable.queue?, hsome]
        exact Bool.false_ne_true
      rw [if_neg hnot]
      exact h
  | some place =>
      rw [hplace] at hsome
      rw [if_pos (show r.table.queues.contains agent = true from hsome)]
      refine ⟨fun other => ?_, ?_, h.place_inj, h.given, h.listed, h.registers, h.isReleased,
        h.refusesQueues⟩
      · change (r.table.queues.insert agent _).get? other = _
        rw [SortedMap.get?_insert]
        have hqueue := h.queue other
        by_cases hother : other = agent
        · -- the agent's own queue
          have hthere := List.getElem?_eq_getElem (h.place_lt agent place hplace)
          rw [hother, hplace, Option.bind_some, hthere] at hqueue
          simp [hother, hplace, AgentTable.queue, hqueue, List.getElem?_modify, hthere]
        · rw [if_neg hother]
          refine hqueue.trans ?_
          cases hheld : s.places.get? other with
          | none => rfl
          | some held =>
              have hne : place ≠ held := by
                rintro rfl
                exact hother (h.place_inj other agent place hheld hplace)
              simp [List.getElem?_modify, hne]
      · intro other held hheld
        rw [List.length_modify]
        exact h.place_lt other held hheld

theorem Shelves.release (h : s.Shelves r) : (s.move .release).Shelves (r.move .release) := by
  rw [Roster.move_release]
  exact ⟨h.queue, h.place_lt, h.place_inj, h.given, h.listed, h.registers, rfl, h.refusesQueues⟩

theorem Shelves.move (h : s.Shelves r) (m : RosterMove) : (s.move m).Shelves (r.move m) := by
  cases m with
  | ensure agent =>
      cases hqueue : r.table.queue? agent with
      | none => exact h.ensure_of_none hqueue
      | some q => exact h.ensure_of_isSome (by rw [hqueue]; rfl)
  | put agent staged => exact h.put agent staged
  | release => exact h.release
  | refuseQueues on =>
      exact ⟨h.queue, h.place_lt, h.place_inj, h.given, h.listed, h.registers, h.isReleased, rfl⟩
  | failReleases on =>
      exact ⟨h.queue, h.place_lt, h.place_inj, h.given, h.listed, h.registers, h.isReleased,
        h.refusesQueues⟩

theorem shelves_run (number : Nat) (registers : Bool) (ms : List RosterMove) :
    ((start registers).run ms).Shelves ((Roster.start number registers).run ms) := by
  induction ms using List.reverseRecOn with
  | nil => exact shelves_start number registers
  | append_singleton ms m ih =>
      rw [run_concat, Roster.run_concat]
      exact ih.move m

/-- The registry shows, for each agent that it lists, the queue of the table. -/
theorem Shelves.shown (h : s.Shelves r) {agent : String} (hagent : agent ∈ r.registry.agents) :
    ∃ q, r.table.queue? agent = some q ∧ s.shown? agent = some q := by
  rw [← h.listed] at hagent
  obtain ⟨e, he, rfl⟩ := List.mem_map.1 hagent
  cases hfind : s.given.find? fun f => f.1 == e.1 with
  | none => simpa using List.find?_eq_none.1 hfind e he
  | some f =>
      have hsame : f.1 = e.1 := by simpa using List.find?_some hfind
      have hplace := h.given f (List.mem_of_find?_eq_some hfind)
      have hlt := h.place_lt f.1 f.2 hplace
      have hthere := List.getElem?_eq_getElem hlt
      refine ⟨s.queues[f.2], ?_, ?_⟩
      · rw [← hsame, h.queue, hplace]
        exact hthere
      · rw [shown?, hfind]
        exact hthere

end Shelf

namespace Roster

/-! ## What a table and its registry keep -/

variable {s : Roster} {r₀ : Registry}

/-- A released table changes nothing in the registry, whatever is done. -/
theorem settled_run (h : s.table.Settled r₀ s.registry) (ms : List RosterMove) :
    (s.run ms).table.Settled r₀ (s.run ms).registry := by
  induction ms generalizing s with
  | nil => exact h
  | cons m ms ih =>
      refine ih ?_
      cases m with
      | ensure agent => exact h.ensure agent
      | put agent staged =>
          rw [move]
          split
          · exact h.put agent staged
          · exact h
      | release => exact h.release
      | refuseQueues on => exact ⟨h.isReleased, h.registrations, h.listings, h.released⟩
      | failReleases on => exact ⟨h.isReleased, h.registrations, h.listings, h.released⟩

/-- What a table and a registry that it alone uses show after the moves `ms`, and what of it stays
so whatever is done later. -/
structure RollCall (number : Nat) (registers : Bool) (ms : List RosterMove) (s : Roster) :
    Prop where
  /-- The agents with a queue are those whose queue was asked for, in the order of their names. -/
  agents_sorted : s.table.agents.Pairwise (· < ·)
  mem_agents : ∀ agent, agent ∈ s.table.agents ↔ ms.any (·.asksFor agent)
  agents_stay : ∀ more, s.table.agents ⊆ (s.run more).table.agents
  registered_nodup : s.registry.agents.Nodup
  registered_eq : s.registry.agents = enlisted registers [] ms
  /-- Who has a queue and is not registered never will be. -/
  missed : ∀ agent ∈ s.table.agents, agent ∉ s.registry.agents →
    ∀ more, agent ∉ (s.run more).registry.agents
  unreleased : ms.any RosterMove.isRelease = false → s.registry.released = []
  /-- Once the registrations were released, every one of them is, in the order of the names. -/
  released : ms.any RosterMove.isRelease →
    s.registry.released.Perm s.registry.agents ∧ s.registry.released.Pairwise (· < ·)
  settled : ms.any RosterMove.isRelease → ∀ more,
    (s.run more).registry.agents = s.registry.agents ∧
      (s.run more).registry.released = s.registry.released
  /-- The registry lists the queue of this table, and shows what is in it. -/
  shown : ∀ agent ∈ s.registry.agents,
    s.registry.listing? agent = some ⟨agent, number⟩ ∧
      ∃ q, s.table.queue? agent = some q ∧ ((Shelf.start registers).run ms).shown? agent = some q

variable {number : Nat} {registers : Bool} {ms : List RosterMove}

theorem any_asksFor_append (agent : String) (ms more : List RosterMove) :
    ms.any (·.asksFor agent) → (ms ++ more).any (·.asksFor agent) := by
  intro h
  rw [List.any_append, h, Bool.true_or]

theorem Recalls.mem_agents (h : Recalls registers ms s) (agent : String) :
    agent ∈ s.table.agents ↔ ms.any (·.asksFor agent) := by
  rw [← h.asked]
  exact SortedMap.mem_keys

/-- The first listing of an agent is of this table. -/
theorem Recalls.listing?_eq (h : Recalls registers ms s) {agent : String}
    (hagent : agent ∈ s.registry.agents) :
    s.registry.listing? agent = some ⟨agent, s.table.number⟩ := by
  obtain ⟨l, hl, rfl⟩ := List.mem_map.1 hagent
  cases hfind : s.registry.listing? l.agent with
  | none => simpa using List.find?_eq_none.1 hfind l hl
  | some k =>
      have hsame : k.agent = l.agent := by simpa using List.find?_some hfind
      have hnumber := h.number k (List.mem_of_find?_eq_some hfind)
      rw [← hsame, ← hnumber]

/-- Who was asked for before and is not registered is not registered later. -/
theorem Recalls.missed (h : Recalls registers ms s) {agent : String} {more : List RosterMove}
    (hmore : Recalls registers (ms ++ more) (s.run more)) (hagent : agent ∈ s.table.agents)
    (hnot : agent ∉ s.registry.agents) : agent ∉ (s.run more).registry.agents := by
  rw [hmore.listed, enlisted_append, List.mem_append, ← h.listed]
  rintro (hold | hnew)
  · exact hnot hold
  · have hasked := not_asked_of_mem_enlisted hnew
    rw [List.nil_append, (h.mem_agents agent).1 hagent] at hasked
    cases hasked

theorem number_run (s : Roster) (ms : List RosterMove) :
    (s.run ms).table.number = s.table.number := by
  induction ms generalizing s with
  | nil => rfl
  | cons m ms ih =>
      refine (ih (s.move m)).trans ?_
      cases m with
      | ensure agent =>
          rw [move]
          rcases s.table.ensure_cases s.registry agent with heq | ⟨-, heq | ⟨-, heq⟩⟩ <;> rw [heq]
      | put agent staged =>
          rw [move]
          split <;> rfl
      | release => rw [move_release]
      | _ => rfl

theorem rollCall (number : Nat) (registers : Bool) (ms : List RosterMove) :
    RollCall number registers ms ((start number registers).run ms) := by
  have h := recalls_run number registers ms
  have hmore : ∀ more,
      Recalls registers (ms ++ more) (((start number registers).run ms).run more) := by
    intro more
    rw [← run_append]
    exact recalls_run number registers (ms ++ more)
  refine ⟨?_, h.mem_agents, ?_, h.enrolled.nodup, h.listed, ?_, ?_, ?_, ?_, ?_⟩
  · rw [AgentTable.agents, SortedMap.keys, List.pairwise_map]
    exact SortedMap.increasing _
  · intro more agent hagent
    rw [(hmore more).mem_agents]
    exact any_asksFor_append agent ms more ((h.mem_agents agent).1 hagent)
  · intro agent hagent hnot more
    exact h.missed (hmore more) hagent hnot
  · intro hnever
    rw [← h.released] at hnever
    exact (h.enrolled.kept hnever).2
  · intro hreleased
    rw [← h.released] at hreleased
    exact (h.enrolled.released hreleased).2
  · intro hreleased more
    rw [← h.released] at hreleased
    have hsettled := settled_run (h.enrolled.settled hreleased) more
    refine ⟨?_, hsettled.released⟩
    rw [Registry.agents, hsettled.listings]
    rfl
  · intro agent hagent
    refine ⟨?_, (Shelf.shelves_run number registers ms).shown hagent⟩
    rw [h.listing?_eq hagent, number_run]
    rfl

end Roster

end JournalCache

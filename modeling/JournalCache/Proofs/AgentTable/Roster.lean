import JournalCache.Proofs.AgentTable.Registrations
import Mathlib.Data.List.Induction

/-!
# A table and its registry over time

A roster is a table that alone uses its registry. Queues are asked for, items are put into them, the
registrations are released any number of times, and the registry is told to refuse queues or to
report failures of releases, in any order. Which agents are registered then can be read off what was
done, without looking at any table: `enlisted` lists the agents whose queue was asked for the first
time while queues were registered, none had been released and the registry did not refuse.
-/

namespace JournalCache

inductive RosterMove where
  /-- The queue of an agent is asked for, and made if there is none. -/
  | ensure (agent : String)
  /-- Items are put into the queue of an agent, if it has one. -/
  | put (agent : String) (staged : Queue Item)
  | release
  | refuseQueues (on : Bool)
  | failReleases (on : Bool)

namespace RosterMove

def asksFor (agent : String) : RosterMove → Bool
  | .ensure other => other == agent
  | _ => false

def isRelease : RosterMove → Bool
  | .release => true
  | _ => false

/-- What the registry is told about refusing queues. -/
def refusal? : RosterMove → Option Bool
  | .refuseQueues on => some on
  | _ => none

end RosterMove

structure Roster where
  table : AgentTable
  registry : Registry

namespace Roster

def start (number : Nat) (registers : Bool) : Roster := ⟨.empty number registers, .empty⟩

def move (s : Roster) : RosterMove → Roster
  | .ensure agent => ⟨(s.table.ensure s.registry agent).1, (s.table.ensure s.registry agent).2⟩
  | .put agent staged =>
    if s.table.queues.contains agent then { s with table := s.table.put agent staged } else s
  | .release => ⟨(s.table.release s.registry).1, (s.table.release s.registry).2⟩
  | .refuseQueues on => { s with registry := { s.registry with refusesQueues := on } }
  | .failReleases on => { s with registry := { s.registry with failsReleases := on } }

def run (s : Roster) (ms : List RosterMove) : Roster := ms.foldl move s

theorem run_concat (s : Roster) (ms : List RosterMove) (m : RosterMove) :
    s.run (ms ++ [m]) = (s.run ms).move m := by
  rw [run, List.foldl_append]
  rfl

theorem run_append (s : Roster) (ms ns : List RosterMove) :
    s.run (ms ++ ns) = (s.run ms).run ns := List.foldl_append

/-! ## Who is to be registered -/

/-- Whether the registry refuses queues after `ms`: what it was told last counts. -/
def refusesAfter (ms : List RosterMove) : Bool :=
  ((ms.filterMap RosterMove.refusal?).getLast?).getD false

/-- Whether an agent is registered when its queue is asked for after `past`. -/
def enlists (registers : Bool) (past : List RosterMove) (agent : String) : Bool :=
  registers && !past.any (·.asksFor agent) && !past.any RosterMove.isRelease && !refusesAfter past

/-- The agents that are registered in the moves `ms`, made after `past`, in order. -/
def enlisted (registers : Bool) (past : List RosterMove) : List RosterMove → List String
  | [] => []
  | .ensure agent :: ms =>
    (if enlists registers past agent then [agent] else []) ++
      enlisted registers (past ++ [.ensure agent]) ms
  | m :: ms => enlisted registers (past ++ [m]) ms

def newcomer (registers : Bool) (past : List RosterMove) : RosterMove → List String
  | .ensure agent => if enlists registers past agent then [agent] else []
  | _ => []

variable {registers : Bool} {past ms ns : List RosterMove} {m : RosterMove}

theorem enlisted_cons (past : List RosterMove) (m : RosterMove) (ms : List RosterMove) :
    enlisted registers past (m :: ms) =
      newcomer registers past m ++ enlisted registers (past ++ [m]) ms := by
  cases m <;> rfl

theorem enlisted_append (past ms ns : List RosterMove) :
    enlisted registers past (ms ++ ns) =
      enlisted registers past ms ++ enlisted registers (past ++ ms) ns := by
  induction ms generalizing past with
  | nil => rw [List.append_nil]; rfl
  | cons m ms ih =>
      rw [List.cons_append, enlisted_cons, enlisted_cons, ih, List.append_assoc, List.append_assoc]
      rfl

theorem enlisted_concat (ms : List RosterMove) (m : RosterMove) :
    enlisted registers [] (ms ++ [m]) = enlisted registers [] ms ++ newcomer registers ms m := by
  rw [enlisted_append, enlisted_cons]
  exact congrArg _ (List.append_nil _)

/-- Nobody whose queue was asked for before is registered later. -/
theorem not_asked_of_mem_enlisted {agent : String} (h : agent ∈ enlisted registers past ms) :
    past.any (·.asksFor agent) = false := by
  induction ms generalizing past with
  | nil => cases h
  | cons m ms ih =>
      rw [enlisted_cons, List.mem_append] at h
      rcases h with h | h
      · cases m with
        | ensure other =>
            rw [newcomer] at h
            split at h
            · next henlists =>
                obtain rfl := List.mem_singleton.1 h
                simp only [enlists, Bool.and_eq_true, Bool.not_eq_true'] at henlists
                exact henlists.1.1.2
            · cases h
        | _ => cases h
      · have hrest := ih h
        rw [List.any_append, Bool.or_eq_false_iff] at hrest
        exact hrest.1

theorem refusesAfter_concat (ms : List RosterMove) (m : RosterMove) :
    refusesAfter (ms ++ [m]) = m.refusal?.getD (refusesAfter ms) := by
  rw [refusesAfter, List.filterMap_append]
  cases hm : m.refusal? with
  | none => rw [List.filterMap_cons_none hm, List.filterMap_nil, List.append_nil]; rfl
  | some on => rw [List.filterMap_cons_some hm, List.filterMap_nil, List.getLast?_concat]; rfl

end Roster

namespace Roster

variable {registers : Bool} {ms ns : List RosterMove} {m : RosterMove} {s : Roster}

/-! ## What a roster keeps of what was done -/

/-- The roster is what the moves `ms` leave of one that registers queues or not. -/
structure Recalls (registers : Bool) (ms : List RosterMove) (s : Roster) : Prop where
  asked : ∀ agent, (s.table.queue? agent).isSome = ms.any (·.asksFor agent)
  registers_eq : s.table.registers = registers
  released : s.table.isReleased = ms.any RosterMove.isRelease
  refuses : s.registry.refusesQueues = refusesAfter ms
  listed : s.registry.agents = enlisted registers [] ms
  /-- Every listing is of this table. -/
  number : ∀ l ∈ s.registry.listings, l.table = s.table.number
  enrolled : s.table.Enrolled s.registry

theorem recalls_start (number : Nat) (registers : Bool) :
    Recalls registers [] (start number registers) where
  asked := fun _ => rfl
  registers_eq := rfl
  released := rfl
  refuses := rfl
  listed := rfl
  number := nofun
  enrolled := AgentTable.enrolled_empty number registers rfl rfl

theorem any_concat (p : RosterMove → Bool) (ms : List RosterMove) (m : RosterMove) :
    (ms ++ [m]).any p = (ms.any p || p m) := by
  rw [List.any_append, List.any_cons, List.any_nil, Bool.or_false]

theorem isSome_get?_insert (t : AgentTable) (agent other : String) (q : Queue Item) :
    ((t.queues.insert agent q).get? other).isSome =
      ((t.queue? other).isSome || agent == other) := by
  rw [SortedMap.get?_insert]
  by_cases h : other = agent
  · simp [h]
  · simp [h, Ne.symm h, AgentTable.queue?]

/-- What decides whether a new queue is registered. -/
theorem Recalls.enlists_eq (h : Recalls registers ms s) {agent : String}
    (hnone : s.table.queue? agent = none) :
    enlists registers ms agent =
      (s.table.registers && !s.table.isReleased && !s.registry.refusesQueues) := by
  have hasked := h.asked agent
  rw [hnone] at hasked
  rw [enlists, ← hasked, h.registers_eq, h.released, h.refuses]
  simp

/-- Asking for a queue releases nothing. -/
theorem Recalls.released_ensure (h : Recalls registers ms s) (agent : String) :
    s.table.isReleased = (ms ++ [RosterMove.ensure agent]).any RosterMove.isRelease := by
  rw [any_concat, h.released]
  exact (Bool.or_false _).symm

theorem Recalls.refuses_ensure (h : Recalls registers ms s) (agent : String) :
    s.registry.refusesQueues = refusesAfter (ms ++ [.ensure agent]) := by
  rw [refusesAfter_concat]
  exact h.refuses

theorem Recalls.ensure_of_isSome (h : Recalls registers ms s) {agent : String}
    (hsome : (s.table.queue? agent).isSome) :
    Recalls registers (ms ++ [.ensure agent]) (s.move (.ensure agent)) := by
  have hasked : ms.any (·.asksFor agent) = true := by rw [← h.asked, hsome]
  have hmove : s.move (.ensure agent) = s := by
    rw [move, AgentTable.ensure_of_isSome hsome]
  rw [hmove]
  refine ⟨fun other => ?_, h.registers_eq, h.released_ensure agent, h.refuses_ensure agent, ?_,
    h.number, h.enrolled⟩
  · rw [any_concat, h.asked]
    by_cases hother : agent = other
    · rw [← hother, hasked, Bool.true_or]
    · simp [RosterMove.asksFor, hother]
  · rw [enlisted_concat, newcomer, enlists, hasked, h.listed]
    simp

theorem Recalls.ensure_of_none (h : Recalls registers ms s) {agent : String}
    (hnone : s.table.queue? agent = none) :
    Recalls registers (ms ++ [.ensure agent]) (s.move (.ensure agent)) := by
  have henrolled := h.enrolled.ensure agent
  have hasked : ∀ other,
      ((s.table.queues.insert agent .empty).get? other).isSome =
        (ms ++ [RosterMove.ensure agent]).any (·.asksFor other) := by
    intro other
    rw [isSome_get?_insert, any_concat, h.asked]
    rfl
  rw [AgentTable.ensure_of_none hnone, ← h.enlists_eq hnone] at henrolled
  rw [move, AgentTable.ensure_of_none hnone, ← h.enlists_eq hnone]
  cases hnew : enlists registers ms agent with
  | true =>
      rw [hnew] at henrolled
      refine ⟨hasked, h.registers_eq, h.released_ensure agent, h.refuses_ensure agent, ?_, ?_,
        henrolled⟩
      · rw [enlisted_concat, newcomer, hnew, ← h.listed]
        exact List.map_append
      · intro l hl
        rcases List.mem_append.1 hl with hl | hl
        · exact h.number l hl
        · rw [List.mem_singleton.1 hl]
          rfl
  | false =>
      rw [hnew] at henrolled
      refine ⟨hasked, h.registers_eq, h.released_ensure agent, h.refuses_ensure agent, ?_,
        h.number, henrolled⟩
      rw [enlisted_concat, newcomer, hnew, ← h.listed]
      exact (List.append_nil _).symm

/-- What a move that asks for no queue and releases nothing leaves. -/
theorem Recalls.other (h : Recalls registers ms s) {table : AgentTable} {registry : Registry}
    (hensure : ∀ agent, m.asksFor agent = false) (hrelease : m.isRelease = false)
    (hasked : ∀ agent, (table.queue? agent).isSome = (s.table.queue? agent).isSome)
    (hregisters : table.registers = s.table.registers)
    (hreleased : table.isReleased = s.table.isReleased) (hnumber : table.number = s.table.number)
    (hrefuses : registry.refusesQueues = m.refusal?.getD s.registry.refusesQueues)
    (hlistings : registry.listings = s.registry.listings) (henrolled : table.Enrolled registry) :
    Recalls registers (ms ++ [m]) ⟨table, registry⟩ where
  asked := fun agent => by rw [any_concat, hensure, Bool.or_false, ← h.asked, hasked]
  registers_eq := hregisters.trans h.registers_eq
  released := by rw [any_concat, hrelease, Bool.or_false, ← h.released, hreleased]
  refuses := by rw [refusesAfter_concat, ← h.refuses, hrefuses]
  listed := by
    have hnobody : newcomer registers ms m = [] := by
      cases m with
      | ensure agent => simp [RosterMove.asksFor] at hensure
      | _ => rfl
    rw [enlisted_concat, hnobody, List.append_nil, ← h.listed, Registry.agents, hlistings]
    rfl
  number := by
    rw [hlistings, hnumber]
    exact h.number
  enrolled := henrolled

theorem move_release (s : Roster) : s.move .release =
    ⟨{ s.table with registrations := .empty, isReleased := true },
      { s.registry with released := s.registry.released ++ s.table.registrations.keys }⟩ := by
  rw [move, AgentTable.release_eq]

theorem Recalls.release (h : Recalls registers ms s) :
    Recalls registers (ms ++ [.release]) (s.move .release) := by
  have henrolled : (s.move .release).table.Enrolled (s.move .release).registry :=
    h.enrolled.release
  rw [move_release] at henrolled ⊢
  refine ⟨fun agent => ?_, h.registers_eq, ?_, ?_, ?_, h.number, henrolled⟩
  · rw [any_concat, ← h.asked]
    exact (Bool.or_false _).symm
  · rw [any_concat]
    exact (Bool.or_true _).symm
  · rw [refusesAfter_concat, ← h.refuses]
    rfl
  · rw [enlisted_concat, ← h.listed]
    exact (List.append_nil _).symm

theorem Recalls.move (h : Recalls registers ms s) (m : RosterMove) :
    Recalls registers (ms ++ [m]) (s.move m) := by
  cases m with
  | ensure agent =>
      cases hqueue : s.table.queue? agent with
      | none => exact h.ensure_of_none hqueue
      | some q => exact h.ensure_of_isSome (by rw [hqueue]; rfl)
  | release => exact h.release
  | put agent staged =>
      rw [Roster.move]
      split
      · next hsome =>
          refine h.other (fun _ => rfl) rfl (fun other => ?_) rfl rfl rfl rfl rfl
            (h.enrolled.put agent staged)
          have hput := isSome_get?_insert s.table agent other
            ((s.table.queue agent).putStaged staged)
          refine hput.trans ?_
          by_cases hother : agent = other
          · have hagent : (s.table.queue? agent).isSome := hsome
            rw [← hother, hagent, Bool.true_or]
          · simp [hother]
      · exact h.other (fun _ => rfl) rfl (fun _ => rfl) rfl rfl rfl rfl rfl h.enrolled
  | refuseQueues on =>
      exact h.other (fun _ => rfl) rfl (fun _ => rfl) rfl rfl rfl rfl rfl
        (h.enrolled.congr rfl rfl)
  | failReleases on =>
      exact h.other (fun _ => rfl) rfl (fun _ => rfl) rfl rfl rfl rfl rfl
        (h.enrolled.congr rfl rfl)

theorem recalls_run (number : Nat) (registers : Bool) (ms : List RosterMove) :
    Recalls registers ms ((start number registers).run ms) := by
  induction ms using List.reverseRecOn with
  | nil => exact recalls_start number registers
  | append_singleton ms m ih =>
      rw [run_concat]
      exact ih.move m

end Roster

end JournalCache

import JournalCache.Proofs.AgentTable.Roster

/-!
# Who is registered when queues are asked for

When the queues of several agents are asked for one after another, the agents that had none are
registered in this order, if queues are registered and the registry does not refuse (`Enlists`).
-/

namespace JournalCache

namespace AgentTable

variable {t t₁ t₂ : AgentTable} {r r₁ r₂ : Registry} {agent : String} {names : List String}

def newcomers (t : AgentTable) (names : List String) : List String :=
  names.filter fun agent => (t.queue? agent).isNone

/-- The agents that are registered when their queues are asked for. -/
def enlisted (t : AgentTable) (r : Registry) (names : List String) : List String :=
  if t.registers && !t.isReleased && !r.refusesQueues then t.newcomers names else []

/-- All that a table and a registry make of it when queues of these agents are asked for, but for
the queues. -/
structure Enlists (names : List String) (t : AgentTable) (r : Registry) (t' : AgentTable)
    (r' : Registry) : Prop where
  number : t'.number = t.number
  registers : t'.registers = t.registers
  isReleased : t'.isReleased = t.isReleased
  registrations : ∀ agent, t'.registrations.get? agent =
    if agent ∈ t.enlisted r names then some ⟨agent, t.number⟩ else t.registrations.get? agent
  registry : r' =
    { r with listings := r.listings ++ (t.enlisted r names).map fun agent => ⟨agent, t.number⟩ }

/-- Where nobody is registered, nothing but queues can change. -/
theorem enlists_of_eq_nil (h : t.enlisted r names = []) (queues : SortedMap String (Queue Item)) :
    Enlists names t r { t with queues } r := by
  refine ⟨rfl, rfl, rfl, fun agent => ?_, ?_⟩
  · rw [h, if_neg List.not_mem_nil]
  · rw [h, List.map_nil, List.append_nil]

theorem enlists_nil (t : AgentTable) (r : Registry) : Enlists [] t r t r := by
  have hnobody : t.enlisted r [] = [] := ite_self _
  exact enlists_of_eq_nil hnobody t.queues

theorem enlists_ensure (t : AgentTable) (r : Registry) (agent : String) :
    Enlists [agent] t r (t.ensure r agent).1 (t.ensure r agent).2 := by
  cases hqueue : t.queue? agent with
  | some q =>
      have hnobody : t.enlisted r [agent] = [] := by simp [enlisted, newcomers, hqueue]
      rw [ensure_of_isSome (by rw [hqueue]; rfl)]
      exact enlists_of_eq_nil hnobody t.queues
  | none =>
      have hnew : t.newcomers [agent] = [agent] := by simp [newcomers, hqueue]
      rw [ensure_of_none hqueue]
      split
      · next hopen =>
        have honly : t.enlisted r [agent] = [agent] := (if_pos hopen).trans hnew
        refine ⟨rfl, rfl, rfl, fun other => ?_, ?_⟩
        · rw [honly, SortedMap.get?_insert]
          by_cases h : other = agent <;> simp [h]
        · rw [honly]
          rfl
      · next hclosed => exact enlists_of_eq_nil (if_neg hclosed) _

theorem Enlists.put (h : Enlists names t r t₁ r₁) (agent : String) (staged : Queue Item) :
    Enlists names t r (t₁.put agent staged) r₁ :=
  ⟨h.number, h.registers, h.isReleased, h.registrations, h.registry⟩

/-- Queues of others are asked for afterwards. -/
theorem Enlists.trans {others all : List String} (h : Enlists names t r t₁ r₁)
    (h' : Enlists others t₁ r₁ t₂ r₂)
    (hall : t.newcomers all = t.newcomers names ++ t₁.newcomers others) :
    Enlists all t r t₂ r₂ := by
  have hopen : (t₁.registers && !t₁.isReleased && !r₁.refusesQueues) =
      (t.registers && !t.isReleased && !r.refusesQueues) := by
    rw [h.registers, h.isReleased, h.registry]
  have henlisted : t.enlisted r all = t.enlisted r names ++ t₁.enlisted r₁ others := by
    unfold enlisted
    rw [hopen, hall]
    split <;> rfl
  refine ⟨h'.number.trans h.number, h'.registers.trans h.registers,
    h'.isReleased.trans h.isReleased, fun other => ?_, ?_⟩
  · rw [h'.registrations, h.registrations, h.number, henlisted]
    by_cases hfirst : other ∈ t.enlisted r names
    · simp [hfirst]
    · simp [hfirst]
  · have hlater := h'.registry
    rw [h.number] at hlater
    generalize t₁.enlisted r₁ others = later at hlater henlisted
    rw [hlater, h.registry, henlisted, List.map_append, List.append_assoc]

theorem Enlists.cons (h : Enlists [agent] t r t₁ r₁)
    (hqueues : ∀ name ∈ names, t₁.queue? name = t.queue? name) (hrest : Enlists names t₁ r₁ t₂ r₂) :
    Enlists (agent :: names) t r t₂ r₂ := by
  refine h.trans hrest ?_
  have hnew : t₁.newcomers names = t.newcomers names := by
    refine List.filter_congr fun name hname => ?_
    rw [hqueues name hname]
  rw [hnew]
  exact List.filter_append [agent] names

/-- Nothing but the queues is left open. -/
theorem Enlists.eq (h₁ : Enlists names t r t₁ r₁) (h₂ : Enlists names t r t₂ r₂)
    (hqueues : t₁.queues = t₂.queues) : t₁ = t₂ ∧ r₁ = r₂ := by
  have hnumber := h₁.number.trans h₂.number.symm
  have hregisters := h₁.registers.trans h₂.registers.symm
  have hreleased := h₁.isReleased.trans h₂.isReleased.symm
  have hregistrations : t₁.registrations = t₂.registrations :=
    SortedMap.ext_get? fun agent => (h₁.registrations agent).trans (h₂.registrations agent).symm
  refine ⟨?_, h₁.registry.trans h₂.registry.symm⟩
  cases t₁
  cases t₂
  cases hnumber
  cases hregisters
  cases hreleased
  cases hregistrations
  cases hqueues
  rfl

end AgentTable

end JournalCache

import JournalCache.AgentTable
import JournalCache.Proofs.SortedMap.Lookup

/-!
# What asking for a queue and releasing come to

Nothing comes in between while a queue is registered, so the second look at whether the
registrations were released finds what the first one found (`register_eq`), and what asking for a
queue does is said by the table and the registry as they are (`ensure_of_none`). Releasing takes out
one registration after another, in the order of the names, until none is left (`release_eq`).
-/

namespace JournalCache

namespace SortedMap

variable {κ ν : Type} [LT κ] [DecidableLT κ] [LE κ] [Std.LawfulOrderLT κ]

/-- Without its first entry a map has the others. -/
theorem entries_erase_first {m : SortedMap κ ν} {e : κ × ν} {es : List (κ × ν)}
    (h : m.entries = e :: es) : (m.erase e.1).entries = es := by
  have hincreasing := m.increasing
  rw [h, List.pairwise_cons] at hincreasing
  have hself : ¬ (e.1 < e.1 ∨ e.1 < e.1) := fun hlt => Std.lt_irrefl (hlt.elim id id)
  change m.entries.filter _ = es
  rw [h, List.filter_cons_of_neg (by simpa using hself), List.filter_eq_self]
  intro f hf
  simpa using Or.inr (hincreasing.1 f hf)

end SortedMap

namespace AgentTable

variable {t : AgentTable} {r : Registry} {agent : String}

/-! ## Asking for a queue -/

theorem register_eq (t : AgentTable) (r : Registry) (agent : String) : t.register r agent =
    if t.isReleased || r.refusesQueues then (t, r)
    else
      ({ t with registrations := t.registrations.insert agent ⟨agent, t.number⟩ },
        { r with listings := r.listings ++ [⟨agent, t.number⟩] }) := by
  unfold register Registry.register
  cases t.isReleased with
  | true => rfl
  | false => cases r.refusesQueues <;> rfl

theorem ensure_of_isSome (h : (t.queue? agent).isSome) : t.ensure r agent = (t, r) :=
  if_pos h

/-- A new queue is registered if queues are, none was released and the registry does not refuse. -/
theorem ensure_of_none (h : t.queue? agent = none) :
    t.ensure r agent =
      if t.registers && !t.isReleased && !r.refusesQueues then
        ({ t with
            queues := t.queues.insert agent .empty
            registrations := t.registrations.insert agent ⟨agent, t.number⟩ },
          { r with listings := r.listings ++ [⟨agent, t.number⟩] })
      else ({ t with queues := t.queues.insert agent .empty }, r) := by
  have hnot : ¬ t.queues.contains agent := by
    rw [SortedMap.contains, ← queue?, h]
    exact Bool.false_ne_true
  rw [ensure, if_neg hnot]
  dsimp only
  rw [register_eq]
  cases t.registers <;> cases t.isReleased <;> cases r.refusesQueues <;> rfl

/-! ## Releasing -/

theorem releaseOne_first {e : String × Listing} {es : List (String × Listing)}
    (h : t.registrations.entries = e :: es) (r : Registry) :
    t.releaseOne r e.1 =
      ({ t with registrations := t.registrations.erase e.1 }, (r.release e.1).1) := by
  have hget : t.registrations.get? e.1 = some e.2 :=
    SortedMap.get?_eq_some.2 (h ▸ List.mem_cons_self)
  rw [releaseOne, if_pos (by rw [SortedMap.contains, hget]; rfl)]

theorem release_eq (t : AgentTable) (r : Registry) : t.release r =
    ({ t with registrations := .empty, isReleased := true },
      { r with released := r.released ++ t.registrations.keys }) := by
  have hfold : ∀ (es : List (String × Listing)) (t : AgentTable) (r : Registry),
      t.registrations.entries = es →
      (es.map (·.1)).foldl (fun s agent => s.1.releaseOne s.2 agent) (t, r) =
        ({ t with registrations := .empty },
          { r with released := r.released ++ es.map (·.1) }) := by
    intro es
    induction es with
    | nil =>
        intro t r h
        have hempty : t.registrations = .empty := SortedMap.ext h
        rw [List.map_nil, List.foldl_nil, List.append_nil, ← hempty]
    | cons e es ih =>
        intro t r h
        rw [List.map_cons, List.foldl_cons, releaseOne_first h, ih _ _
          (SortedMap.entries_erase_first h), Registry.release, List.append_assoc]
        rfl
  exact hfold _ { t with isReleased := true } r rfl

theorem release_fst (t : AgentTable) (r : Registry) :
    (t.release r).1 = { t with registrations := .empty, isReleased := true } := by
  rw [release_eq]

/-- Releasing writes down the names of all registrations. -/
theorem release_snd (t : AgentTable) (r : Registry) :
    (t.release r).2 = { r with released := r.released ++ t.registrations.keys } := by
  rw [release_eq]

end AgentTable

end JournalCache

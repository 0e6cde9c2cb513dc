import JournalCache.Proofs.Holdings.Marks

/-!
# Registering and releasing

A table registers a queue when it makes it, if it registers at all and the registry does not refuse,
and until the registrations are released. So the registry lists agents that have a queue, each once;
while the table is open these are the registrations that it keeps, and at the release every one of
them is released, in the order of the names (`Enrolled`). A table that was released changes nothing
in the registry any more (`Settled`).
-/

namespace JournalCache

namespace AgentTable

variable {t : AgentTable} {r : Registry}

/-- All that asking for a queue can do. -/
theorem ensure_cases (t : AgentTable) (r : Registry) (agent : String) :
    t.ensure r agent = (t, r) ∨ t.queue? agent = none ∧
      (t.ensure r agent = ({ t with queues := t.queues.insert agent .empty }, r) ∨
        t.isReleased = false ∧ t.ensure r agent =
          ({ t with
              queues := t.queues.insert agent .empty
              registrations := t.registrations.insert agent ⟨agent, t.number⟩ },
            { r with listings := r.listings ++ [⟨agent, t.number⟩] })) := by
  cases hqueue : t.queue? agent with
  | some q => exact .inl (ensure_of_isSome (by rw [hqueue]; rfl))
  | none =>
      refine .inr ⟨rfl, ?_⟩
      rw [ensure_of_none hqueue]
      split
      · next hopen =>
        rw [Bool.and_eq_true, Bool.and_eq_true, Bool.not_eq_true'] at hopen
        exact .inr ⟨hopen.1.2, rfl⟩
      · exact .inl rfl

/-! ## What the registry lists -/

/-- How the registry stands to a table that alone uses it. -/
structure Enrolled (t : AgentTable) (r : Registry) : Prop where
  known : ∀ agent ∈ r.agents, (t.queue? agent).isSome
  nodup : r.agents.Nodup
  kept : t.isReleased = false → t.registrations.keys.Perm r.agents ∧ r.released = []
  released : t.isReleased → t.registrations = .empty ∧ r.released.Perm r.agents ∧
    r.released.Pairwise (· < ·)

theorem enrolled_empty (number : Nat) (registers : Bool) {r : Registry}
    (hlistings : r.listings = []) (hreleased : r.released = []) :
    (empty number registers).Enrolled r where
  known := by simp [Registry.agents, hlistings]
  nodup := by simp [Registry.agents, hlistings]
  kept := fun _ => ⟨by rw [Registry.agents, hlistings]; rfl, hreleased⟩
  released := nofun

/-- Only what is listed and released matters. -/
theorem Enrolled.congr (h : t.Enrolled r) {s : Registry} (hlistings : s.listings = r.listings)
    (hreleased : s.released = r.released) : t.Enrolled s := by
  have hagents : s.agents = r.agents := by rw [Registry.agents, hlistings, Registry.agents]
  exact ⟨hagents ▸ h.known, hagents ▸ h.nodup, hagents ▸ hreleased ▸ h.kept,
    hagents ▸ hreleased ▸ h.released⟩

/-- What more queues do, and other items in them. -/
theorem Enrolled.grow (h : t.Enrolled r) {queues : SortedMap String (Queue Item)}
    (hqueues : ∀ agent, (t.queue? agent).isSome → (queues.get? agent).isSome) :
    { t with queues }.Enrolled r :=
  ⟨fun agent hagent => hqueues agent (h.known agent hagent), h.nodup, h.kept, h.released⟩

theorem isSome_get?_insert {agent other : String} (q : Queue Item)
    (h : (t.queue? other).isSome) : ((t.queues.insert agent q).get? other).isSome := by
  rw [SortedMap.get?_insert]
  split
  · rfl
  · exact h

theorem Enrolled.put (h : t.Enrolled r) (agent : String) (staged : Queue Item) :
    (t.put agent staged).Enrolled r :=
  h.grow fun _ => isSome_get?_insert _

theorem Enrolled.ensure (h : t.Enrolled r) (agent : String) :
    (t.ensure r agent).1.Enrolled (t.ensure r agent).2 := by
  have hgrow : { t with queues := t.queues.insert agent .empty }.Enrolled r :=
    h.grow fun _ => isSome_get?_insert _
  rcases t.ensure_cases r agent with heq | ⟨hnone, heq | ⟨hopen, heq⟩⟩
  · rw [heq]
    exact h
  · rw [heq]
    exact hgrow
  · rw [heq]
    obtain ⟨hkeys, hreleased⟩ := h.kept hopen
    have hnew : agent ∉ r.agents := by
      intro hagent
      have hsome := h.known agent hagent
      rw [hnone] at hsome
      cases hsome
    have hagents : ({ r with listings := r.listings ++ [⟨agent, t.number⟩] } : Registry).agents =
        r.agents ++ [agent] := by
      rw [Registry.agents, List.map_append]
      rfl
    refine ⟨?_, ?_, fun _ => ⟨?_, hreleased⟩, fun hclosed => ?_⟩
    · rw [hagents]
      intro other hother
      rcases List.mem_append.1 hother with hother | hother
      · exact hgrow.known other hother
      · rw [List.mem_singleton.1 hother]
        change ((t.queues.insert agent .empty).get? agent).isSome
        rw [SortedMap.get?_insert, if_pos rfl]
        rfl
    · rw [hagents, List.nodup_append]
      refine ⟨h.nodup, List.pairwise_singleton _ agent, ?_⟩
      rintro a ha b hb rfl
      exact hnew (List.mem_singleton.1 hb ▸ ha)
    · rw [hagents]
      have hfresh : agent ∉ t.registrations.keys := fun hmem => hnew (hkeys.mem_iff.1 hmem)
      exact (SortedMap.perm_keys_insert hfresh _).trans (hkeys.append_right _)
    · rw [hopen] at hclosed
      cases hclosed

theorem Enrolled.release (h : t.Enrolled r) : (t.release r).1.Enrolled (t.release r).2 := by
  rw [release_fst, release_snd]
  refine ⟨h.known, h.nodup, nofun, fun _ => ⟨rfl, ?_⟩⟩
  change (r.released ++ t.registrations.keys).Perm r.agents ∧ _
  cases hreleased : t.isReleased with
  | true =>
      obtain ⟨hnone, hperm, hsorted⟩ := h.released hreleased
      have hkeys : t.registrations.keys = [] := by rw [hnone]; rfl
      rw [hkeys, List.append_nil]
      exact ⟨hperm, by simpa using hsorted⟩
  | false =>
      obtain ⟨hkeys, hnone⟩ := h.kept hreleased
      rw [hnone, List.nil_append]
      refine ⟨hkeys, ?_⟩
      rw [SortedMap.keys, List.pairwise_map]
      exact t.registrations.increasing

/-! ## After the release -/

/-- A table was released, and the registry lists and released what `r₀` did. -/
structure Settled (r₀ : Registry) (t : AgentTable) (r : Registry) : Prop where
  isReleased : t.isReleased
  registrations : t.registrations = .empty
  listings : r.listings = r₀.listings
  released : r.released = r₀.released

variable {r₀ : Registry}

theorem Settled.ensure (h : t.Settled r₀ r) (agent : String) :
    (t.ensure r agent).1.Settled r₀ (t.ensure r agent).2 := by
  rcases t.ensure_cases r agent with heq | ⟨-, heq | ⟨hopen, -⟩⟩
  · rw [heq]
    exact h
  · rw [heq]
    exact ⟨h.isReleased, h.registrations, h.listings, h.released⟩
  · rw [h.isReleased] at hopen
    cases hopen

theorem Settled.put (h : t.Settled r₀ r) (agent : String) (staged : Queue Item) :
    (t.put agent staged).Settled r₀ r :=
  ⟨h.isReleased, h.registrations, h.listings, h.released⟩

theorem Settled.release (h : t.Settled r₀ r) : (t.release r).1.Settled r₀ (t.release r).2 := by
  rw [release_fst, release_snd]
  refine ⟨rfl, rfl, h.listings, ?_⟩
  rw [h.registrations]
  exact (List.append_nil _).trans h.released

theorem Enrolled.settled (h : t.Enrolled r) (hreleased : t.isReleased) : t.Settled r r :=
  ⟨hreleased, (h.released hreleased).1, rfl, rfl⟩

end AgentTable

namespace Holdings

variable {P : AgentTable → Registry → Prop}

/-- What asking for queues and putting items into them keeps, merging keeps. -/
theorem merge_keeps
    (hensure : ∀ t r agent, P t r → P (t.ensure r agent).1 (t.ensure r agent).2)
    (hput : ∀ t r agent staged, P t r → P (t.put agent staged) r) (h : Holdings) (o : Outlet)
    (batch : List Message) (hP : P h.table o.registry) :
    P (h.merge o batch).1.table (h.merge o batch).2.registry := by
  have hgroups : ∀ (gs : List (String × List Message)) (s : Holdings × Outlet),
      P s.1.table s.2.registry → P (mergeGroups s gs).1.table (mergeGroups s gs).2.registry := by
    intro gs
    induction gs with
    | nil => exact fun _ hs => hs
    | cons g gs ih =>
        intro s hs
        exact ih _ (hput _ _ _ _ (hensure s.1.table s.2.registry g.1 hs))
  rw [table_merge, outlet_merge]
  exact hgroups _ (h, o) hP

end Holdings

end JournalCache

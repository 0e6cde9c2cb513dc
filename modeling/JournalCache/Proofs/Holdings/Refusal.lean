import JournalCache.Cache.Closing
import JournalCache.Cache.Query
import JournalCache.Proofs.Holdings.Merge

/-!
# What a cache makes of the registry

All that a cache makes of the registry is whether it refuses registrations, and no cache changes
that. So what a cache holds does not depend on what other caches register beside it, and what it
registers does not depend on what the listener was told.
-/

namespace JournalCache

namespace Outlet

/-- From outlets that `R` relates the same comes, and `R` relates what becomes of them. -/
def Respects {α : Type} (R : Outlet → Outlet → Prop) (f : Outlet → α × Outlet) : Prop :=
  ∀ o o', R o o' → (f o).1 = (f o').1 ∧ R (f o).2 (f o').2

section Respects

variable {α β : Type} {R : Outlet → Outlet → Prop} {f : Outlet → α × Outlet}

theorem respects_mk (a : α) : Respects R fun o => (a, o) := fun _ _ h => ⟨rfl, h⟩

theorem Respects.bind {g : α → Outlet → β × Outlet} (hf : Respects R f)
    (hg : ∀ a, Respects R (g a)) : Respects R fun o => g (f o).1 (f o).2 := by
  intro o o' h
  obtain ⟨hfst, hafter⟩ := hf o o' h
  dsimp only
  rw [← hfst]
  exact hg (f o).1 _ _ hafter

theorem Respects.map (hf : Respects R f) (g : α → β) : Respects R fun o => (g (f o).1, (f o).2) :=
  fun o o' h => ⟨congrArg g (hf o o' h).1, (hf o o' h).2⟩

end Respects

def refuses (o : Outlet) : Bool := o.registry.refusesQueues

/-- What comes of an outlet depends only on whether it refuses registrations, and that stays as it
is. -/
def Heedless {α : Type} (f : Outlet → α × Outlet) : Prop :=
  ∀ o o', o.refuses = o'.refuses → (f o).1 = (f o').1 ∧ (f o).2.refuses = o.refuses

def BothRefuse (b : Bool) (o o' : Outlet) : Prop := o.refuses = b ∧ o'.refuses = b

theorem heedless_of_respects {α : Type} {f : Outlet → α × Outlet}
    (hf : ∀ b, Respects (BothRefuse b) f) : Heedless f := by
  intro o o' h
  obtain ⟨hfst, hrefuses, -⟩ := hf o.refuses o o' ⟨rfl, h.symm⟩
  exact ⟨hfst, hrefuses⟩

/-- The registries are the same, whatever the listener was told. -/
def SameRegistry (o o' : Outlet) : Prop := o.registry = o'.registry

end Outlet

namespace AgentTable

theorem refusesQueues_ensure (t : AgentTable) (r : Registry) (agent : String) :
    (t.ensure r agent).2.refusesQueues = r.refusesQueues := by
  cases hqueue : t.queue? agent with
  | some q => rw [ensure_of_isSome (by rw [hqueue]; rfl)]
  | none =>
      rw [ensure_of_none hqueue]
      split <;> rfl

theorem ensure_fst_eq (t : AgentTable) {r s : Registry} (agent : String)
    (h : r.refusesQueues = s.refusesQueues) :
    (t.ensure r agent).1 = (t.ensure s agent).1 := by
  cases hqueue : t.queue? agent with
  | some q =>
      have hsome : (t.queue? agent).isSome := by rw [hqueue]; rfl
      rw [ensure_of_isSome hsome, ensure_of_isSome hsome]
  | none =>
      rw [ensure_of_none hqueue, ensure_of_none hqueue, h]
      split <;> rfl

theorem refusesQueues_release (t : AgentTable) (r : Registry) :
    (t.release r).2.refusesQueues = r.refusesQueues := by
  rw [release_snd]

end AgentTable

namespace Holdings

theorem respects_refuses_mergeGroup (b : Bool) (h : Holdings) (g : String × List Message) :
    Outlet.Respects (Outlet.BothRefuse b) fun o => mergeGroup (h, o) g := by
  rintro o o' ⟨ho, ho'⟩
  have hensure := AgentTable.ensure_fst_eq h.table g.1 (ho.trans ho'.symm)
  refine ⟨?_, (AgentTable.refusesQueues_ensure h.table o.registry g.1).trans ho,
    (AgentTable.refusesQueues_ensure h.table o'.registry g.1).trans ho'⟩
  simp only [mergeGroup]
  rw [hensure]

theorem respects_registry_mergeGroup (h : Holdings) (g : String × List Message) :
    Outlet.Respects Outlet.SameRegistry fun o => mergeGroup (h, o) g := by
  rintro ⟨r, ns⟩ ⟨r', ns'⟩ (rfl : r = r')
  exact ⟨rfl, rfl⟩

variable {R : Outlet → Outlet → Prop}
  (hR : ∀ h g, Outlet.Respects R fun o => mergeGroup (h, o) g)
include hR

theorem respects_mergeGroups (h : Holdings) (gs : List (String × List Message)) :
    Outlet.Respects R fun o => mergeGroups (h, o) gs := by
  induction gs generalizing h with
  | nil => exact Outlet.respects_mk h
  | cons g gs ih => exact (hR h g).bind ih

theorem respects_merge (h : Holdings) (batch : List Message) :
    Outlet.Respects R fun o => h.merge o batch :=
  (respects_mergeGroups hR h _).map (·.lowerTo batch)

theorem respects_ingest (h : Holdings) (r : Delivery) :
    Outlet.Respects R fun o => h.ingest o r := by
  cases r with
  | marker p => exact Outlet.respects_mk _
  | message m =>
      exact (respects_merge hR h [m]).map fun h => { h with coverage := h.coverage.raise m.offset }

end Holdings

namespace Cache

section Respects

variable {R : Outlet → Outlet → Prop}
  (hR : ∀ h g, Outlet.Respects R fun o => Holdings.mergeGroup (h, o) g)
include hR

theorem respects_handleNext (c : Cache) : Outlet.Respects R fun o => c.handleNext o := by
  unfold handleNext
  split
  · exact Outlet.respects_mk c
  · next r rs _ =>
    exact (Holdings.respects_ingest hR c.holdings r).map fun h =>
      { c with
        holdings := h
        activity := { c.activity with handled := c.activity.handled + 1 }
        inbox := rs }

theorem respects_handleShare (c : Cache) : Outlet.Respects R fun o => c.handleShare o := by
  have hfold : ∀ (rs : List Delivery) (c : Cache),
      Outlet.Respects R fun o => rs.foldl (fun s _ => s.1.handleNext s.2) (c, o) := by
    intro rs
    induction rs with
    | nil => exact Outlet.respects_mk
    | cons r rs ih => exact fun c => (respects_handleNext hR c).bind ih
  exact hfold (c.inbox.take share) c

theorem respects_answer (c : Cache) (reply : Except Fault (List Message)) :
    Outlet.Respects R fun o => (((c.answer o reply).1, (c.answer o reply).2.2),
      (c.answer o reply).2.1) := by
  cases hholder : c.right.holder with
  | none =>
      simp only [answer, hholder]
      exact Outlet.respects_mk _
  | some h =>
      cases h with
      | passedTo w =>
          simp only [answer, hholder]
          exact Outlet.respects_mk _
      | fetching f =>
          cases reply with
          | error e =>
              simp only [answer, hholder]
              exact Outlet.respects_mk _
          | ok batch =>
              simp only [answer, hholder]
              exact (Holdings.respects_merge hR c.holdings batch).map fun h =>
                (({ c with holdings := { h with coverage := h.coverage.lower f.first } }).passOn,
                  Progress.ended (.ok ()))

end Respects

/-- A step of a cache depends only on whether the outlet refuses registrations, and leaves that as
it is. -/
def Heedless {α : Type} (f : Cache → Outlet → Cache × Outlet × α) : Prop :=
  ∀ c, Outlet.Heedless fun o => (((f c o).1, (f c o).2.2), (f c o).2.1)

theorem heedless_over {α : Type} (f : Cache → Cache × α) :
    Heedless fun c o => ((f c).1, o, (f c).2) :=
  fun _ _ _ _ => ⟨rfl, rfl⟩

theorem heedless_handleShare :
    Heedless fun c o => ((c.handleShare o).1, (c.handleShare o).2, ()) := fun c =>
  Outlet.heedless_of_respects fun b =>
    (respects_handleShare (Holdings.respects_refuses_mergeGroup b) c).map fun c => (c, ())

theorem heedless_releaseQueues :
    Heedless fun c o => ((c.releaseQueues o).1, (c.releaseQueues o).2, ()) :=
  fun c o p _ => ⟨by simp only [releaseQueues, AgentTable.release_fst],
    AgentTable.refusesQueues_release c.holdings.table o.registry⟩

theorem heedless_answer (reply : Except Fault (List Message)) :
    Heedless fun c o => c.answer o reply := fun c =>
  Outlet.heedless_of_respects fun b =>
    respects_answer (Holdings.respects_refuses_mergeGroup b) c reply

end Cache

end JournalCache

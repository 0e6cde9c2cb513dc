import JournalCache.Proofs.Course.Bystanders
import JournalCache.Proofs.Holdings.Refusal
import JournalCache.Timeline.Run
import Mathlib.Logic.Function.Basic

/-!
# Caches of a timeline and their courses

On a timeline each cache goes through a course of events (`Timeline.Plays`): it is the cache of the
course, and its tasks stand where the course has their queries. This module says what that means for
a task, and that it is kept when a cache makes moves of a course and when a task comes to its next
stage.
-/

namespace JournalCache

namespace Course

/-- Each course of `ds` is what moves make of that of `cs`. -/
def Leads (cs ds : Nat → Course) : Prop :=
  ∀ i, ∃ ms, (cs i).AllowsAll ms ∧ ds i = (cs i).run ms

theorem Leads.refl (cs : Nat → Course) : Leads cs cs := fun _ => ⟨[], trivial, rfl⟩

theorem Leads.trans {cs ds es : Nat → Course} (h : Leads cs ds) (h' : Leads ds es) :
    Leads cs es := by
  intro i
  obtain ⟨ms, hms, hds⟩ := h i
  obtain ⟨ns, hns, hes⟩ := h' i
  rw [hds] at hns hes
  exact ⟨ms ++ ns, allowsAll_append.2 ⟨hms, hns⟩, by rw [hes, run_append]⟩

theorem Leads.update {cs : Nat → Course} {j : Nat} {ms : List Move}
    (hms : (cs j).AllowsAll ms) : Leads cs (Function.update cs j ((cs j).run ms)) := by
  intro i
  by_cases hij : i = j
  · subst hij
    exact ⟨ms, hms, Function.update_self ..⟩
  · exact ⟨[], trivial, Function.update_of_ne hij ..⟩

end Course

/-! ## Tasks -/

/-- Whether a task has not begun, or is under way and no query. -/
def Stage.isIdle : Stage → Bool
  | .asleep _ | .sending .. | .closing => true
  | .waiting _ | .prepared .. | .fetching .. | .ended .. => false

def Answer.ofResult : Except Fault (Queue Item) → Answer
  | .ok items => .queue items
  | .error e => .failed e

namespace Task

def Asks (t : Task) (q : Query) : Prop :=
  ∃ patience, t.event = .query q.agent q.requested patience

theorem Asks.eq {t : Task} {p q : Query} (hp : t.Asks p) (hq : t.Asks q)
    (hticket : p.ticket = q.ticket) : p = q := by
  rcases hp with ⟨patience, hp⟩
  rcases hq with ⟨patience', hq⟩
  rw [hp] at hq
  injection hq with hagent hrequested
  cases p
  cases q
  simp_all

/-- A query that has ended was given up, or it got what it returned in the course. -/
def Got (t : Task) (k : Nat) (answer : Answer) (c : Course) : Prop :=
  ∀ q, q.ticket = k → t.Asks q → answer = .givenUp ∨
    ∃ reply result, .returned q reply result ∈ c.deeds ∧ answer = .ofResult result

/-- The task of number `k` stands where the course has it. -/
def Stands (t : Task) (k : Nat) (c : Course) : Prop :=
  match t.stage with
  | .waiting _ => ∃ q ∈ c.pending, q.ticket = k ∧ t.Asks q
  | .prepared _ _ first upTo | .fetching _ first upTo =>
    (∃ q ∈ c.pending, q.ticket = k ∧ t.Asks q) ∧
      c.cache.right.holder = some (.fetching ⟨k, first, upTo⟩)
  | .ended _ answer => (∀ q ∈ c.pending, q.ticket ≠ k) ∧ t.Got k answer c
  | .asleep _ => ∀ q ∈ c.pending, q.ticket ≠ k
  | .sending .. | .closing => (∀ q ∈ c.pending, q.ticket ≠ k) ∧ ∀ q, ¬ t.Asks q

theorem Stands.keeps {t : Task} {k : Nat} {c d : Course} (h : t.Stands k c) (hk : c.Keeps d k) :
    t.Stands k d := by
  have hasks : (∃ q ∈ c.pending, q.ticket = k ∧ t.Asks q) →
      ∃ q ∈ d.pending, q.ticket = k ∧ t.Asks q := by
    intro hall
    rcases hall with ⟨q, hq, hticket, hasks⟩
    exact ⟨q, (hk.pending q hticket).2 hq, hticket, hasks⟩
  have hnone : (∀ q ∈ c.pending, q.ticket ≠ k) → ∀ q ∈ d.pending, q.ticket ≠ k :=
    fun hc q hq hticket => hc q ((hk.pending q hticket).1 hq) hticket
  unfold Stands at h ⊢
  cases hstage : t.stage with
  | waiting => rw [hstage] at h; exact hasks h
  | prepared => rw [hstage] at h; exact ⟨hasks h.1, hk.fetching _ rfl h.2⟩
  | fetching => rw [hstage] at h; exact ⟨hasks h.1, hk.fetching _ rfl h.2⟩
  | ended =>
      rw [hstage] at h
      refine ⟨hnone h.1, fun q hq hquery => (h.2 q hq hquery).imp_right ?_⟩
      intro hall
      rcases hall with ⟨reply, result, hmem, hanswer⟩
      exact ⟨reply, result, hk.deeds _ hmem, hanswer⟩
  | asleep => rw [hstage] at h; exact hnone h
  | sending => rw [hstage] at h; exact ⟨hnone h.1, h.2⟩
  | closing => rw [hstage] at h; exact ⟨hnone h.1, h.2⟩

/-- A task that is neither a query under way nor ended has no query in the course. -/
theorem Stands.ticket_ne {t : Task} {k : Nat} {c : Course} (h : t.Stands k c)
    (hidle : t.stage.isIdle) : ∀ q ∈ c.pending, q.ticket ≠ k := by
  unfold Stands at h
  cases hstage : t.stage with
  | asleep => rw [hstage] at h; exact h
  | sending => rw [hstage] at h; exact h.1
  | closing => rw [hstage] at h; exact h.1
  | waiting => rw [hstage] at hidle; cases hidle
  | prepared => rw [hstage] at hidle; cases hidle
  | fetching => rw [hstage] at hidle; cases hidle
  | ended => rw [hstage] at hidle; cases hidle

end Task

/-! ## Caches of a site -/

namespace Site

/-- Whether registrations of a cache are refused. -/
def refuses (s : Site) (m : Member) : Bool := !m.isQuiet && s.registry.refusesQueues

def Has (s : Site) (cs : Nat → Course) : Prop :=
  ∀ i m, s.members[i]? = some m → m.cache = (cs i).cache ∧ s.refuses m = (cs i).outlet.refuses

variable {s : Site} {cs : Nat → Course} {i : Nat} {α : Type}
  {f : Cache → Outlet → Cache × Outlet × α}

theorem stepCache_of_none (h : s.members[i]? = none) : s.stepCache i f = (s, none) := by
  rw [stepCache, h]

theorem length_members_stepCache : (s.stepCache i f).1.members.length = s.members.length := by
  rw [stepCache]
  split
  · rfl
  · split <;> simp

/-- What a step of a cache leaves does not depend on what other caches registered. -/
theorem stepCache_of_some {m : Member} {o : Outlet} (hf : Cache.Heedless f)
    (hm : s.members[i]? = some m) (ho : s.refuses m = o.refuses) :
    (s.stepCache i f).2 = some (f m.cache o).2.2 ∧
      (s.stepCache i f).1.members = s.members.set i { m with cache := (f m.cache o).1 } ∧
      (s.stepCache i f).1.registry.refusesQueues = s.registry.refusesQueues ∧
      (f m.cache o).2.1.refuses = o.refuses := by
  have hself := (hf m.cache o o rfl).2
  rw [stepCache, hm]
  by_cases hquiet : m.isQuiet
  · have ho' : Outlet.empty.refuses = o.refuses := by
      rw [← ho, refuses, hquiet]
      rfl
    obtain ⟨hfst, -⟩ := hf m.cache _ _ ho'
    obtain ⟨hcache, hanswer⟩ := Prod.mk.inj hfst
    dsimp only
    rw [if_pos hquiet]
    exact ⟨congrArg some hanswer, by rw [hcache], rfl, hself⟩
  · have ho' : (⟨s.registry, []⟩ : Outlet).refuses = o.refuses := by
      rw [← ho, refuses, Bool.eq_false_iff.2 hquiet]
      rfl
    obtain ⟨hfst, hrefuses⟩ := hf m.cache _ _ ho'
    obtain ⟨hcache, hanswer⟩ := Prod.mk.inj hfst
    dsimp only
    rw [if_neg hquiet]
    exact ⟨congrArg some hanswer, by rw [hcache], hrefuses, hself⟩

/-- A step of a cache that is what moves make of its course. -/
theorem Has.stepCache (h : s.Has cs) (hf : Cache.Heedless f) {d : Course}
    (hcache : d.cache = (f (cs i).cache (cs i).outlet).1)
    (houtlet : d.outlet = (f (cs i).cache (cs i).outlet).2.1) :
    (s.stepCache i f).1.Has (Function.update cs i d) := by
  intro j n hn
  cases hm : s.members[i]? with
  | none =>
      rw [stepCache_of_none hm] at hn ⊢
      have hij : j ≠ i := by
        rintro rfl
        rw [hm] at hn
        cases hn
      rw [Function.update_of_ne hij]
      exact h j n hn
  | some m =>
      obtain ⟨hmc, hmo⟩ := h i m hm
      obtain ⟨-, hmembers, hregistry, hrefuses⟩ := stepCache_of_some hf hm hmo
      have hsame : ∀ m, (s.stepCache i f).1.refuses m = s.refuses m := by
        intro m
        rw [refuses, refuses, hregistry]
      rw [hmembers] at hn
      rw [hsame]
      by_cases hij : j = i
      · subst hij
        have hlt : j < s.members.length := (List.getElem?_eq_some_iff.1 hm).1
        rw [List.getElem?_set_self hlt] at hn
        obtain rfl := Option.some.inj hn
        rw [Function.update_self, hcache, houtlet, ← hmc]
        exact ⟨rfl, hmo.trans hrefuses.symm⟩
      · rw [List.getElem?_set_ne (Ne.symm hij)] at hn
        rw [Function.update_of_ne hij]
        exact h j n hn

end Site

namespace Timeline

/-- Each cache of a timeline is that of its course, and the tasks stand where the courses have
them, unless a task is just taking its turn. -/
structure Plays (tl : Timeline) (busy : Option Nat) (cs : Nat → Course) : Prop where
  sound : ∀ i, (cs i).Sound
  caches : tl.site.Has cs
  tasks : ∀ k t, some k ≠ busy → tl.tasks[k]? = some t → t.Stands k (cs t.cache)
  pending : ∀ i, ∀ q ∈ (cs i).pending, ∃ t, tl.tasks[q.ticket]? = some t ∧ t.cache = i
  members : ∀ t ∈ tl.tasks, t.cache < tl.site.members.length

/-- The caches and the tasks of two timelines are the same. -/
structure Same (tl tl' : Timeline) : Prop where
  members : tl'.site.members = tl.site.members
  registry : tl'.site.registry = tl.site.registry
  tasks : tl'.tasks = tl.tasks

variable {tl tl' : Timeline} {busy : Option Nat} {cs : Nat → Course} {k : Nat}

namespace Plays

theorem congr (h : tl.Plays busy cs) (hsame : tl.Same tl') : tl'.Plays busy cs where
  sound := h.sound
  caches := by
    intro i m hm
    rw [hsame.members] at hm
    rw [Site.refuses, hsame.registry]
    exact h.caches i m hm
  tasks := hsame.tasks ▸ h.tasks
  pending := hsame.tasks ▸ h.pending
  members := by
    rw [hsame.tasks, hsame.members]
    exact h.members

theorem begin (h : tl.Plays none cs) (k : Nat) : tl.Plays (some k) cs :=
  { h with tasks := fun j t _ => h.tasks j t (by simp) }

/-- A cache makes moves of its course; those of queries are made by the task whose turn it is. -/
theorem stepCache (h : tl.Plays busy cs) {i : Nat} {α : Type}
    {f : Cache → Outlet → Cache × Outlet × α} (hf : Cache.Heedless f) {ms : List Move}
    (hms : (cs i).AllowsAll ms)
    (hk : ∀ m ∈ ms, ∀ k, m.ticket? = some k →
      busy = some k ∧ ∃ t, tl.tasks[k]? = some t ∧ t.cache = i)
    (hcache : ((cs i).run ms).cache = (f (cs i).cache (cs i).outlet).1)
    (houtlet : ((cs i).run ms).outlet = (f (cs i).cache (cs i).outlet).2.1)
    (hsite : tl'.site = (tl.site.stepCache i f).1) (htasks : tl'.tasks = tl.tasks) :
    tl'.Plays busy (Function.update cs i ((cs i).run ms)) where
  sound := by
    intro j
    by_cases hji : j = i
    · rw [hji, Function.update_self]
      exact (h.sound i).run hms
    · rw [Function.update_of_ne hji]
      exact h.sound j
  caches := hsite ▸ h.caches.stepCache hf hcache houtlet
  tasks := by
    intro k t hbusy ht
    rw [htasks] at ht
    have hstands := h.tasks k t hbusy ht
    by_cases hti : t.cache = i
    · rw [hti] at hstands ⊢
      rw [Function.update_self]
      refine hstands.keeps ((h.sound i).keeps_run hms fun m hm hticket => ?_)
      exact hbusy (hk m hm k hticket).1.symm
    · rw [Function.update_of_ne hti]
      exact hstands
  pending := by
    intro j q hq
    rw [htasks]
    by_cases hji : j = i
    · rw [hji] at hq ⊢
      rw [Function.update_self] at hq
      by_cases hticket : ∃ m ∈ ms, m.ticket? = some q.ticket
      · rcases hticket with ⟨m, hm, hticket⟩
        exact (hk m hm _ hticket).2
      · have hkeeps := (h.sound i).keeps_run hms (k := q.ticket)
          fun m hm heq => hticket ⟨m, hm, heq⟩
        exact h.pending i q ((hkeeps.pending q rfl).1 hq)
    · rw [Function.update_of_ne hji] at hq
      exact h.pending j q hq
  members := by
    rw [htasks, hsite, Site.length_members_stepCache]
    exact h.members

/-- A task changes; nothing is asked of where it stood if it is taking its turn. -/
theorem modify (h : tl.Plays busy cs) (hbusy : busy = none ∨ busy = some k) {g : Task → Task}
    (hg : ∀ t, (g t).cache = t.cache)
    (hstands : ∀ t, tl.tasks[k]? = some t → (g t).Stands k (cs t.cache)) :
    { tl with tasks := tl.tasks.modify k g }.Plays none cs where
  sound := h.sound
  caches := h.caches
  tasks := by
    intro j t _ ht
    by_cases hkj : k = j
    · subst hkj
      rw [List.getElem?_modify_eq] at ht
      obtain ⟨t', ht', rfl⟩ := Option.map_eq_some_iff.1 ht
      rw [hg]
      exact hstands t' ht'
    · rw [List.getElem?_modify_ne _ _ hkj] at ht
      refine h.tasks j t ?_ ht
      rcases hbusy with rfl | rfl
      · simp
      · exact fun heq => hkj (Option.some.inj heq).symm
  pending := by
    intro i q hq
    obtain ⟨t, ht, hcache⟩ := h.pending i q hq
    rw [List.getElem?_modify, ht]
    refine ⟨_, rfl, ?_⟩
    split
    · exact (hg t).trans hcache
    · exact hcache
  members := by
    intro t ht
    obtain ⟨j, hj⟩ := List.getElem?_of_mem ht
    rw [List.getElem?_modify] at hj
    obtain ⟨t', ht', rfl⟩ := Option.map_eq_some_iff.1 hj
    have hlt := h.members t' (List.mem_of_getElem? ht')
    split
    · exact (hg t').symm ▸ hlt
    · exact hlt

theorem setStage (h : tl.Plays busy cs) (hbusy : busy = none ∨ busy = some k) {stage : Stage}
    (hstands : ∀ t, tl.tasks[k]? = some t → Task.Stands { t with stage } k (cs t.cache)) :
    (tl.setStage k stage).Plays none cs :=
  h.modify hbusy (g := fun t => { t with stage }) (fun _ => rfl) hstands

end Plays

end Timeline

end JournalCache

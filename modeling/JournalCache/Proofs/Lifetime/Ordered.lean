import JournalCache.Proofs.AgentTable.Registrations
import JournalCache.Proofs.Course.Marks
import JournalCache.Proofs.Lifetime.Basic

/-!
# The order of a life

How the course of a cache, its closings, its journal and its registry stand to one another
(`Lifetime.Ordered`). Every move keeps it: the subscription is ended when tail ingestion is told to
stop and never again, every closing that is done has released the registrations, and what tail
ingestion has not handled of what was delivered is what it has still before it.
-/

namespace JournalCache

namespace Course

variable {c d : Course} {m : Move} {P : AgentTable → Registry → Prop}

/-- What asking for queues, putting items into them and releasing keep, every step keeps. -/
theorem Step.table_keeps
    (hensure : ∀ t r agent, P t r → P (t.ensure r agent).1 (t.ensure r agent).2)
    (hput : ∀ t r agent staged, P t r → P (t.put agent staged) r)
    (hrelease : ∀ t r, P t r → P (t.release r).1 (t.release r).2) (h : c.Step m d)
    (hP : P c.cache.holdings.table c.outlet.registry) :
    P d.cache.holdings.table d.outlet.registry := by
  cases h with
  | succeeds => exact Holdings.merge_keeps hensure hput _ _ _ hP
  | @handles r =>
      obtain ⟨htable, houtlet⟩ := c.cache.holdings.table_ingest c.outlet r
      change P (c.cache.holdings.ingest c.outlet r).1.table
        (c.cache.holdings.ingest c.outlet r).2.registry
      rw [htable, houtlet]
      exact Holdings.merge_keeps hensure hput _ _ _ hP
  | releases => exact hrelease _ _ hP
  | _ => exact hP

theorem Step.enrolled (h : c.Step m d) (hc : c.cache.holdings.table.Enrolled c.outlet.registry) :
    d.cache.holdings.table.Enrolled d.outlet.registry :=
  h.table_keeps (fun _ _ agent ht => ht.ensure agent)
    (fun _ _ agent staged ht => ht.put agent staged) (fun _ _ ht => ht.release) hc

theorem Step.settled {r₀ : Registry} (h : c.Step m d)
    (hc : c.cache.holdings.table.Settled r₀ c.outlet.registry) :
    d.cache.holdings.table.Settled r₀ d.outlet.registry :=
  h.table_keeps (fun _ _ agent ht => ht.ensure agent)
    (fun _ _ agent staged ht => ht.put agent staged) (fun _ _ ht => ht.release) hc

/-- A step of a query, or of tail ingestion that handles a record, leaves whether tail ingestion
runs. -/
theorem Step.isFollowing_eq (h : c.Step m d) (hm : m.isWork) :
    d.cache.isFollowing = c.cache.isFollowing ∧ d.cache.isShutDown = c.cache.isShutDown ∧
      d.cache.isSubscribed = c.cache.isSubscribed := by
  cases h with
  | shutsDown => cases hm
  | stops => cases hm
  | _ => exact ⟨rfl, rfl, rfl⟩

/-- Only a cache that has met a record has queries under way. -/
theorem Step.ready (h : c.Step m d) (hc : c.pending ≠ [] → c.lowest? ≠ none)
    (hpending : d.pending ≠ []) : d.lowest? ≠ none := by
  cases hlow : c.lowest? with
  | some low =>
      have hmark : c.lowMark ≠ reservedOffset := (lowest?_eq_some.1 hlow).1 ▸
        (lowest?_eq_some.1 hlow).2
      rw [Ne, lowest?_eq_none]
      exact h.lowMark_ne hmark
  | none =>
      have hnil : c.pending = [] := by
        by_contra hne
        exact hc hne hlow
      exact absurd (h.idle hlow hnil).1 hpending

/-- Tail ingestion that was told to stop handles nothing. -/
theorem Step.of_isShutDown (h : c.Step m d) (hs : c.cache.isShutDown) :
    d.cache.isShutDown ∧ d.handled = c.handled ∧
      d.cache.activity.handled = c.cache.activity.handled ∧ d.highest? = c.highest? := by
  cases h with
  | handles _ _ hnot =>
      rw [hs] at hnot
      cases hnot
  | returnsAtOnce => exact ⟨hs, by simp [Course.handled], rfl, rfl⟩
  | skips => exact ⟨hs, by simp [Course.handled, skip], rfl, rfl⟩
  | expires => exact ⟨hs, by simp [Course.handled, timeOut], rfl, rfl⟩
  | succeeds =>
      exact ⟨hs, by simp [Course.handled, succeed], rfl,
        congrArg shownOffset (Holdings.highMark_backfill ..)⟩
  | fails => exact ⟨hs, by simp [Course.handled, fail], rfl, rfl⟩
  | releases => exact ⟨hs, by simp [Course.handled], rfl, rfl⟩
  | shutsDown => exact ⟨rfl, rfl, rfl, rfl⟩
  | _ => exact ⟨hs, rfl, rfl, rfl⟩

end Course

namespace Lifetime

variable {j : Journal} {number : Nat} {settings : Settings} {l : Lifetime}

/-! ## What every move keeps -/

/-- How the course, the closings and the journal stand to one another. -/
structure Ordered (j : Journal) (l : Lifetime) : Prop where
  sound : l.course.Sound
  ready : l.course.pending ≠ [] → l.course.lowest? ≠ none
  closes : l.journal.closes = j.closes + if l.isShutDown then 1 else 0
  subscribed : l.course.cache.isSubscribed = !l.isShutDown
  told : 0 < l.closing ∨ 0 < l.closed ∨ l.isDropped → l.isShutDown
  done : 0 < l.closed ∨ l.isDropped → l.table.isReleased
  tail : l.course.cache.isFollowing →
    l.delivered = l.course.handled ++ l.course.cache.inbox
  handled : l.course.handled <+: l.delivered
  enrolled : l.table.Enrolled l.registry

theorem ordered_start (j : Journal) (number : Nat) (settings : Settings) :
    (start j number settings).Ordered j where
  sound := Course.sound_start
  ready := fun hne => absurd rfl hne
  closes := rfl
  subscribed := rfl
  told := by simp [start]
  done := by simp [start]
  tail := fun _ => rfl
  handled := List.prefix_rfl
  enrolled := AgentTable.enrolled_empty number _ rfl rfl

theorem Ordered.take (h : l.Ordered j) {m : Move} (hm : l.Allows (.take m)) :
    (l.move (.take m)).Ordered j := by
  obtain ⟨hwork, hallowed⟩ := hm
  have hstep := Course.step_move h.sound hallowed
  obtain ⟨hfollowing, hshutDown, hsubscribed⟩ := hstep.isFollowing_eq hwork
  have hdeliver : ∀ r, m ≠ .deliver r := by
    rintro r rfl
    cases hwork
  exact {
    sound := hstep.sound h.sound
    ready := hstep.ready h.ready
    closes := by rw [isShutDown, move, hshutDown]; exact h.closes
    subscribed := by rw [isShutDown, move, hshutDown, hsubscribed]; exact h.subscribed
    told := by rw [isShutDown, move, hshutDown]; exact h.told
    done := fun hdone => (hstep.settled (h.enrolled.settled (h.done hdone))).isReleased
    tail := by
      intro hd
      obtain ⟨hc, heq⟩ := hstep.tail hdeliver hd
      exact (h.tail hc).trans heq.symm
    handled := by
      rcases hstep.handled_eq with heq | ⟨-, hc, r, rs, hinbox, heq⟩
      · rw [move, heq]
        exact h.handled
      · rw [move, heq, Course.handled_takeIn]
        refine ⟨rs, ?_⟩
        rw [h.tail hc, hinbox, List.append_assoc]
        rfl
    enrolled := hstep.enrolled h.enrolled }

theorem Ordered.deliver (h : l.Ordered j) {r : Delivery} (hr : l.Allows (.deliver r)) :
    (l.move (.deliver r)).Ordered j where
  sound := (Course.Step.delivers r).sound h.sound
  ready := h.ready
  closes := h.closes
  subscribed := h.subscribed
  told := h.told
  done := h.done
  tail := by
    intro _
    change l.delivered ++ [r] = l.course.handled ++ (l.course.cache.inbox ++ [r])
    rw [h.tail hr, List.append_assoc]
  handled := h.handled.trans (List.prefix_append _ _)
  enrolled := h.enrolled

/-- A closing ends the subscription if nobody did. -/
theorem Ordered.shutDown (h : l.Ordered j) : l.shutDown.Ordered j where
  sound := Course.Step.shutsDown.sound h.sound
  ready := h.ready
  closes := by
    change (if l.course.cache.isSubscribed then l.journal.unsubscribe.1 else l.journal).closes =
      j.closes + 1
    have hcloses := h.closes
    rw [h.subscribed]
    cases hshutDown : l.isShutDown with
    | true =>
        rw [hshutDown] at hcloses
        exact hcloses
    | false =>
        rw [hshutDown] at hcloses
        exact congrArg (· + 1) hcloses
  subscribed := rfl
  told := fun _ => rfl
  done := h.done
  tail := h.tail
  handled := h.handled
  enrolled := h.enrolled

theorem Ordered.stop (h : l.Ordered j) : (l.move .stop).Ordered j where
  sound := Course.Step.stops.sound h.sound
  ready := h.ready
  closes := h.closes
  subscribed := h.subscribed
  told := h.told
  done := h.done
  tail := nofun
  handled := h.handled
  enrolled := h.enrolled

theorem handled_release (c : Course) : (c.move .release).handled = c.handled := by
  simp [Course.handled, Course.move]

theorem isReleased_release (l : Lifetime) : l.release.table.isReleased :=
  congrArg AgentTable.isReleased (AgentTable.release_fst l.table l.registry)

theorem Ordered.release (h : l.Ordered j) : l.release.Ordered j where
  sound := Course.Step.releases.sound h.sound
  ready := h.ready
  closes := h.closes
  subscribed := h.subscribed
  told := h.told
  done := fun _ => isReleased_release l
  tail := by
    intro hfollowing
    rw [Lifetime.release, handled_release]
    exact h.tail hfollowing
  handled := by
    rw [Lifetime.release, handled_release]
    exact h.handled
  enrolled := h.enrolled.release

/-- Closings are counted, and the cache is dropped, when tail ingestion was told to stop, and they
are done when the registrations are released. -/
theorem Ordered.count (h : l.Ordered j) (htold : l.isShutDown) {closing closed : Nat}
    {isDropped : Bool} (hdone : 0 < closed ∨ isDropped → l.table.isReleased) :
    { l with closing, closed, isDropped }.Ordered j where
  sound := h.sound
  ready := h.ready
  closes := h.closes
  subscribed := h.subscribed
  told := fun _ => htold
  done := hdone
  tail := h.tail
  handled := h.handled
  enrolled := h.enrolled

theorem Ordered.overRegistry (h : l.Ordered j) {f : Registry → Registry}
    (hlistings : ∀ r, (f r).listings = r.listings) (hreleased : ∀ r, (f r).released = r.released) :
    (l.overRegistry f).Ordered j where
  sound := ⟨h.sound.engaged, h.sound.nodup, h.sound.waiting_of_free, h.sound.calls⟩
  ready := h.ready
  closes := h.closes
  subscribed := h.subscribed
  told := h.told
  done := h.done
  tail := h.tail
  handled := h.handled
  enrolled := h.enrolled.congr (hlistings _) (hreleased _)

theorem Ordered.move (h : l.Ordered j) {m : LifeMove} (hm : l.Allows m) :
    (l.move m).Ordered j := by
  cases m with
  | take m => exact h.take hm
  | deliver r => exact h.deliver hm
  | stop => exact h.stop
  | beginClose =>
      rw [Lifetime.move]
      split
      · exact h.shutDown.count rfl h.done
      · exact h.shutDown.release.count rfl fun _ => isReleased_release _
  | endClose => exact h.release.count (h.told (.inl hm.1)) fun _ => isReleased_release _
  | drop => exact h.shutDown.stop.release.count rfl fun _ => isReleased_release _
  | failCloses on =>
      exact ⟨h.sound, h.ready, h.closes, h.subscribed, h.told, h.done, h.tail, h.handled,
        h.enrolled⟩
  | failReleases on =>
      exact h.overRegistry (f := ({ · with failsReleases := on })) (fun _ => rfl) fun _ => rfl
  | refuseQueues on =>
      exact h.overRegistry (f := ({ · with refusesQueues := on })) (fun _ => rfl) fun _ => rfl

theorem Reachable.ordered (h : Reachable j number settings l) : l.Ordered j := by
  induction h with
  | start => exact ordered_start j number settings
  | move _ hm ih => exact ih.move hm

end Lifetime

end JournalCache

import JournalCache.Proofs.Queue.Writes

/-!
# Reading a queue page by page

A reader goes through a queue in pages, each of which begins behind the last offset of the page
before. What was not read yet is then what the queue has from there on (`entriesFrom_follow`), so
two pages are one longer page (`page_add`), and when the queue grows between the pages nothing is
read twice and nothing that stood behind the reader's place is missed (`Covers`).
-/

namespace JournalCache

namespace Queue

variable {α : Type}

/-- Where the page behind `page` begins. A page without items leaves the reader at its place. -/
def follow (low : Offset) (page : List (Offset × α)) : Offset :=
  page.getLast?.elim low fun e => e.1 + 1

def CanFollow (page : List (Offset × α)) : Prop := ∀ e ∈ page.getLast?, e.1 ≠ reservedOffset

instance (page : List (Offset × α)) : Decidable (CanFollow page) :=
  match h : page.getLast? with
  | none => .isTrue (by simp [CanFollow, h])
  | some e => decidable_of_iff (e.1 ≠ reservedOffset) (by simp [CanFollow, h])

section Page

variable {q : Queue α} {low : Offset} {limit : Nat}

theorem increasing_entriesFrom (q : Queue α) (low : Offset) :
    (q.entriesFrom low).Pairwise fun a b => a.1 < b.1 := q.increasing.filter _

theorem mem_entriesFrom {e : Offset × α} : e ∈ q.entriesFrom low ↔ e ∈ q.entries ∧ low ≤ e.1 := by
  rw [SortedMap.entriesFrom, List.mem_filter, decide_eq_true_eq, Std.not_lt]

theorem page_append_drop (q : Queue α) (low : Offset) (limit : Nat) :
    q.page low limit ++ (q.entriesFrom low).drop limit = q.entriesFrom low :=
  List.take_append_drop _ _

theorem mem_entriesFrom_of_mem_page {e : Offset × α} (he : e ∈ q.page low limit) :
    e ∈ q.entries ∧ low ≤ e.1 := mem_entriesFrom.1 (List.mem_of_mem_take he)

/-- What a page left stands behind all of the page. -/
theorem lt_of_mem_page {e f : Offset × α} (he : e ∈ q.page low limit)
    (hf : f ∈ (q.entriesFrom low).drop limit) : e.1 < f.1 := by
  have hsorted := increasing_entriesFrom q low
  rw [← page_append_drop q low limit, List.pairwise_append] at hsorted
  exact hsorted.2.2 e he f hf

theorem le_last_of_mem_page {last e : Offset × α} (hlast : last ∈ (q.page low limit).getLast?)
    (he : e ∈ q.page low limit) : e.1 ≤ last.1 := by
  have hsorted := (increasing_entriesFrom q low).sublist (List.take_sublist limit _)
  obtain ⟨es, hes⟩ := List.getLast?_eq_some_iff.1 hlast
  change (q.page low limit).Pairwise _ at hsorted
  rw [hes] at he hsorted
  rcases List.mem_append.1 he with he | he
  · exact Std.le_of_lt ((List.pairwise_append.1 hsorted).2.2 e he last List.mem_cons_self)
  · rw [List.mem_singleton.1 he]
    exact Std.le_refl _

/-- The place at which the next page begins stands between the page and what else the queue has. -/
theorem follow_between (h : CanFollow (q.page low limit)) :
    low ≤ follow low (q.page low limit) ∧
      (∀ e ∈ q.page low limit, e.1 < follow low (q.page low limit)) ∧
      ∀ e ∈ (q.entriesFrom low).drop limit, follow low (q.page low limit) ≤ e.1 := by
  unfold follow
  cases hlast : (q.page low limit).getLast? with
  | none =>
      refine ⟨Std.le_refl _, fun e he => ?_, fun e he => ?_⟩
      · rw [List.getLast?_eq_none_iff.1 hlast] at he
        cases he
      · exact (mem_entriesFrom.1 (List.mem_of_mem_drop he)).2
  | some last =>
      have hne : last.1 ≠ reservedOffset := h last hlast
      have hlow := (mem_entriesFrom_of_mem_page (List.mem_of_getLast? hlast)).2
      have hnext : last.1 < last.1 + 1 := offset_lt_add_one hne
      refine ⟨Std.le_trans hlow (Std.le_of_lt hnext), fun e he => ?_, fun e he => ?_⟩
      · exact Std.lt_of_le_of_lt (le_last_of_mem_page hlast he) hnext
      · exact (offset_add_one_le_iff hne).2 (lt_of_mem_page (List.mem_of_getLast? hlast) he)

/-- Behind a page the queue has what the page left. -/
theorem entriesFrom_follow (h : CanFollow (q.page low limit)) :
    q.entriesFrom (follow low (q.page low limit)) = (q.entriesFrom low).drop limit := by
  obtain ⟨hlow, hpage, hrest⟩ := follow_between h
  generalize follow low (q.page low limit) = place at hlow hpage hrest
  have hnested : q.entriesFrom place = (q.entriesFrom low).filter fun e => ¬ e.1 < place := by
    rw [SortedMap.entriesFrom, SortedMap.entriesFrom, List.filter_filter]
    refine List.filter_congr fun e _ => ?_
    by_cases hplace : e.1 < place
    · simp [hplace]
    · have hnot : ¬ e.1 < low := fun hlt => hplace (Std.lt_of_lt_of_le hlt hlow)
      simp [hplace, hnot]
  have hread : (q.page low limit).filter (fun e => ¬ e.1 < place) = [] := by
    rw [List.filter_eq_nil_iff]
    intro e he
    simpa using hpage e he
  have hleft : ((q.entriesFrom low).drop limit).filter (fun e => ¬ e.1 < place) =
      (q.entriesFrom low).drop limit := by
    rw [List.filter_eq_self]
    intro e he
    simpa using Std.not_lt.2 (hrest e he)
  rw [hnested, ← page_append_drop q low limit, List.filter_append, hread, page_append_drop, hleft,
    List.nil_append]

/-- Two pages are one longer page. -/
theorem page_add {last : Offset × α} {a : Nat} (hlast : last ∈ (q.page low a).getLast?)
    (hne : last.1 ≠ reservedOffset) (b : Nat) :
    q.page low (a + b) = q.page low a ++ q.page (last.1 + 1) b := by
  have hfollow : follow low (q.page low a) = last.1 + 1 := by
    rw [follow, Option.mem_def.1 hlast]
    rfl
  have hcan : CanFollow (q.page low a) := by
    intro e he
    rw [Option.mem_unique he hlast]
    exact hne
  have hrest := entriesFrom_follow hcan
  rw [hfollow] at hrest
  rw [page, List.take_add, page, page, hrest]

/-- A page that is shorter than it may be has all there is. -/
theorem mem_page_of_short (hshort : (q.page low limit).length < limit) {e : Offset × α}
    (he : e ∈ q.entries) (hlow : low ≤ e.1) : e ∈ q.page low limit := by
  rw [page, List.length_take] at hshort
  rw [page, List.take_of_length_le (by omega)]
  exact mem_entriesFrom.2 ⟨he, hlow⟩

/-- What the queue has from the start of the page on is on the page or was left by it. -/
theorem mem_page_or_drop {e : Offset × α} (he : e ∈ q.entries) (hlow : low ≤ e.1) :
    e ∈ q.page low limit ∨ e ∈ (q.entriesFrom low).drop limit := by
  have hmem : e ∈ q.entriesFrom low := mem_entriesFrom.2 ⟨he, hlow⟩
  rwa [← page_append_drop q low limit, List.mem_append] at hmem

end Page

/-! ## A reader -/

/-- What goes before a page is read: what is done to the queue, and how many items the reader
takes at most. -/
structure Turn (α : Type) where
  writes : List (Write α)
  limit : Nat

structure Reading (α : Type) where
  /-- The queue as it then stands. -/
  queue : Queue α
  /-- Where the page begins. -/
  low : Offset
  /-- How many items the page has at most. -/
  limit : Nat

def Reading.page (r : Reading α) : List (Offset × α) := r.queue.page r.low r.limit

/-- The readings of a reader that begins at `low`. -/
def readings (q : Queue α) (low : Offset) : List (Turn α) → List (Reading α)
  | [] => []
  | t :: ts =>
    let r : Reading α := ⟨writeAll q t.writes, low, t.limit⟩
    r :: readings r.queue (follow low r.page) ts

def itemsRead (rs : List (Reading α)) : List (Offset × α) := rs.flatMap Reading.page

/-- The reader goes on behind a page only if there is an offset behind it. -/
def Continues (rs : List (Reading α)) : Prop := ∀ r ∈ rs.dropLast, CanFollow r.page

instance (rs : List (Reading α)) : Decidable (Continues rs) :=
  inferInstanceAs (Decidable (∀ r ∈ rs.dropLast, CanFollow r.page))

theorem itemsRead_cons (r : Reading α) (rs : List (Reading α)) :
    itemsRead (r :: rs) = r.page ++ itemsRead rs := List.flatMap_cons

theorem mem_itemsRead {rs : List (Reading α)} {e : Offset × α} :
    e ∈ itemsRead rs ↔ ∃ r ∈ rs, e ∈ r.page := List.mem_flatMap

theorem continues_cons_cons {r s : Reading α} {rs : List (Reading α)} :
    Continues (r :: s :: rs) ↔ CanFollow r.page ∧ Continues (s :: rs) := by
  rw [Continues, List.dropLast_cons_cons, List.forall_mem_cons, Continues]

namespace Continues

variable {r s : Reading α} {rs : List (Reading α)}

theorem tail (h : Continues (r :: rs)) : Continues rs := by
  cases rs with
  | nil => exact fun _ hs => nomatch hs
  | cons t rs => exact (continues_cons_cons.1 h).2

theorem canFollow (h : Continues (r :: rs)) (hs : s ∈ rs) : CanFollow r.page := by
  cases rs with
  | nil => cases hs
  | cons t rs => exact (continues_cons_cons.1 h).1

end Continues

section Readings

variable {q : Queue α} {low : Offset} {ts : List (Turn α)}

/-- The reader never goes back. -/
theorem low_le_of_mem_readings (h : Continues (readings q low ts)) :
    ∀ r ∈ readings q low ts, low ≤ r.low := by
  induction ts generalizing q low with
  | nil => exact fun _ hr => nomatch hr
  | cons t ts ih =>
      rw [readings, List.forall_mem_cons]
      refine ⟨Std.le_refl _, fun r hr => ?_⟩
      have hfollow := (follow_between (h.canFollow hr)).1
      exact Std.le_trans hfollow (ih h.tail r hr)

theorem low_le_of_mem_itemsRead (h : Continues (readings q low ts)) {e : Offset × α}
    (he : e ∈ itemsRead (readings q low ts)) : low ≤ e.1 := by
  obtain ⟨r, hr, he⟩ := mem_itemsRead.1 he
  exact Std.le_trans (low_le_of_mem_readings h r hr) (mem_entriesFrom_of_mem_page he).2

theorem increasing_itemsRead (h : Continues (readings q low ts)) :
    (itemsRead (readings q low ts)).Pairwise fun a b => a.1 < b.1 := by
  induction ts generalizing q low with
  | nil => exact .nil
  | cons t ts ih =>
      rw [readings, itemsRead_cons, List.pairwise_append]
      refine ⟨(increasing_entriesFrom _ _).sublist (List.take_sublist _ _), ih h.tail, ?_⟩
      intro e he f hf
      obtain ⟨s, hs, -⟩ := mem_itemsRead.1 hf
      have hbefore := (follow_between (h.canFollow hs)).2.1 e he
      exact Std.lt_of_lt_of_le hbefore (low_le_of_mem_itemsRead h.tail hf)

/-- A reader who reads anything begins at its place, with a queue that has lost no offset. -/
theorem exists_first_reading {e : Offset × α} (he : e ∈ itemsRead (readings q low ts)) :
    ∃ r ∈ readings q low ts, r.low = low ∧ ∀ o ∈ q.keys, o ∈ r.queue.keys := by
  cases ts with
  | nil => cases he
  | cons t ts => exact ⟨_, List.mem_cons_self, rfl, fun _ ho => mem_keys_writeAll ho t.writes⟩

/-- What the queue has, when a page is read, from the start of the page on is read before anything
that stands behind it. -/
theorem mem_itemsRead_of_le (h : Continues (readings q low ts)) {r : Reading α}
    (hr : r ∈ readings q low ts) {o : Offset} (ho : o ∈ r.queue.keys) (hlow : r.low ≤ o)
    {e : Offset × α} (he : e ∈ itemsRead (readings q low ts)) (hle : o ≤ e.1) :
    o ∈ (itemsRead (readings q low ts)).map (·.1) := by
  induction ts generalizing q low r with
  | nil => cases hr
  | cons t ts ih =>
      rw [readings, itemsRead_cons, List.mem_append] at he
      rw [readings, itemsRead_cons, List.map_append, List.mem_append]
      rcases List.mem_cons.1 hr with rfl | hr
      · obtain ⟨f, hf, rfl⟩ := List.mem_map.1 ho
        rcases mem_page_or_drop hf hlow with hpage | hdrop
        · exact .inl (List.mem_map_of_mem hpage)
        · rcases he with he | he
          · exact absurd (lt_of_mem_page he hdrop) (Std.not_lt.2 hle)
          · obtain ⟨s, hs, hslow, hkeys⟩ := exists_first_reading he
            have hplace := (follow_between (h.canFollow hs)).2.2 f hdrop
            exact .inr (ih h.tail hs (hkeys _ ho) (hslow ▸ hplace) he)
      · rcases he with he | he
        · -- the page is read already, so it ends in front of `r`
          have hbefore := (follow_between (h.canFollow hr)).2.1 e he
          have hplace := Std.le_trans (low_le_of_mem_readings h.tail r hr) hlow
          exact absurd (Std.lt_of_lt_of_le hbefore (Std.le_trans hplace hle)) Std.lt_irrefl
        · exact .inr (ih h.tail hr ho hlow he)

end Readings

/-- A reader reads in order, misses nothing that stood behind its place and reads nothing twice. -/
structure Covers (rs : List (Reading α)) : Prop where
  increasing : ((itemsRead rs).map (·.1)).Pairwise (· < ·)
  /-- What the queue had when a page was read, the first one or a later one, from the start of the
  page up to the last offset read so far, was read once. -/
  once : ∀ r ∈ rs, ∀ o ∈ r.queue.keys, r.low ≤ o → ∀ last ∈ (itemsRead rs).getLast?, o ≤ last.1 →
    ((itemsRead rs).map (·.1)).count o = 1
  /-- A page that is shorter than it may be has all that the queue then has from its start on. -/
  complete : ∀ r ∈ rs, r.page.length < r.limit → ∀ e ∈ r.queue.entries, r.low ≤ e.1 → e ∈ r.page

theorem covers_readings {q : Queue α} {low : Offset} {ts : List (Turn α)}
    (h : Continues (readings q low ts)) : Covers (readings q low ts) where
  increasing := List.pairwise_map.2 (increasing_itemsRead h)
  once := by
    intro r hr o ho hlow last hlast hle
    have hmem := mem_itemsRead_of_le h hr ho hlow (List.mem_of_getLast? hlast) hle
    refine List.count_eq_one_of_mem ?_ hmem
    refine List.pairwise_map.2 ((increasing_itemsRead h).imp fun hlt heq => ?_)
    exact Std.lt_irrefl (heq ▸ hlt)
  complete := fun _ _ hshort _ he hlow => mem_page_of_short hshort he hlow

/-- While nothing is written two pages are one longer page, and whatever is written between the
pages, a reader covers the queue. -/
theorem pages_cover (q : Queue α) (low : Offset) :
    (∀ a b, ∀ last ∈ (q.page low a).getLast?, last.1 ≠ reservedOffset →
      q.page low (a + b) = q.page low a ++ q.page (last.1 + 1) b) ∧
    ∀ ts, Continues (readings q low ts) → Covers (readings q low ts) :=
  ⟨fun _ b _ hlast hne => page_add hlast hne b, fun _ => covers_readings⟩

/-- Between the pages items are put before, at and behind the place of the reader. -/
theorem pages_cover_growing :
    let q : Queue Char := .ofList [(2, 'a'), (4, 'b'), (6, 'c'), (8, 'd')]
    let ts : List (Turn Char) :=
      [⟨[], 2⟩, ⟨[.staged [(1, 'e'), (3, 'f')], .item 7 'g', .item 4 'h'], 2⟩, ⟨[.item 12 'i'], 5⟩]
    Covers (readings q 2 ts) ∧
      (itemsRead (readings q 2 ts)).map (·.1) = [2, 4, 6, 7, 8, 12] ∧
      q.page 2 3 = q.page 2 2 ++ q.page 5 1 := by
  intro q ts
  have hcontinues : Continues (readings q 2 ts) := by decide
  exact ⟨(pages_cover q 2).2 ts hcontinues, by decide,
    (pages_cover q 2).1 2 1 (4, 'b') (by decide) (by decide)⟩

end Queue

end JournalCache

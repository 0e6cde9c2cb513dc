import JournalCache.Journal.Basic
import JournalCache.Proofs.Holdings.Contents

/-!
# The log of a journal

The log has each message at its own offset (`Journal.Keyed`), and storing keeps that. Under it the
answer to a fetch is made of the messages that the log has in the range, one at an offset, and so
are the items that a queue shows of a stretch of the log (`Journal.items`).
-/

namespace JournalCache

namespace Journal

/-- The log has each message at its own offset. -/
def Keyed (j : Journal) : Prop := ∀ o m, j.log.get? o = some m → m.offset = o

def range (j : Journal) (first upTo : Offset) : List Message :=
  (j.log.entriesWithin first upTo).map (·.2)

/-- The items of an agent that the log has from `low` to `high`, both counted, without test
messages. -/
def items (j : Journal) (low high : Offset) (agent : String) : List (Offset × Item) :=
  (j.log.entries.filter fun e =>
      low ≤ e.1 && e.1 ≤ high && e.2.agent == agent && !e.2.isTest).map
    fun e => (e.1, Item.ofMessage e.2)

/-! ## Storing -/

theorem get?_store (j : Journal) (ms : List Message) (o : Offset) :
    (j.store ms).log.get? o = (Message.lastAt? o ms).or (j.log.get? o) := by
  have hsnd : ((·.2) ∘ fun m : Message => (m.offset, m)) = id := rfl
  rw [store, SortedMap.get?_insertAll, SortedMap.lastWrite?, Message.lastAt?, ← List.map_reverse,
    List.find?_map, Option.map_map, hsnd, Option.map_id]
  rfl

theorem get?_store_of_notMem (j : Journal) {ms : List Message} {o : Offset}
    (h : ∀ m ∈ ms, m.offset ≠ o) : (j.store ms).log.get? o = j.log.get? o := by
  have hnone : Message.lastAt? o ms = none := by
    rw [Message.lastAt?, List.find?_eq_none]
    intro m hm
    simpa using h m (List.mem_reverse.1 hm)
  rw [get?_store, hnone, Option.none_or]

theorem get?_store_singleton (j : Journal) (m : Message) :
    (j.store [m]).log.get? m.offset = some m := by
  rw [get?_store, Message.lastAt?]
  simp

theorem mem_of_get?_store {j : Journal} {ms : List Message} {o : Offset} {m : Message}
    (h : (j.store ms).log.get? o = some m) : m ∈ ms ∧ m.offset = o ∨ j.log.get? o = some m := by
  rw [get?_store] at h
  cases hlast : Message.lastAt? o ms with
  | none =>
      rw [hlast] at h
      exact .inr h
  | some n =>
      rw [hlast] at h
      obtain rfl : n = m := Option.some.inj h
      have hmem := List.mem_reverse.1 (List.mem_of_find?_eq_some hlast)
      exact .inl ⟨hmem, by simpa using List.find?_some hlast⟩

theorem Keyed.store {j : Journal} (h : j.Keyed) (ms : List Message) : (j.store ms).Keyed := by
  intro o m hm
  rcases mem_of_get?_store hm with ⟨-, ho⟩ | hm
  · exact ho
  · exact h o m hm

theorem keyed_empty : Journal.empty.Keyed := by
  intro o m hm
  cases hm

theorem keep_eq (j : Journal) (r : Delivery) : j.keep r = j.store r.batch := by
  cases r <;> rfl

/-! ## Stretches of the log -/

variable {j : Journal}

theorem Keyed.mem_entries (h : j.Keyed) {e : Offset × Message} :
    e ∈ j.log.entries ↔ e.1 = e.2.offset ∧ j.log.get? e.2.offset = some e.2 := by
  constructor
  · intro he
    have hget : j.log.get? e.1 = some e.2 := SortedMap.get?_eq_some.2 he
    have hkey := h _ _ hget
    exact ⟨hkey.symm, hkey ▸ hget⟩
  · intro hall
    rcases hall with ⟨hkey, hget⟩
    rw [← hkey] at hget
    exact SortedMap.get?_eq_some.1 hget

theorem Keyed.mem_range (h : j.Keyed) {first upTo : Offset} {m : Message} :
    m ∈ j.range first upTo ↔ j.log.get? m.offset = some m ∧ first ≤ m.offset ∧ m.offset < upTo := by
  simp only [range, SortedMap.entriesWithin, List.mem_map, List.mem_filter, h.mem_entries,
    decide_eq_true_eq, Std.not_lt]
  constructor
  · intro hall
    rcases hall with ⟨⟨o, n⟩, ⟨⟨ho, hget⟩, hfirst, hupTo⟩, rfl⟩
    obtain rfl : o = n.offset := ho
    exact ⟨hget, hfirst, hupTo⟩
  · intro hall
    rcases hall with ⟨hget, hfirst, hupTo⟩
    exact ⟨(m.offset, m), ⟨⟨rfl, hget⟩, hfirst, hupTo⟩, rfl⟩

theorem Keyed.nodup_range (h : j.Keyed) (first upTo : Offset) :
    ((j.range first upTo).map (·.offset)).Nodup := by
  have hsorted : (j.log.entriesWithin first upTo).Pairwise fun a b => a.1 < b.1 :=
    j.log.increasing.sublist List.filter_sublist
  rw [range, List.map_map, List.Nodup, List.pairwise_map]
  refine hsorted.imp_of_mem fun {a b} ha hb hlt hab => ?_
  have hkey : ∀ e ∈ j.log.entriesWithin first upTo, e.1 = e.2.offset :=
    fun e he => (h.mem_entries.1 (List.mem_filter.1 he).1).1
  change a.2.offset = b.2.offset at hab
  rw [hkey a ha, hkey b hb, hab] at hlt
  exact Std.lt_irrefl hlt

theorem Keyed.mem_items (h : j.Keyed) {low high : Offset} {agent : String} {e : Offset × Item} :
    e ∈ j.items low high agent ↔ ∃ m : Message, j.log.get? m.offset = some m ∧ m.isTest = false ∧
      low ≤ m.offset ∧ m.offset ≤ high ∧ m.agent = agent ∧ (m.offset, Item.ofMessage m) = e := by
  simp only [items, List.mem_map, List.mem_filter, h.mem_entries, Bool.and_eq_true,
    decide_eq_true_eq, beq_iff_eq, Bool.not_eq_true']
  constructor
  · intro hall
    rcases hall with ⟨⟨o, m⟩, ⟨⟨ho, hget⟩, ⟨⟨hlow, hhigh⟩, hagent⟩, htest⟩, rfl⟩
    obtain rfl : o = m.offset := ho
    exact ⟨m, hget, htest, hlow, hhigh, hagent, rfl⟩
  · intro hall
    rcases hall with ⟨m, hget, htest, hlow, hhigh, hagent, rfl⟩
    exact ⟨(m.offset, m), ⟨⟨rfl, hget⟩, ⟨⟨hlow, hhigh⟩, hagent⟩, htest⟩, rfl⟩

theorem pairwise_items (j : Journal) (low high : Offset) (agent : String) :
    (j.items low high agent).Pairwise fun a b => a.1 < b.1 := by
  rw [items, List.pairwise_map]
  exact j.log.increasing.sublist List.filter_sublist

/-- A queue that answers as the log does lists what the log has. -/
theorem entries_eq_items {q : Queue Item} {low high : Offset} {agent : String}
    (h : ∀ o i, q.get? o = some i ↔ (o, i) ∈ j.items low high agent) :
    q.entries = j.items low high agent := by
  have hq : q = ⟨j.items low high agent, j.pairwise_items low high agent⟩ := by
    apply SortedMap.ext_get?
    intro o
    apply Option.ext
    intro i
    rw [h, SortedMap.get?_eq_some]
  rw [hq]

end Journal

end JournalCache

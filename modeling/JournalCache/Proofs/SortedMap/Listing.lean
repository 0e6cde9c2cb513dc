import JournalCache.Proofs.SortedMap.Lookup
import Mathlib.Data.List.Dedup

/-!
# What a sorted map lists

Everything that a sorted map lists can be told from its answers and the writes that made it: the
keys are those written, each once and in order (`keys_ofList`), and each stands with the value that
was last written to it (`entries_ofList`). The first and the last entry are those of the first and
the last key.
-/

namespace JournalCache

namespace SortedMap

def entryAt? {κ ν : Type} [DecidableEq κ] (es : List (κ × ν)) (k : κ) : Option (κ × ν) :=
  (lastWrite? k es).map fun v => (k, v)

/-! ## Keys and entries -/

section Keys

variable {κ ν : Type} [LT κ] [LE κ] [Std.IsLinearOrder κ] [Std.LawfulOrderLT κ] [DecidableLT κ]
  (m : SortedMap κ ν)

omit [LE κ] [Std.IsLinearOrder κ] [Std.LawfulOrderLT κ] [DecidableLT κ] in
theorem increasing_keys : m.keys.Pairwise (· < ·) := List.pairwise_map.2 m.increasing

theorem entry_of_mem {e : κ × ν} (he : e ∈ m.entries) :
    ((m.get? e.1).map fun v => (e.1, v)) = some e := by
  rw [get?_eq_some.2 he]
  rfl

theorem entries_eq : m.entries = m.keys.filterMap fun k => (m.get? k).map fun v => (k, v) := by
  rw [keys, List.filterMap_map]
  calc m.entries = m.entries.filterMap some := List.filterMap_some.symm
    _ = m.entries.filterMap fun e => (m.get? e.1).map fun v => (e.1, v) :=
        List.filterMap_congr fun e he => (m.entry_of_mem he).symm

theorem first?_eq :
    m.first? = m.keys.head?.bind fun k => (m.get? k).map fun v => (k, v) := by
  rw [first?, keys, List.head?_map]
  cases h : m.entries.head? with
  | none => rfl
  | some e => exact (m.entry_of_mem (List.mem_of_head? h)).symm

theorem last?_eq :
    m.last? = m.keys.getLast?.bind fun k => (m.get? k).map fun v => (k, v) := by
  rw [last?, keys, List.getLast?_map]
  cases h : m.entries.getLast? with
  | none => rfl
  | some e => exact (m.entry_of_mem (List.mem_of_getLast? h)).symm

end Keys

/-! ## The keys that were written -/

section WrittenKeys

variable {κ ν : Type} [DecidableEq κ] (es : List (κ × ν))

theorem isSome_lastWrite? {k : κ} : (lastWrite? k es).isSome ↔ k ∈ es.map (·.1) := by
  rw [lastWrite?, Option.isSome_map, List.find?_isSome]
  simp

variable [LE κ] [DecidableLE κ]

/-- The keys written, each once and in order. -/
def writtenKeys : List κ := (es.map (·.1)).dedup.mergeSort

def listing : List (κ × ν) := (writtenKeys es).filterMap (entryAt? es)

theorem mem_writtenKeys {k : κ} : k ∈ writtenKeys es ↔ k ∈ es.map (·.1) := by
  rw [writtenKeys, List.mem_mergeSort, List.mem_dedup]

theorem nodup_writtenKeys : (writtenKeys es).Nodup :=
  (List.mergeSort_perm _ _).nodup_iff.2 (List.nodup_dedup _)

theorem length_writtenKeys : (writtenKeys es).length = (es.map (·.1)).dedup.length :=
  List.length_mergeSort _

theorem increasing_writtenKeys [LT κ] [Std.IsLinearOrder κ] [Std.LawfulOrderLT κ] :
    (writtenKeys es).Pairwise (· < ·) := by
  have hsorted : (writtenKeys es).Pairwise fun a b => decide (a ≤ b) :=
    List.pairwise_mergeSort
      (fun a b c hab hbc => by
        rw [decide_eq_true_eq] at hab hbc ⊢
        exact Std.le_trans hab hbc)
      (fun a b => by simpa using Std.le_total) _
  refine (hsorted.and (nodup_writtenKeys es)).imp fun {a b} hab => ?_
  exact Std.lt_of_le_of_ne (of_decide_eq_true hab.1) hab.2

end WrittenKeys

/-! ## The map that writes leave -/

section Writes

variable {κ ν : Type} [DecidableEq κ] [LT κ] [LE κ] [Std.IsLinearOrder κ] [Std.LawfulOrderLT κ]
  [DecidableLT κ] (es : List (κ × ν))

theorem mem_keys_insertAll {m : SortedMap κ ν} {k : κ} :
    k ∈ (m.insertAll es).keys ↔ k ∈ es.map (·.1) ∨ k ∈ m.keys := by
  rw [mem_keys, get?_insertAll, Option.isSome_or, Bool.or_eq_true, isSome_lastWrite?, mem_keys]

theorem mem_keys_ofList {k : κ} : k ∈ (ofList es).keys ↔ k ∈ es.map (·.1) := by
  rw [mem_keys, get?_ofList, isSome_lastWrite?]

theorem isEmpty_ofList : (ofList es).isEmpty = es.isEmpty := by
  have hkeys : (ofList es).keys = [] ↔ es.map (·.1) = [] := by
    simp only [List.eq_nil_iff_forall_not_mem, mem_keys_ofList]
  rw [keys, List.map_eq_nil_iff, List.map_eq_nil_iff] at hkeys
  rw [isEmpty, Bool.eq_iff_iff, List.isEmpty_iff, List.isEmpty_iff, hkeys]

variable [DecidableLE κ]

theorem keys_ofList : (ofList es).keys = writtenKeys es := by
  refine List.Perm.eq_of_pairwise ?_ (ofList es).increasing_keys (increasing_writtenKeys es) ?_
  · intro a b _ _ hab hba
    exact absurd (Std.lt_trans hab hba) Std.lt_irrefl
  · refine (List.perm_ext_iff_of_nodup (ofList es).nodup_keys (nodup_writtenKeys es)).2 fun k => ?_
    rw [mem_keys_ofList, mem_writtenKeys]

theorem entries_ofList : (ofList es).entries = listing es := by
  rw [entries_eq, keys_ofList, listing]
  refine List.filterMap_congr fun k _ => ?_
  rw [get?_ofList, entryAt?]

theorem size_ofList : (ofList es).size = (es.map (·.1)).dedup.length := by
  rw [← length_writtenKeys, ← keys_ofList, keys, List.length_map, size]

theorem first?_ofList : (ofList es).first? = (writtenKeys es).head?.bind (entryAt? es) := by
  rw [first?_eq, keys_ofList]
  simp only [get?_ofList]
  rfl

theorem last?_ofList : (ofList es).last? = (writtenKeys es).getLast?.bind (entryAt? es) := by
  rw [last?_eq, keys_ofList]
  simp only [get?_ofList]
  rfl

end Writes

end SortedMap

end JournalCache

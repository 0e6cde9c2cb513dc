/-!
# Finite maps kept in key order

A `SortedMap` is a list of entries whose keys strictly increase, so a map has one list only and two
maps are equal when their entries are. `insert` overwrites: of several writes to one key the last
wins. Everything that is shown in order (the packages of an agent by offset, the agents by name,
the journal's log) is such a map.
-/

namespace JournalCache

/-- A finite map, held as its entries in strictly increasing order of their keys. -/
@[ext] structure SortedMap (κ ν : Type) [LT κ] where
  /-- The entries in key order. -/
  entries : List (κ × ν)
  /-- Each key lies below all later ones. -/
  increasing : entries.Pairwise fun a b => a.1 < b.1

namespace SortedMap

variable {κ ν : Type} [LT κ] [DecidableLT κ]

instance [DecidableEq κ] [DecidableEq ν] : DecidableEq (SortedMap κ ν) := fun m n =>
  decidable_of_iff (m.entries = n.entries) SortedMap.ext_iff.symm

def empty : SortedMap κ ν := ⟨[], .nil⟩

instance : Inhabited (SortedMap κ ν) := ⟨empty⟩

/-- Writes `v` at `k` into a list of entries in key order. -/
def insertInto (k : κ) (v : ν) : List (κ × ν) → List (κ × ν)
  | [] => [(k, v)]
  | e :: es =>
    if k < e.1 then (k, v) :: e :: es
    else if e.1 < k then e :: insertInto k v es
    else (k, v) :: es

section Order

variable [LE κ] [Std.IsLinearOrder κ] [Std.LawfulOrderLT κ]

omit [DecidableLT κ] in
theorem key_eq_of_not_lt {a b : κ} (h : ¬ a < b) (h' : ¬ b < a) : a = b :=
  Std.le_antisymm (Std.not_lt.mp h') (Std.not_lt.mp h)

omit [LE κ] [Std.IsLinearOrder κ] [Std.LawfulOrderLT κ] in
/-- Every entry after a write is the one written or was there before. -/
theorem mem_insertInto {k : κ} {v : ν} {es : List (κ × ν)} {e : κ × ν}
    (h : e ∈ insertInto k v es) : e = (k, v) ∨ e ∈ es := by
  induction es with
  | nil => exact .inl (by simpa [insertInto] using h)
  | cons f es ih =>
    simp only [insertInto] at h
    split at h
    · simpa using h
    · split at h
      · rcases List.mem_cons.1 h with rfl | h
        · exact .inr (by simp)
        · rcases ih h with rfl | h
          · exact .inl rfl
          · exact .inr (by simp [h])
      · rcases List.mem_cons.1 h with rfl | h
        · exact .inl rfl
        · exact .inr (by simp [h])

theorem pairwise_insertInto {k : κ} {v : ν} {es : List (κ × ν)}
    (h : es.Pairwise fun a b => a.1 < b.1) :
    (insertInto k v es).Pairwise fun a b => a.1 < b.1 := by
  induction es with
  | nil => simp [insertInto]
  | cons e es ih =>
    obtain ⟨he, hes⟩ := List.pairwise_cons.1 h
    simp only [insertInto]
    split
    · next hlt =>
      refine List.pairwise_cons.2 ⟨fun f hf => ?_, h⟩
      rcases List.mem_cons.1 hf with rfl | hf
      · exact hlt
      · exact Std.lt_trans hlt (he f hf)
    · next hnlt =>
      split
      · next hgt =>
        refine List.pairwise_cons.2 ⟨fun f hf => ?_, ih hes⟩
        rcases mem_insertInto hf with rfl | hf
        · exact hgt
        · exact he f hf
      · next hngt =>
        obtain rfl := key_eq_of_not_lt hnlt hngt
        exact List.pairwise_cons.2 ⟨he, hes⟩

/-- Writes `v` at `k`, over what was there. -/
def insert (m : SortedMap κ ν) (k : κ) (v : ν) : SortedMap κ ν :=
  ⟨insertInto k v m.entries, pairwise_insertInto m.increasing⟩

/-- Writes the entries of a list one after another. -/
def insertAll (m : SortedMap κ ν) (es : List (κ × ν)) : SortedMap κ ν :=
  es.foldl (fun m e => m.insert e.1 e.2) m

def ofList (es : List (κ × ν)) : SortedMap κ ν := empty.insertAll es

end Order

def erase (m : SortedMap κ ν) (k : κ) : SortedMap κ ν :=
  ⟨m.entries.filter fun e => e.1 < k ∨ k < e.1, m.increasing.filter _⟩

def get? (m : SortedMap κ ν) (k : κ) : Option ν :=
  (m.entries.find? fun e => ¬ e.1 < k ∧ ¬ k < e.1).map (·.2)

def contains (m : SortedMap κ ν) (k : κ) : Bool := (m.get? k).isSome

def keys (m : SortedMap κ ν) : List κ := m.entries.map (·.1)

def values (m : SortedMap κ ν) : List ν := m.entries.map (·.2)

def size (m : SortedMap κ ν) : Nat := m.entries.length

def isEmpty (m : SortedMap κ ν) : Bool := m.entries.isEmpty

def first? (m : SortedMap κ ν) : Option (κ × ν) := m.entries.head?

def last? (m : SortedMap κ ν) : Option (κ × ν) := m.entries.getLast?

/-- The entries whose key is at least `low`, in key order. -/
def entriesFrom (m : SortedMap κ ν) (low : κ) : List (κ × ν) :=
  m.entries.filter fun e => ¬ e.1 < low

/-- The entries whose key is at least `low` and below `high`, in key order. -/
def entriesWithin (m : SortedMap κ ν) (low high : κ) : List (κ × ν) :=
  m.entries.filter fun e => ¬ e.1 < low ∧ e.1 < high

end SortedMap

end JournalCache

import JournalCache.Queue

/-!
# Looking up a key of a sorted map

A sorted map is known from what it answers for each key: `get?` finds an entry exactly when the
entry is listed (`get?_eq_some`), and two maps with the same answers are the same list of entries
(`ext_get?`). What writing does is said in these terms: one write is seen at its own key only
(`get?_insert`), and of several writes to one key the last is seen (`get?_insertAll`).
-/

namespace JournalCache

namespace SortedMap

/-! ## The last of several writes -/

section LastWrite

variable {κ ν : Type} [DecidableEq κ]

/-- The value that the last of several writes to `k` leaves, if there is one. -/
def lastWrite? (k : κ) (es : List (κ × ν)) : Option ν :=
  (es.reverse.find? fun e => e.1 = k).map (·.2)

@[simp] theorem lastWrite?_nil (k : κ) : lastWrite? k ([] : List (κ × ν)) = none := rfl

theorem lastWrite?_cons (k : κ) (e : κ × ν) (es : List (κ × ν)) :
    lastWrite? k (e :: es) = (lastWrite? k es).or (if e.1 = k then some e.2 else none) := by
  unfold lastWrite?
  rw [List.reverse_cons, List.find?_append]
  cases es.reverse.find? fun e => decide (e.1 = k) with
  | none => by_cases h : e.1 = k <;> simp [h]
  | some f => rfl

end LastWrite

/-! ## Entries and answers -/

@[simp] theorem get?_empty {κ ν : Type} [LT κ] [DecidableLT κ] (k : κ) :
    (empty : SortedMap κ ν).get? k = none := rfl

section Entries

variable {κ ν : Type} [LT κ] [LE κ] [Std.IsLinearOrder κ] [Std.LawfulOrderLT κ]

theorem not_lt_both_iff {a b : κ} : (¬ a < b ∧ ¬ b < a) ↔ a = b := by
  constructor
  · intro h
    rcases h with ⟨hab, hba⟩
    exact key_eq_of_not_lt hab hba
  · rintro rfl
    exact ⟨Std.lt_irrefl, Std.lt_irrefl⟩

omit [Std.IsLinearOrder κ] in
theorem eq_of_mem_entries {m : SortedMap κ ν} {e f : κ × ν} (he : e ∈ m.entries)
    (hf : f ∈ m.entries) (h : e.1 = f.1) : e = f := by
  rcases m with ⟨es, hes⟩
  change e ∈ es at he
  change f ∈ es at hf
  induction es with
  | nil => cases he
  | cons g es ih =>
      obtain ⟨hg, hes⟩ := List.pairwise_cons.1 hes
      rcases List.mem_cons.1 he with rfl | he'
      · rcases List.mem_cons.1 hf with rfl | hf'
        · rfl
        · exact absurd (h ▸ hg f hf') Std.lt_irrefl
      · rcases List.mem_cons.1 hf with rfl | hf'
        · exact absurd (h ▸ hg e he') Std.lt_irrefl
        · exact ih hes he' hf'

variable [DecidableLT κ]

theorem get?_eq_some {m : SortedMap κ ν} {k : κ} {v : ν} :
    m.get? k = some v ↔ (k, v) ∈ m.entries := by
  simp only [get?, Option.map_eq_some_iff]
  constructor
  · intro h
    rcases h with ⟨e, he, rfl⟩
    have hkey : e.1 = k := not_lt_both_iff.1 (by simpa using List.find?_some he)
    have hmem := List.mem_of_find?_eq_some he
    rwa [← hkey]
  · intro hmem
    cases hfind : m.entries.find? fun e => decide (¬ e.1 < k ∧ ¬ k < e.1) with
    | none =>
        have hnone := List.find?_eq_none.1 hfind (k, v) hmem
        simp [Std.lt_irrefl] at hnone
    | some e =>
        have hkey : e.1 = k := not_lt_both_iff.1 (by simpa using List.find?_some hfind)
        have heq := eq_of_mem_entries (List.mem_of_find?_eq_some hfind) hmem hkey
        exact ⟨e, rfl, by rw [heq]⟩

omit [Std.IsLinearOrder κ] [DecidableLT κ] in
theorem nodup_keys (m : SortedMap κ ν) : m.keys.Nodup := by
  rw [keys, List.Nodup, List.pairwise_map]
  apply m.increasing.imp
  intro e f hlt hef
  exact Std.lt_irrefl (hef ▸ hlt)

omit [Std.IsLinearOrder κ] [DecidableLT κ] in
theorem nodup_entries (m : SortedMap κ ν) : m.entries.Nodup := by
  apply m.increasing.imp
  intro e f hlt hef
  exact Std.lt_irrefl (hef ▸ hlt)

theorem ext_get? {m n : SortedMap κ ν} (h : ∀ k, m.get? k = n.get? k) : m = n := by
  have hmem : ∀ e, e ∈ m.entries ↔ e ∈ n.entries := by
    intro e
    rw [← get?_eq_some (k := e.1) (v := e.2), ← get?_eq_some (k := e.1) (v := e.2), h]
  apply SortedMap.ext
  refine List.Perm.eq_of_pairwise ?_ m.increasing n.increasing ?_
  · intro a b _ _ hab hba
    exact absurd (Std.lt_trans hab hba) Std.lt_irrefl
  · exact (List.perm_ext_iff_of_nodup m.nodup_entries n.nodup_entries).2 hmem

theorem mem_keys {m : SortedMap κ ν} {k : κ} : k ∈ m.keys ↔ (m.get? k).isSome := by
  simp [keys, Option.isSome_iff_exists, get?_eq_some]

end Entries

/-! ## Writing -/

section Writing

variable {κ ν : Type} [LT κ] [DecidableLT κ] [LE κ] [Std.IsLinearOrder κ] [Std.LawfulOrderLT κ]

theorem mem_insertInto_iff {k : κ} {v : ν} {es : List (κ × ν)}
    (h : es.Pairwise fun a b => a.1 < b.1) {e : κ × ν} :
    e ∈ insertInto k v es ↔ e = (k, v) ∨ e ∈ es ∧ e.1 ≠ k := by
  induction es with
  | nil => simp [insertInto]
  | cons f es ih =>
      obtain ⟨hf, hes⟩ := List.pairwise_cons.1 h
      simp only [insertInto]
      split
      · next hlt =>
        -- every key listed lies above `k`
        have hne : ∀ g ∈ f :: es, g.1 ≠ k := by
          intro g hg hgk
          rcases List.mem_cons.1 hg with rfl | hg
          · exact Std.lt_irrefl (hgk ▸ hlt)
          · exact Std.lt_irrefl (hgk ▸ Std.lt_trans hlt (hf g hg))
        rw [List.mem_cons]
        exact or_congr_right ⟨fun hg => ⟨hg, hne e hg⟩, fun hg => hg.1⟩
      · next hnlt =>
        split
        · next hgt =>
          have hfk : f.1 ≠ k := fun hfk => Std.lt_irrefl (hfk ▸ hgt)
          rw [List.mem_cons, ih hes, List.mem_cons]
          constructor
          · rintro (rfl | rfl | ⟨he, hk⟩)
            · exact .inr ⟨.inl rfl, hfk⟩
            · exact .inl rfl
            · exact .inr ⟨.inr he, hk⟩
          · rintro (rfl | ⟨rfl | he, hk⟩)
            · exact .inr (.inl rfl)
            · exact .inl rfl
            · exact .inr (.inr ⟨he, hk⟩)
        · next hngt =>
          obtain rfl := key_eq_of_not_lt hnlt hngt
          have hne : ∀ g ∈ es, g.1 ≠ f.1 := fun g hg hgf => Std.lt_irrefl (hgf ▸ hf g hg)
          rw [List.mem_cons, List.mem_cons]
          constructor
          · rintro (rfl | he)
            · exact .inl rfl
            · exact .inr ⟨.inr he, hne e he⟩
          · rintro (rfl | ⟨rfl | he, hk⟩)
            · exact .inl rfl
            · exact absurd rfl hk
            · exact .inr he

variable [DecidableEq κ]

theorem get?_insert (m : SortedMap κ ν) (k l : κ) (v : ν) :
    (m.insert k v).get? l = if l = k then some v else m.get? l := by
  apply Option.ext
  intro w
  rw [get?_eq_some]
  simp only [insert, mem_insertInto_iff m.increasing, Prod.mk.injEq]
  by_cases hlk : l = k
  · simp [hlk, eq_comm]
  · simp [hlk, get?_eq_some]

theorem mem_keys_insert {m : SortedMap κ ν} {k l : κ} {v : ν} :
    l ∈ (m.insert k v).keys ↔ l = k ∨ l ∈ m.keys := by
  rw [mem_keys, mem_keys, get?_insert]
  by_cases h : l = k
  · simp [h]
  · simp [h]

/-- A new key stands beside those that were there. -/
theorem perm_keys_insert {m : SortedMap κ ν} {k : κ} (h : k ∉ m.keys) (v : ν) :
    (m.insert k v).keys.Perm (m.keys ++ [k]) := by
  refine (List.perm_ext_iff_of_nodup (m.insert k v).nodup_keys ?_).2 fun l => ?_
  · rw [List.nodup_append]
    refine ⟨m.nodup_keys, List.pairwise_singleton _ k, ?_⟩
    rintro a ha b hb rfl
    exact h (List.mem_singleton.1 hb ▸ ha)
  · rw [mem_keys_insert, List.mem_append, List.mem_singleton, or_comm]

theorem get?_insertAll (m : SortedMap κ ν) (es : List (κ × ν)) (k : κ) :
    (m.insertAll es).get? k = (lastWrite? k es).or (m.get? k) := by
  induction es generalizing m with
  | nil => simp [insertAll]
  | cons e es ih =>
      have hstep : m.insertAll (e :: es) = (m.insert e.1 e.2).insertAll es := rfl
      rw [hstep, ih, get?_insert, lastWrite?_cons]
      by_cases h : k = e.1
      · simp [h]
      · simp [h, Ne.symm h]

theorem get?_ofList (es : List (κ × ν)) (k : κ) : (ofList es).get? k = lastWrite? k es := by
  rw [ofList, get?_insertAll]
  simp

/-- The entries of a map, written one after another, leave what the map has at each key. -/
theorem lastWrite?_entries (m : SortedMap κ ν) (k : κ) : lastWrite? k m.entries = m.get? k := by
  apply Option.ext
  intro v
  rw [get?_eq_some]
  simp only [lastWrite?, Option.map_eq_some_iff]
  constructor
  · intro h
    rcases h with ⟨e, he, rfl⟩
    have hkey : e.1 = k := by simpa using List.find?_some he
    rw [← hkey]
    simpa using List.mem_of_find?_eq_some he
  · intro hmem
    cases hfind : m.entries.reverse.find? fun e => decide (e.1 = k) with
    | none =>
        have hnone := List.find?_eq_none.1 hfind (k, v) (by simpa using hmem)
        simp at hnone
    | some e =>
        have hkey : e.1 = k := by simpa using List.find?_some hfind
        have hmem' : e ∈ m.entries := by simpa using List.mem_of_find?_eq_some hfind
        exact ⟨e, rfl, by rw [eq_of_mem_entries hmem' hmem hkey]⟩

end Writing

end SortedMap

namespace Queue

variable {α : Type}

/-- What is staged for an offset overwrites what was there. -/
theorem get?_putStaged (q staged : Queue α) (o : Offset) :
    (q.putStaged staged).get? o = (staged.get? o).or (q.get? o) := by
  rw [putStaged, SortedMap.get?_insertAll, SortedMap.lastWrite?_entries]

end Queue

end JournalCache

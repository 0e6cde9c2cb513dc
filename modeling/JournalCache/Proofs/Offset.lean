import JournalCache.Offset

/-!
# The order of offsets

Offsets are words, and of two words one is the smaller. Said here is what the smaller and the
greater of two words and of a list are, and which offset comes next.
-/

namespace JournalCache

theorem min_eq_left_of_le {a b : Offset} (h : a ≤ b) : min a b = a := if_pos h

theorem min_eq_right_of_le {a b : Offset} (h : b ≤ a) : min a b = b := by
  by_cases hab : a ≤ b
  · rw [min_eq_left_of_le hab, Std.le_antisymm hab h]
  · exact if_neg hab

theorem max_eq_right_of_le {a b : Offset} (h : a ≤ b) : max a b = b := if_pos h

theorem max_eq_left_of_le {a b : Offset} (h : b ≤ a) : max a b = a := by
  by_cases hab : a ≤ b
  · rw [max_eq_right_of_le hab, Std.le_antisymm hab h]
  · exact if_neg hab

instance : Std.LawfulOrderMax Offset := by
  refine .of_max_le_iff (fun a b c => ?_) fun a b => ?_
  · rcases Std.le_total (a := a) (b := b) with h | h
    · rw [max_eq_right_of_le h]
      exact ⟨fun hb => ⟨Std.le_trans h hb, hb⟩, fun hab => hab.2⟩
    · rw [max_eq_left_of_le h]
      exact ⟨fun ha => ⟨ha, Std.le_trans h ha⟩, fun hab => hab.1⟩
  · rcases Std.le_total (a := a) (b := b) with h | h
    · exact .inr (max_eq_right_of_le h)
    · exact .inl (max_eq_left_of_le h)

/-! ## The least and the greatest of a list -/

theorem min?_concat {α : Type} [Min α] (xs : List α) (x : α) :
    (xs ++ [x]).min? = some (xs.min?.elim x (min · x)) := by
  cases xs with
  | nil => rfl
  | cons y xs => rw [List.cons_append, List.min?_cons', List.min?_cons', List.foldl_append]; rfl

theorem max?_concat {α : Type} [Max α] (xs : List α) (x : α) :
    (xs ++ [x]).max? = some (xs.max?.elim x (max · x)) := by
  cases xs with
  | nil => rfl
  | cons y xs => rw [List.cons_append, List.max?_cons', List.max?_cons', List.foldl_append]; rfl

/-- The least offset depends only on which offsets there are. -/
theorem min?_congr {os ps : List Offset} (h : ∀ o, o ∈ os ↔ o ∈ ps) : os.min? = ps.min? := by
  apply Option.ext
  intro o
  simp only [List.min?_eq_some_iff, h]

/-- The greatest offset depends only on which offsets there are. -/
theorem max?_congr {os ps : List Offset} (h : ∀ o, o ∈ os ↔ o ∈ ps) : os.max? = ps.max? := by
  apply Option.ext
  intro o
  simp only [List.max?_eq_some_iff, h]

/-- The least offset of a list can only fall when others come to it. -/
theorem exists_min?_append {os : List Offset} {o : Offset} (h : os.min? = some o)
    (ps : List Offset) : ∃ p, (os ++ ps).min? = some p ∧ p ≤ o := by
  have hmem := List.mem_append_left ps (List.min?_mem h)
  obtain ⟨p, hp⟩ := Option.isSome_iff_exists.1 (List.isSome_min?_of_mem hmem)
  exact ⟨p, hp, (List.min?_eq_some_iff.1 hp).2 o hmem⟩

/-- The greatest offset of a list can only rise when others come to it. -/
theorem exists_max?_append {os : List Offset} {o : Offset} (h : os.max? = some o)
    (ps : List Offset) : ∃ p, (os ++ ps).max? = some p ∧ o ≤ p := by
  have hmem := List.mem_append_left ps (List.max?_mem h)
  obtain ⟨p, hp⟩ := Option.isSome_iff_exists.1 (List.isSome_max?_of_mem hmem)
  exact ⟨p, hp, (List.max?_eq_some_iff.1 hp).2 o hmem⟩

theorem head?_eq_min? {os : List Offset} (h : os.Pairwise (· < ·)) : os.head? = os.min? :=
  (List.min?_eq_head? (h.imp fun hab => min_eq_left_of_le (Std.le_of_lt hab))).symm

theorem getLast?_eq_max? {os : List Offset} (h : os.Pairwise (· < ·)) :
    os.getLast? = os.max? := by
  have hdown : os.reverse.Pairwise fun a b => max a b = a :=
    List.pairwise_reverse.2 (h.imp fun hab => max_eq_left_of_le (Std.le_of_lt hab))
  rw [← List.head?_reverse, ← List.max?_eq_head? hdown]
  exact max?_congr fun o => List.mem_reverse

/-! ## The word of a mark -/

theorem getD_shownOffset (mark : Offset) : (shownOffset mark).getD reservedOffset = mark := by
  unfold shownOffset
  split
  · next h => exact h.symm
  · rfl

/-! ## The next offset -/

theorem offset_add_one_le_iff {a b : Offset} (h : a ≠ reservedOffset) : a + 1 ≤ b ↔ a < b := by
  have hne : a.toNat ≠ 2 ^ 64 - 1 := fun heq => h (UInt64.toNat.inj heq)
  have hlt := a.toNat_lt
  rw [UInt64.le_iff_toNat_le, UInt64.lt_iff_toNat_lt, UInt64.toNat_add]
  simp only [UInt64.toNat_one]
  omega

theorem offset_lt_add_one {a : Offset} (h : a ≠ reservedOffset) : a < a + 1 :=
  (offset_add_one_le_iff h).1 (Std.le_refl _)

end JournalCache

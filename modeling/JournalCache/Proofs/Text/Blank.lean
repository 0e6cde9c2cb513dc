import JournalCache.Text.Blank

/-!
# Texts without the blanks around them

Skipping blanks leaves what comes behind all of them (`skipBlanks_eq_iff`). Trimming does so at both
ends: what it leaves is the only part of the text that starts and ends with no blank and has nothing
but blanks around it (`trimBlanks_eq_iff`).
-/

namespace JournalCache

namespace Text

def AllBlank (cs : List Char) : Prop := ∀ c ∈ cs, isBlank c

/-- The text does not start with a blank. -/
def StartsVisible (cs : List Char) : Prop := ∀ c ∈ cs.head?, isBlank c = false

variable {b cs t : List Char}

theorem skipBlanks_append (hb : AllBlank b) (ht : StartsVisible t) : skipBlanks (b ++ t) = t := by
  rw [skipBlanks, List.dropWhile_append_of_pos hb]
  cases t with
  | nil => rfl
  | cons c t => exact List.dropWhile_cons_of_neg (by simp [ht c rfl])

theorem startsVisible_skipBlanks (cs : List Char) : StartsVisible (skipBlanks cs) := by
  intro c hc
  have hnot := List.head?_dropWhile_not isBlank cs
  rw [skipBlanks] at hc
  rw [hc] at hnot
  simpa using hnot

theorem exists_skipBlanks (cs : List Char) : ∃ b, AllBlank b ∧ cs = b ++ skipBlanks cs :=
  ⟨cs.takeWhile isBlank, List.all_eq_true.1 List.all_takeWhile,
    List.takeWhile_append_dropWhile.symm⟩

/-- What is left behind the blanks at the start. -/
theorem skipBlanks_eq_iff :
    skipBlanks cs = t ↔ StartsVisible t ∧ ∃ b, AllBlank b ∧ cs = b ++ t := by
  constructor
  · rintro rfl
    exact ⟨startsVisible_skipBlanks cs, exists_skipBlanks cs⟩
  · rintro ⟨ht, b, hb, rfl⟩
    exact skipBlanks_append hb ht

/-- The part of a text that starts and ends with no blank and has only blanks around it. -/
def IsTrimmed (cs t : List Char) : Prop :=
  StartsVisible t ∧ StartsVisible t.reverse ∧
    ∃ b e, AllBlank b ∧ AllBlank e ∧ cs = b ++ t ++ e

theorem StartsVisible.append {e : List Char} (ht : StartsVisible t) (hne : t ≠ []) :
    StartsVisible (t ++ e) := by
  cases t with
  | nil => exact absurd rfl hne
  | cons c t => exact ht

theorem StartsVisible.of_append {e : List Char} (h : StartsVisible (t ++ e)) :
    StartsVisible t := by
  cases t with
  | nil => exact nofun
  | cons c t => exact h

theorem trimBlanks_of_isTrimmed (h : IsTrimmed cs t) : trimBlanks cs = t := by
  obtain ⟨ht, hend, b, e, hb, he, rfl⟩ := h
  rw [trimBlanks, List.append_assoc]
  by_cases hne : t = []
  · have hall : AllBlank (b ++ e) := fun c hc => (List.mem_append.1 hc).elim (hb c) (he c)
    have hskip : skipBlanks (b ++ e) = [] := by
      simpa using skipBlanks_append (t := []) hall nofun
    rw [hne, List.nil_append, hskip]
    rfl
  · have hrev : AllBlank e.reverse := fun c hc => he c (List.mem_reverse.1 hc)
    rw [skipBlanks_append hb (ht.append hne), List.reverse_append, skipBlanks_append hrev hend,
      List.reverse_reverse]

theorem isTrimmed_trimBlanks (cs : List Char) : IsTrimmed cs (trimBlanks cs) := by
  obtain ⟨b, hb, hcs⟩ := exists_skipBlanks cs
  obtain ⟨e, he, hrest⟩ := exists_skipBlanks (skipBlanks cs).reverse
  have hsplit : skipBlanks cs = trimBlanks cs ++ e.reverse := by
    rw [trimBlanks, ← List.reverse_append, ← hrest, List.reverse_reverse]
  refine ⟨?_, ?_, b, e.reverse, hb, fun c hc => he c (List.mem_reverse.1 hc), ?_⟩
  · exact StartsVisible.of_append (hsplit ▸ startsVisible_skipBlanks cs)
  · rw [trimBlanks, List.reverse_reverse]
    exact startsVisible_skipBlanks _
  · rw [List.append_assoc, ← hsplit]
    exact hcs

theorem trimBlanks_eq_iff : trimBlanks cs = t ↔ IsTrimmed cs t :=
  ⟨fun h => h ▸ isTrimmed_trimBlanks cs, trimBlanks_of_isTrimmed⟩

end Text

end JournalCache

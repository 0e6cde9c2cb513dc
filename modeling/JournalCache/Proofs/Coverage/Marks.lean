import JournalCache.Coverage
import JournalCache.Proofs.Offset

/-!
# The two marks

Lowering leaves the lower one of two words as the lowest mark, so lowering to the reserved offset
changes nothing (`lowest?_lower`). Raising leaves the greater one as the highest mark, but raising
to the reserved offset takes the mark away (`highest?_raise_eq`). As long as there is a lowest mark
at or below the highest one, the offsets between them can be counted by a word (`fits_of_le`).
-/

namespace JournalCache

namespace Coverage

theorem lowest?_eq_some {c : Coverage} {low : Offset} :
    c.lowest? = some low ↔ c.lowMark = low ∧ low ≠ reservedOffset := shownOffset_eq_some

theorem lowest?_eq_none {c : Coverage} : c.lowest? = none ↔ c.lowMark = reservedOffset :=
  shownOffset_eq_none

theorem lowMark_lower (c : Coverage) (o : Offset) : (c.lower o).lowMark = min c.lowMark o := rfl

theorem lowMark_lower_le_iff {c : Coverage} {o p : Offset} :
    (c.lower o).lowMark ≤ p ↔ c.lowMark ≤ p ∨ o ≤ p := by
  rw [lowMark_lower, Std.min_le]

theorem lowest?_lower (c : Coverage) (o : Offset) : (c.lower o).lowest? =
    if o = reservedOffset then c.lowest? else some (c.lowest?.elim o (min · o)) := by
  split
  · next ho => rw [ho, lowest?, lowMark_lower, min_eq_left_of_le (le_reservedOffset _), lowest?]
  · next ho =>
    rw [lowest?_eq_some, lowMark_lower]
    cases hlow : c.lowest? with
    | none =>
        rw [lowest?_eq_none.1 hlow, min_eq_right_of_le (le_reservedOffset o)]
        exact ⟨rfl, ho⟩
    | some low =>
        obtain ⟨rfl, hne⟩ := lowest?_eq_some.1 hlow
        refine ⟨rfl, ?_⟩
        rcases Std.min_eq_or (a := c.lowMark) (b := o) with heq | heq
        · rwa [Option.elim_some, heq]
        · rwa [Option.elim_some, heq]

theorem highest?_eq_some {c : Coverage} {high : Offset} :
    c.highest? = some high ↔ c.highMark = high ∧ high ≠ reservedOffset := shownOffset_eq_some

theorem highest?_eq_none {c : Coverage} : c.highest? = none ↔ c.highMark = reservedOffset :=
  shownOffset_eq_none

theorem highest?_raise_eq (c : Coverage) (o : Offset) : (c.raise o).highest? =
    if o = reservedOffset then none else some (c.highest?.elim o (max · o)) := by
  split
  · next ho =>
    rw [highest?_eq_none, highMark_raise, raisedMark, ho]
    split
    · rfl
    · next hmark =>
      rw [not_or] at hmark
      exact absurd (Std.lt_of_le_of_ne (le_reservedOffset _) hmark.1) hmark.2
  · next ho =>
    rw [highest?_eq_some, highMark_raise, raisedMark]
    cases hhigh : c.highest? with
    | none =>
        rw [if_pos (.inl (highest?_eq_none.1 hhigh))]
        exact ⟨rfl, ho⟩
    | some high =>
        obtain ⟨rfl, hne⟩ := highest?_eq_some.1 hhigh
        rw [Option.elim_some]
        split
        · next hmark =>
          rw [max_eq_right_of_le (Std.le_of_lt (hmark.resolve_left hne))]
          exact ⟨rfl, ho⟩
        · next hmark =>
          rw [not_or] at hmark
          rw [max_eq_left_of_le (Std.not_lt.1 hmark.2)]
          exact ⟨rfl, hne⟩

theorem highest?_of_raise {c : Coverage} {o high : Offset}
    (h : (c.raise o).highest? = some high) : high = o ∨ c.highest? = some high := by
  rw [highest?_raise_eq] at h
  split at h
  · cases h
  · cases hold : c.highest? with
    | none => exact .inl (by simpa [hold] using h.symm)
    | some p =>
        rw [hold, Option.elim_some, Option.some.injEq] at h
        rcases Std.max_eq_or (a := p) (b := o) with hmax | hmax
        · exact .inr (congrArg some (hmax.symm.trans h))
        · exact .inl (h.symm.trans hmax)

/-- Raising to an offset that is not reserved leaves a mark at or above it and the mark there
was. -/
theorem highest?_raise {c : Coverage} {o : Offset} (ho : o ≠ reservedOffset) :
    ∃ high, (c.raise o).highest? = some high ∧ o ≤ high ∧
      ∀ p, c.highest? = some p → p ≤ high := by
  rw [highest?_raise_eq, if_neg ho]
  cases c.highest? with
  | none => exact ⟨o, rfl, Std.le_refl _, nofun⟩
  | some q =>
      refine ⟨max q o, rfl, Std.right_le_max, fun p hp => ?_⟩
      rw [← Option.some.inj hp]
      exact Std.left_le_max

/-- The marks fit together: there is no highest mark without a lowest one at or below it, and the
number of offsets between them is a word. -/
structure Fits (c : Coverage) : Prop where
  ordered : ∀ high, c.highest? = some high → ∃ low, c.lowest? = some low ∧ low ≤ high ∧
    high < reservedOffset ∧ (span c.lowest? c.highest?).toNat = high.toNat - low.toNat + 1
  unmet : c.highest? = none → span c.lowest? c.highest? = 0

theorem toNat_span {low high : Offset} (hle : low ≤ high) (hlt : high < reservedOffset) :
    (span (some low) (some high)).toNat = high.toNat - low.toNat + 1 := by
  have hhigh : high.toNat < 2 ^ 64 - 1 := UInt64.lt_iff_toNat_lt.1 hlt
  have hsub := UInt64.toNat_sub_of_le _ _ hle
  rw [span, if_pos hle, UInt64.toNat_add, hsub]
  exact Nat.mod_eq_of_lt (by simp only [UInt64.toNat_one]; omega)

theorem fits_of_le {c : Coverage} (h : ∀ high, c.highest? = some high → c.lowMark ≤ high) :
    c.Fits where
  ordered := by
    intro high hhigh
    have hle := h high hhigh
    have hlt : high < reservedOffset :=
      Std.lt_of_le_of_ne (le_reservedOffset _) (shownOffset_eq_some.1 hhigh).2
    have hlow : c.lowest? = some c.lowMark := by
      rw [lowest?_eq_some]
      exact ⟨rfl, fun hmark => Std.not_lt.2 (hmark ▸ hle) hlt⟩
    refine ⟨c.lowMark, hlow, hle, hlt, ?_⟩
    rw [hlow, hhigh]
    exact toNat_span hle hlt
  unmet := by
    intro hnone
    rw [hnone]
    cases c.lowest? <;> rfl

end Coverage

end JournalCache

import JournalCache.Proofs.Coverage.Marks
import Mathlib.Data.List.DropRight

/-!
# The marks after many updates

The reserved offset is at once the largest word and the word for an absent mark. To the lowest mark
this makes no difference: lowering to it changes nothing, so after any updates the mark is the least
of the other offsets lowered to (`lowest?_run`). Raising to it takes the highest mark away, so that
mark is the greatest offset raised to since then (`highest?_run`). Where the mark is never taken
away, both marks move one way and the order of the updates does not matter.
-/

namespace JournalCache

namespace Coverage

inductive Update where
  | lower (offset : Offset)
  | raise (offset : Offset)
  deriving DecidableEq, Repr

namespace Update

def lowered? : Update → Option Offset
  | .lower o => some o
  | .raise _ => none

def raised? : Update → Option Offset
  | .lower _ => none
  | .raise o => some o

/-- The offsets at which updates may leave the lowest mark. -/
def lowCandidates (us : List Update) : List Offset :=
  (us.filterMap lowered?).filter fun o => o ≠ reservedOffset

/-- The offsets at which updates may leave the highest mark: those raised to since it was last taken
away. -/
def highCandidates (us : List Update) : List Offset :=
  (us.filterMap raised?).rtakeWhile fun o => o ≠ reservedOffset

end Update

def update (c : Coverage) : Update → Coverage
  | .lower o => c.lower o
  | .raise o => c.raise o

def run (c : Coverage) (us : List Update) : Coverage := us.foldl update c

theorem run_append (c : Coverage) (us vs : List Update) : c.run (us ++ vs) = (c.run us).run vs :=
  List.foldl_append

theorem run_concat (c : Coverage) (us : List Update) (u : Update) :
    c.run (us ++ [u]) = (c.run us).update u := run_append c us [u]

namespace Update

theorem lowCandidates_concat_lower (us : List Update) (o : Offset) :
    lowCandidates (us ++ [.lower o]) =
      if o = reservedOffset then lowCandidates us else lowCandidates us ++ [o] := by
  rw [lowCandidates, List.filterMap_append, List.filter_append, ← lowCandidates]
  by_cases h : o = reservedOffset <;> simp [lowered?, h]

theorem lowCandidates_concat_raise (us : List Update) (o : Offset) :
    lowCandidates (us ++ [.raise o]) = lowCandidates us := by
  rw [lowCandidates, List.filterMap_append, List.filter_append, ← lowCandidates]
  exact List.append_nil _

theorem highCandidates_concat_lower (us : List Update) (o : Offset) :
    highCandidates (us ++ [.lower o]) = highCandidates us := by
  rw [highCandidates, List.filterMap_append]
  exact congrArg (List.rtakeWhile _) (List.append_nil _)

theorem highCandidates_concat_raise (us : List Update) (o : Offset) :
    highCandidates (us ++ [.raise o]) =
      if o = reservedOffset then [] else highCandidates us ++ [o] := by
  have hraised : [Update.raise o].filterMap raised? = [o] := rfl
  rw [highCandidates, List.filterMap_append, hraised, List.rtakeWhile_concat, ← highCandidates]
  by_cases h : o = reservedOffset <;> simp [h]

theorem lowCandidates_append (us vs : List Update) :
    lowCandidates (us ++ vs) = lowCandidates us ++ lowCandidates vs := by
  rw [lowCandidates, List.filterMap_append, List.filter_append]
  rfl

theorem mem_lowCandidates {us : List Update} {o : Offset} :
    o ∈ lowCandidates us ↔ .lower o ∈ us ∧ o ≠ reservedOffset := by
  have hlowered : (∃ u ∈ us, lowered? u = some o) ↔ .lower o ∈ us := by
    constructor
    · rintro ⟨u, hu, hlow⟩
      cases u <;> cases hlow
      exact hu
    · exact fun hu => ⟨_, hu, rfl⟩
  simp [lowCandidates, List.mem_filterMap, hlowered]

/-- What raises the mark without ever taking it away only adds to the candidates. -/
theorem highCandidates_append {vs : List Update} (us : List Update)
    (h : .raise reservedOffset ∉ vs) :
    highCandidates (us ++ vs) = highCandidates us ++ vs.filterMap raised? := by
  induction vs using List.reverseRecOn with
  | nil => rw [List.append_nil, List.filterMap_nil, List.append_nil]
  | append_singleton vs u ih =>
      rw [List.mem_append, not_or, List.mem_singleton] at h
      rw [← List.append_assoc, List.filterMap_append]
      cases u with
      | lower o =>
          rw [highCandidates_concat_lower, ih h.1]
          exact congrArg _ (List.append_nil _).symm
      | raise o =>
          have ho : o ≠ reservedOffset := by
            rintro rfl
            exact h.2 rfl
          rw [highCandidates_concat_raise, if_neg ho, ih h.1, List.append_assoc]
          rfl

theorem highCandidates_eq {us : List Update} (h : .raise reservedOffset ∉ us) :
    highCandidates us = us.filterMap raised? := highCandidates_append [] h

end Update

open Update

/-! ## Many updates -/

theorem lowest?_run (us : List Update) :
    (unseeded.run us).lowest? = (lowCandidates us).min? := by
  induction us using List.reverseRecOn with
  | nil => exact shownOffset_reservedOffset
  | append_singleton us u ih =>
      rw [run_concat]
      cases u with
      | lower o =>
          rw [update, lowest?_lower, lowCandidates_concat_lower, ih]
          split
          · rfl
          · exact (min?_concat _ _).symm
      | raise o => rw [update, lowest?, lowMark_raise, ← lowest?, lowCandidates_concat_raise, ih]

theorem highest?_run (us : List Update) :
    (unseeded.run us).highest? = (highCandidates us).max? := by
  induction us using List.reverseRecOn with
  | nil => exact shownOffset_reservedOffset
  | append_singleton us u ih =>
      rw [run_concat]
      cases u with
      | lower o =>
          rw [update, highest?, highMark_lower, ← highest?, highCandidates_concat_lower, ih]
      | raise o =>
          rw [update, highest?_raise_eq, highCandidates_concat_raise, ih]
          split
          · rfl
          · exact (max?_concat _ _).symm

/-- Marks that show the same are the same. -/
theorem eq_of_shown {c d : Coverage} (hlow : c.lowest? = d.lowest?)
    (hhigh : c.highest? = d.highest?) : c = d := by
  have hlowMark : c.lowMark = d.lowMark := by
    rw [← getD_shownOffset c.lowMark, ← getD_shownOffset d.lowMark]
    exact congrArg (·.getD reservedOffset) hlow
  have hhighMark : c.highMark = d.highMark := by
    rw [← getD_shownOffset c.highMark, ← getD_shownOffset d.highMark]
    exact congrArg (·.getD reservedOffset) hhigh
  cases c
  cases d
  cases hlowMark
  cases hhighMark
  rfl

theorem isSeeded_run (us : List Update) :
    (unseeded.run us).isSeeded ↔ ∃ o, .lower o ∈ us ∧ o ≠ reservedOffset := by
  rw [isSeeded, lowest?_run, List.isSome_min?_iff]
  constructor
  · intro hne
    obtain ⟨o, ho⟩ := List.exists_mem_of_ne_nil _ hne
    exact ⟨o, mem_lowCandidates.1 ho⟩
  · rintro ⟨o, ho⟩
    exact List.ne_nil_of_mem (mem_lowCandidates.2 ho)

theorem loweredMark_run (us : List Update) (o : Offset) : (unseeded.run us).loweredMark o =
    (lowCandidates (us ++ [.lower o])).min?.getD reservedOffset := by
  rw [← lowest?_run, run_concat]
  exact (getD_shownOffset _).symm

theorem raisedMark_run (us : List Update) (o : Offset) : (unseeded.run us).raisedMark o =
    (highCandidates (us ++ [.raise o])).max?.getD reservedOffset := by
  rw [← highest?_run, run_concat, update, highest?, getD_shownOffset, highMark_raise]

theorem lowest?_run_append {us : List Update} {low : Offset}
    (h : (unseeded.run us).lowest? = some low) (more : List Update) :
    ∃ low', (unseeded.run (us ++ more)).lowest? = some low' ∧ low' ≤ low := by
  rw [lowest?_run] at h
  rw [lowest?_run, lowCandidates_append]
  exact exists_min?_append h _

theorem highest?_run_append {us more : List Update} (hmore : .raise reservedOffset ∉ more)
    {high : Offset} (h : (unseeded.run us).highest? = some high) :
    ∃ high', (unseeded.run (us ++ more)).highest? = some high' ∧ high ≤ high' := by
  rw [highest?_run] at h
  rw [highest?_run, highCandidates_append us hmore]
  exact exists_max?_append h _

theorem run_eq_of_perm {us vs : List Update} (hperm : us.Perm vs)
    (hus : .raise reservedOffset ∉ us) : unseeded.run us = unseeded.run vs := by
  have hvs : .raise reservedOffset ∉ vs := mt hperm.mem_iff.2 hus
  apply eq_of_shown
  · rw [lowest?_run, lowest?_run]
    exact min?_congr fun o => ((hperm.filterMap _).filter _).mem_iff
  · rw [highest?_run, highest?_run, highCandidates_eq hus, highCandidates_eq hvs]
    exact max?_congr fun o => (hperm.filterMap _).mem_iff

/-- The marks after updates of marks that were absent, and what is told by the next update. -/
structure Extremes (us : List Update) : Prop where
  lowest? : (unseeded.run us).lowest? = (lowCandidates us).min?
  highest? : (unseeded.run us).highest? = (highCandidates us).max?
  isSeeded : (unseeded.run us).isSeeded = (unseeded.run us).lowest?.isSome
  seeded_iff : (unseeded.run us).isSeeded ↔ ∃ o, .lower o ∈ us ∧ o ≠ reservedOffset
  /-- Whoever lowers is told the least offset, and the reserved one if there is none. -/
  lowers : ∀ o, (unseeded.run us).loweredMark o =
    (lowCandidates (us ++ [.lower o])).min?.getD reservedOffset
  /-- Whoever raises is told the greatest offset, and the reserved one if there is none. -/
  raises : ∀ o, (unseeded.run us).raisedMark o =
    (highCandidates (us ++ [.raise o])).max?.getD reservedOffset
  lower_apart : ∀ o, (unseeded.run (us ++ [.lower o])).highest? = (unseeded.run us).highest?
  raise_apart : ∀ o, (unseeded.run (us ++ [.raise o])).lowest? = (unseeded.run us).lowest?
  /-- The lowest mark only falls. -/
  falls : ∀ more low, (unseeded.run us).lowest? = some low →
    ∃ low', (unseeded.run (us ++ more)).lowest? = some low' ∧ low' ≤ low
  /-- The highest mark only rises, unless it is taken away. -/
  rises : ∀ more, .raise reservedOffset ∉ more → ∀ high, (unseeded.run us).highest? = some high →
    ∃ high', (unseeded.run (us ++ more)).highest? = some high' ∧ high ≤ high'
  /-- Unless the highest mark is taken away, the order does not matter. -/
  inAnyOrder : .raise reservedOffset ∉ us → ∀ vs, us.Perm vs → unseeded.run us = unseeded.run vs

/-- The marks are the least and the greatest of the offsets that they were moved to. -/
theorem extremes (us : List Update) : Extremes us where
  lowest? := lowest?_run us
  highest? := highest?_run us
  isSeeded := rfl
  seeded_iff := isSeeded_run us
  lowers := loweredMark_run us
  raises := raisedMark_run us
  lower_apart := fun o => by rw [highest?_run, highest?_run, highCandidates_concat_lower]
  raise_apart := fun o => by rw [lowest?_run, lowest?_run, lowCandidates_concat_raise]
  falls := fun more _ h => lowest?_run_append h more
  rises := fun _ hmore _ => highest?_run_append hmore
  inAnyOrder := fun hus _ hperm => run_eq_of_perm hperm hus

/-- The highest mark is taken away and set to a smaller offset; before that the order did not
matter. -/
theorem extremes_takenAway :
    let us : List Update :=
      [.raise 9, .lower 7, .raise reservedOffset, .lower reservedOffset, .raise 3]
    Extremes us ∧ (unseeded.run us).lowest? = some 7 ∧ (unseeded.run us).highest? = some 3 ∧
      unseeded.run [.raise 9, .lower 7, .raise 3] =
        unseeded.run [.raise 3, .raise 9, .lower 7] := by
  intro us
  have hother := (extremes [.raise 9, .lower 7, .raise 3]).inAnyOrder (by decide)
  exact ⟨extremes us, (extremes us).lowest?, (extremes us).highest?, hother _ (by decide)⟩

end Coverage

end JournalCache

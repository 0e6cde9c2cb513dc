import JournalCache.Polling
import Mathlib.Algebra.Order.Floor.Div

/-!
# When a condition is looked at

The looks lie on a grid of five milliseconds that begins with the wait. While the condition does not
hold and the timeout is not over, waiting goes on with the next look (`waitFrom_of_lt`). So waiting
ends with the first look at which the condition holds, or with the first look that is not before
the timeout (`lastLook`), whatever the condition does between the looks or after it held once.
-/

namespace JournalCache

namespace Polling

/-- The number of the last look, counted from zero: the first one that the timeout does not
outlast. -/
def lastLook (timeout : Nat) : Nat := timeout ⌈/⌉ interval

theorem lastLook_le_iff {timeout k : Nat} : lastLook timeout ≤ k ↔ timeout ≤ interval * k :=
  ceilDiv_le_iff_le_mul (by decide)

theorem lt_lastLook_iff {timeout k : Nat} : k < lastLook timeout ↔ interval * k < timeout := by
  rw [← Nat.not_le, lastLook_le_iff, Nat.not_le]

theorem mul_le_of_le_lastLook {timeout k : Nat} (h : k ≤ lastLook timeout) :
    interval * k ≤ timeout + 4 := by
  cases k with
  | zero => exact Nat.zero_le _
  | succ k =>
      have hlt := lt_lastLook_iff.1 h
      simp only [interval] at hlt ⊢
      omega

variable {timeout looks elapsed k n : Nat} {condition other : Nat → Bool}

/-! ## A look -/

theorem waitFrom_of_met (h : condition elapsed) :
    waitFrom timeout condition looks elapsed = ⟨true, looks + 1, elapsed⟩ := by
  rw [waitFrom, if_pos h]

theorem waitFrom_of_over (h : ¬ condition elapsed) (hover : timeout ≤ elapsed) :
    waitFrom timeout condition looks elapsed = ⟨false, looks + 1, elapsed⟩ := by
  rw [waitFrom, if_neg h, dif_pos hover]

theorem waitFrom_of_lt (h : ¬ condition elapsed) (hlt : elapsed < timeout) :
    waitFrom timeout condition looks elapsed =
      waitFrom timeout condition (looks + 1) (elapsed + interval) := by
  rw [waitFrom, if_neg h, dif_neg (Nat.not_le.2 hlt)]

/-! ## All looks -/

/-- Waiting goes on to look `n` if the condition held at none before it and none was the last. -/
theorem wait_eq_waitFrom (hn : n ≤ lastLook timeout)
    (h : ∀ k < n, ¬ condition (interval * k)) :
    wait timeout condition = waitFrom timeout condition n (interval * n) := by
  induction n with
  | zero => rfl
  | succ n ih =>
      have hlt : interval * n < timeout := lt_lastLook_iff.1 hn
      rw [ih (Nat.le_of_succ_le hn) fun k hk => h k (Nat.lt_succ_of_lt hk),
        waitFrom_of_lt (h n (Nat.lt_succ_self n)) hlt, Nat.mul_succ]

theorem wait_of_met (hk : k ≤ lastLook timeout) (h : condition (interval * k))
    (hfirst : ∀ j < k, ¬ condition (interval * j)) :
    wait timeout condition = ⟨true, k + 1, interval * k⟩ := by
  rw [wait_eq_waitFrom hk hfirst, waitFrom_of_met h]

theorem wait_of_not_met (h : ∀ k ≤ lastLook timeout, ¬ condition (interval * k)) :
    wait timeout condition = ⟨false, lastLook timeout + 1, interval * lastLook timeout⟩ := by
  rw [wait_eq_waitFrom (Nat.le_refl _) fun k hk => h k (Nat.le_of_lt hk),
    waitFrom_of_over (h _ (Nat.le_refl _)) (lastLook_le_iff.1 (Nat.le_refl _))]

/-- Waiting ends in one of the two ways. -/
theorem wait_cases (timeout : Nat) (condition : Nat → Bool) :
    (∃ k ≤ lastLook timeout, condition (interval * k) ∧ ∀ j < k, ¬ condition (interval * j)) ∨
      ∀ k ≤ lastLook timeout, ¬ condition (interval * k) := by
  by_cases h : ∃ k, k ≤ lastLook timeout ∧ condition (interval * k)
  · obtain ⟨hle, hmet⟩ := Nat.find_spec h
    refine .inl ⟨Nat.find h, hle, hmet, fun j hj hcondition => ?_⟩
    exact Nat.find_min h hj ⟨Nat.le_trans (Nat.le_of_lt hj) hle, hcondition⟩
  · exact .inr fun k hk hcondition => h ⟨k, hk, hcondition⟩

/-- What waiting makes of a condition that depends in any way on the milliseconds that passed. -/
structure LooksEveryFive (timeout : Nat) (condition : Nat → Bool) : Prop where
  /-- If the condition holds at a look, waiting ends with the first such look. -/
  met : ∀ k ≤ lastLook timeout, condition (5 * k) → (∀ j < k, ¬ condition (5 * j)) →
    wait timeout condition = ⟨true, k + 1, 5 * k⟩
  /-- If it holds at none, waiting ends with the last look. -/
  unmet : (∀ k ≤ lastLook timeout, ¬ condition (5 * k)) →
    wait timeout condition = ⟨false, lastLook timeout + 1, 5 * lastLook timeout⟩
  /-- The last look is at most four milliseconds late. -/
  late : timeout ≤ 5 * lastLook timeout ∧ 5 * lastLook timeout ≤ timeout + 4
  /-- Nothing but what the condition is at the looks decides how waiting ends. -/
  only : ∀ other : Nat → Bool, (∀ k ≤ lastLook timeout, other (5 * k) = condition (5 * k)) →
    wait timeout other = wait timeout condition

theorem looksEveryFive (timeout : Nat) (condition : Nat → Bool) :
    LooksEveryFive timeout condition where
  met _ := wait_of_met
  unmet := wait_of_not_met
  late := ⟨lastLook_le_iff.1 (Nat.le_refl _), mul_le_of_le_lastLook (Nat.le_refl _)⟩
  only other h := by
    rcases wait_cases timeout condition with ⟨k, hk, hmet, hfirst⟩ | hnone
    · have hother : ∀ j < k, ¬ other (interval * j) := fun j hj hcondition =>
        hfirst j hj (h j (Nat.le_trans (Nat.le_of_lt hj) hk) ▸ hcondition)
      rw [wait_of_met hk hmet hfirst, wait_of_met hk ((h k hk).trans hmet) hother]
    · have hother : ∀ k ≤ lastLook timeout, ¬ other (interval * k) := fun k hk hcondition =>
        hnone k hk (h k hk ▸ hcondition)
      rw [wait_of_not_met hnone, wait_of_not_met hother]

/-- A timeout of seven milliseconds is met at ten. -/
example : wait 7 (fun ms => 8 ≤ ms) = ⟨true, 3, 10⟩ := by cbv

end Polling

end JournalCache

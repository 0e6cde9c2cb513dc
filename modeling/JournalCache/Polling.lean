/-!
# Waiting for a condition

A condition is looked at every five milliseconds, first at once, until it holds or a timeout is
over. The timeout is looked at after the condition, so the condition is given one more look when the
timeout ends between two looks.
-/

namespace JournalCache

namespace Polling

/-- The milliseconds between two looks. -/
def interval : Nat := 5

structure Outcome where
  /-- Whether the condition held. -/
  isMet : Bool
  /-- How often the condition was looked at. -/
  looks : Nat
  /-- The milliseconds that passed. -/
  elapsed : Nat
  deriving DecidableEq, Repr

/-- Goes on waiting after `looks` looks, with `elapsed` milliseconds gone. -/
def waitFrom (timeout : Nat) (condition : Nat → Bool) (looks elapsed : Nat) : Outcome :=
  if condition elapsed then ⟨true, looks + 1, elapsed⟩
  else if h : timeout ≤ elapsed then ⟨false, looks + 1, elapsed⟩
  else waitFrom timeout condition (looks + 1) (elapsed + interval)
termination_by timeout - elapsed
decreasing_by simp only [interval]; omega

/-- Waits until the condition, which depends on the milliseconds that passed, holds, or until the
timeout, in milliseconds, is over. -/
def wait (timeout : Nat) (condition : Nat → Bool) : Outcome := waitFrom timeout condition 0 0

end Polling

end JournalCache

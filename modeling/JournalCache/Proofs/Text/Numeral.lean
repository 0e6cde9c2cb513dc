import JournalCache.Text.Numeral
import Mathlib.Data.List.Induction
import Mathlib.Data.Nat.Digits.Defs

/-!
# Writing and reading decimal numerals

The digits of a number stand for it (`value_digits`), and zeros in front of them change nothing
(`value_padded`). They are digits and nothing else, at least one, and no more than the number has
places (`length_digits_le`); only the number zero starts with a zero. Whatever digits stand for is
their sum, each times its power of ten (`Writes`), so the readers of numerals can be said to find
the numbers that are written.
-/

namespace JournalCache

namespace Decimal

/-! ## Single digits -/

theorem isDigit_digitChar {n : Nat} (h : n < 10) : isDigit (digitChar n) :=
  (by decide : ∀ n < 10, isDigit (digitChar n) = true) n h

theorem digitValue_digitChar {n : Nat} (h : n < 10) : digitValue (digitChar n) = n :=
  (by decide : ∀ n < 10, digitValue (digitChar n) = n) n h

theorem digitChar_ne_zero {n : Nat} (h : n < 10) (hn : n ≠ 0) : digitChar n ≠ '0' :=
  (by decide : ∀ n < 10, n ≠ 0 → digitChar n ≠ '0') n h hn

/-! ## Reading digits -/

theorem valueFrom_append (n : Nat) (ds es : List Char) :
    valueFrom n (ds ++ es) = valueFrom (valueFrom n ds) es := List.foldl_append

theorem value_concat (ds : List Char) (d : Char) :
    value (ds ++ [d]) = 10 * value ds + digitValue d := valueFrom_append 0 ds [d]

theorem value_replicate_append (k : Nat) (ds : List Char) :
    value (List.replicate k '0' ++ ds) = value ds := by
  induction k with
  | zero => rfl
  | succ k ih => exact ih

/-- Each zero behind a number makes it ten times as large. -/
theorem value_append_replicate (ds : List Char) (k : Nat) :
    value (ds ++ List.replicate k '0') = value ds * Nat.pow 10 k := by
  induction k with
  | zero =>
      rw [List.replicate_zero, List.append_nil]
      exact (Nat.mul_one _).symm
  | succ k ih =>
      have hpow : Nat.pow 10 (k + 1) = Nat.pow 10 k * 10 := rfl
      rw [List.replicate_succ', ← List.append_assoc, value_concat, ih, hpow, Nat.mul_comm 10,
        Nat.mul_assoc]
      rfl

/-! ## The digits of a number -/

theorem digitsOnto_of_lt {n : Nat} (h : n < 10) (rest : List Char) :
    digitsOnto n rest = digitChar n :: rest := by
  rw [digitsOnto, if_pos h]

theorem digitsOnto_of_le {n : Nat} (h : 10 ≤ n) (rest : List Char) :
    digitsOnto n rest = digitsOnto (n / 10) (digitChar (n % 10) :: rest) := by
  rw [digitsOnto, if_neg (by omega)]

theorem digitsOnto_eq (n : Nat) (rest : List Char) : digitsOnto n rest = digits n ++ rest := by
  induction n using Nat.strongRecOn generalizing rest with
  | ind n ih =>
      rw [digits]
      rcases Nat.lt_or_ge n 10 with h | h
      · rw [digitsOnto_of_lt h, digitsOnto_of_lt h]
        rfl
      · rw [digitsOnto_of_le h, digitsOnto_of_le h, ih (n / 10) (by omega),
          ih (n / 10) (by omega), List.append_assoc]
        rfl

theorem digits_of_lt {n : Nat} (h : n < 10) : digits n = [digitChar n] := digitsOnto_of_lt h []

theorem digits_of_le {n : Nat} (h : 10 ≤ n) :
    digits n = digits (n / 10) ++ [digitChar (n % 10)] := by
  rw [digits, digitsOnto_of_le h, digitsOnto_eq]

theorem digits_zero : digits 0 = ['0'] := digits_of_lt (by decide)

theorem digits_ne_nil (n : Nat) : digits n ≠ [] := by
  rcases Nat.lt_or_ge n 10 with h | h
  · rw [digits_of_lt h]
    exact List.cons_ne_nil _ _
  · rw [digits_of_le h]
    exact List.concat_ne_nil _ _

theorem value_digits (n : Nat) : value (digits n) = n := by
  induction n using Nat.strongRecOn with
  | ind n ih =>
      rcases Nat.lt_or_ge n 10 with h | h
      · rw [digits_of_lt h]
        exact (value_concat [] _).trans ((Nat.zero_add _).trans (digitValue_digitChar h))
      · rw [digits_of_le h, value_concat, ih (n / 10) (by omega),
          digitValue_digitChar (by omega)]
        omega

theorem isDigit_of_mem_digits {n : Nat} {c : Char} (h : c ∈ digits n) : isDigit c := by
  induction n using Nat.strongRecOn with
  | ind n ih =>
      rcases Nat.lt_or_ge n 10 with hn | hn
      · rw [digits_of_lt hn, List.mem_singleton] at h
        rw [h]
        exact isDigit_digitChar hn
      · rw [digits_of_le hn, List.mem_append, List.mem_singleton] at h
        rcases h with h | rfl
        · exact ih (n / 10) (by omega) h
        · exact isDigit_digitChar (by omega)

/-- Only zero is written with a zero in front. -/
theorem head?_digits_ne {n : Nat} (h : n ≠ 0) : (digits n).head? ≠ some '0' := by
  induction n using Nat.strongRecOn with
  | ind n ih =>
      rcases Nat.lt_or_ge n 10 with hn | hn
      · rw [digits_of_lt hn]
        exact fun heq => digitChar_ne_zero hn h (Option.some.inj heq)
      · have hhead := ih (n / 10) (by omega) (by omega)
        rw [digits_of_le hn]
        cases hrest : digits (n / 10) with
        | nil => exact absurd hrest (digits_ne_nil _)
        | cons d ds =>
            rw [hrest] at hhead
            exact hhead

/-- A number has no more digits than places. -/
theorem length_digits_le {n k : Nat} (hk : 0 < k) (h : n < Nat.pow 10 k) :
    (digits n).length ≤ k := by
  induction k generalizing n with
  | zero => cases hk
  | succ k ih =>
      rcases Nat.lt_or_ge n 10 with hn | hn
      · rw [digits_of_lt hn]
        exact Nat.succ_le_succ (Nat.zero_le k)
      · have hpow : Nat.pow 10 (k + 1) = Nat.pow 10 k * 10 := rfl
        have hk' : 0 < k := by
          rcases Nat.eq_zero_or_pos k with rfl | hk'
          · exact absurd h (by simpa using hn)
          · exact hk'
        have hrest := ih (n := n / 10) hk' (by omega)
        rw [digits_of_le hn, List.length_append, List.length_singleton]
        omega

/-! ## With zeros in front -/

theorem value_padded (width n : Nat) : value (padded width n) = n :=
  (value_replicate_append _ _).trans (value_digits n)

theorem isDigit_of_mem_padded {width n : Nat} {c : Char} (h : c ∈ padded width n) :
    isDigit c := by
  rcases List.mem_append.1 h with h | h
  · rw [(List.mem_replicate.1 h).2]
    rfl
  · exact isDigit_of_mem_digits h

theorem padded_ne_nil (width n : Nat) : padded width n ≠ [] :=
  List.append_ne_nil_of_right_ne_nil _ (digits_ne_nil n)

/-- A number that fits is filled up to the width. -/
theorem length_padded {width n : Nat} (hwidth : 0 < width) (h : n < Nat.pow 10 width) :
    (padded width n).length = width := by
  have hle := length_digits_le hwidth h
  rw [padded, List.length_append, List.length_replicate]
  omega

theorem le_length_padded (width n : Nat) : width ≤ (padded width n).length := by
  rw [padded, List.length_append, List.length_replicate]
  omega

/-- Nothing is put in front of a number that exceeds the width. -/
theorem padded_of_lt_length {width n : Nat} (h : width < (padded width n).length) :
    padded width n = digits n := by
  have hnone : width - (digits n).length = 0 := by
    rw [padded, List.length_append, List.length_replicate] at h
    omega
  rw [padded, hnone]
  rfl

/-! ## Digits and the number that they write -/

/-- These are digits of ASCII, at least one, and they write the number `n`, whatever zeros stand in
front. -/
structure Writes (ds : List Char) (n : Nat) : Prop where
  ne_nil : ds ≠ []
  isDigit : ∀ d ∈ ds, d.isDigit
  sum_eq : Nat.ofDigits 10 (ds.reverse.map fun d => d.toNat - 48) = n

theorem value_eq_ofDigits (ds : List Char) :
    value ds = Nat.ofDigits 10 (ds.reverse.map fun d => d.toNat - 48) := by
  induction ds using List.reverseRecOn with
  | nil => rfl
  | append_singleton ds d ih =>
      rw [value_concat, List.reverse_concat, List.map_cons, Nat.ofDigits_cons, ← ih, Nat.add_comm]
      rfl

theorem writes_iff {ds : List Char} {n : Nat} :
    Writes ds n ↔ ds ≠ [] ∧ (∀ d ∈ ds, isDigit d) ∧ value ds = n := by
  rw [value_eq_ofDigits]
  exact ⟨fun h => ⟨h.ne_nil, h.isDigit, h.sum_eq⟩, fun h => ⟨h.1, h.2.1, h.2.2⟩⟩

theorem writes_digits (n : Nat) : Writes (digits n) n :=
  writes_iff.2 ⟨digits_ne_nil n, fun _ => isDigit_of_mem_digits, value_digits n⟩

theorem writes_padded (width n : Nat) : Writes (padded width n) n :=
  writes_iff.2 ⟨padded_ne_nil width n, fun _ => isDigit_of_mem_padded, value_padded width n⟩

theorem unsigned?_plus (ds : List Char) :
    unsigned? ('+' :: ds) = if ds.isEmpty || !ds.all isDigit then none else some (value ds) := rfl

theorem unsigned?_of_ne_plus {cs : List Char} (h : ∀ ds, cs ≠ '+' :: ds) :
    unsigned? cs = if cs.isEmpty || !cs.all isDigit then none else some (value cs) := by
  rw [unsigned?]
  exact h

/-- A text is read as a number exactly if its digits write it, with one plus sign in front or
none. -/
theorem unsigned?_eq_some_iff {cs : List Char} {n : Nat} :
    unsigned? cs = some n ↔ ∃ ds, Writes ds n ∧ (cs = ds ∨ cs = '+' :: ds) := by
  have hread : ∀ ds : List Char,
      (if ds.isEmpty || !ds.all isDigit then none else some (value ds)) = some n ↔
        Writes ds n := by
    intro ds
    rw [writes_iff]
    cases ds <;> simp
  by_cases hplus : ∃ ds, cs = '+' :: ds
  · obtain ⟨ds, rfl⟩ := hplus
    rw [unsigned?_plus, hread]
    constructor
    · exact fun h => ⟨ds, h, .inr rfl⟩
    · rintro ⟨es, hes, rfl | heq⟩
      · exact absurd (hes.isDigit '+' List.mem_cons_self) (by decide)
      · exact (List.cons.inj heq).2 ▸ hes
  · rw [unsigned?_of_ne_plus (not_exists.1 hplus), hread]
    constructor
    · exact fun h => ⟨cs, h, .inl rfl⟩
    · rintro ⟨ds, hds, rfl | rfl⟩
      · exact hds
      · exact absurd ⟨ds, rfl⟩ hplus

end Decimal

end JournalCache

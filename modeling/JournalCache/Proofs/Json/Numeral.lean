import JournalCache.Json.Number
import Mathlib.Data.List.TakeWhile

/-!
# Numbers, well formed and not

A `Numeral` is a number as people write it: with any sign, with zeros in front, with a fraction and
an exponent. JSON takes fewer of them, and of those it takes it gives a value only to the whole
ones (`Numeral.value?`). The reader of numbers takes exactly the well-formed ones, each with its
value (`number?_text`, `exists_numeral`), and refuses a text that starts with any other one,
whatever follows (`number?_of_not_wellFormed`).
-/

namespace JournalCache

namespace Json

/-- The text does not go on as a number would. -/
def EndsNumber (cs : List Char) : Prop :=
  ∀ c ∈ cs.head?, Decimal.isDigit c = false ∧ c ≠ '.' ∧ c ≠ 'e' ∧ c ≠ 'E'

theorem endsNumber_nil : EndsNumber [] := nofun

theorem endsNumber_cons {c : Char} {cs : List Char}
    (h : Decimal.isDigit c = false ∧ c ≠ '.' ∧ c ≠ 'e' ∧ c ≠ 'E') : EndsNumber (c :: cs) := by
  intro d hd
  obtain rfl := Option.some.inj hd
  exact h

/-! ## Numerals -/

abbrev Digits := { ds : List Char // ds ≠ [] ∧ ∀ d ∈ ds, Decimal.isDigit d = true }

inductive Sign where
  | none
  | plus
  | minus
  deriving DecidableEq

def Sign.text : Sign → List Char
  | .none => []
  | .plus => ['+']
  | .minus => ['-']

structure Exponent where
  mark : Char
  isMark : mark = 'e' ∨ mark = 'E'
  sign : Sign
  digits : Digits

structure Numeral where
  sign : Sign
  whole : Digits
  /-- The digits behind a dot. -/
  fraction : Option Digits
  exponent : Option Exponent

namespace Numeral

def fractionText (n : Numeral) : List Char :=
  match n.fraction with
  | none => []
  | some ds => '.' :: ds.1

def exponentText (n : Numeral) : List Char :=
  match n.exponent with
  | none => []
  | some e => e.mark :: (e.sign.text ++ e.digits.1)

def text (n : Numeral) : List Char :=
  n.sign.text ++ (n.whole.1 ++ (n.fractionText ++ n.exponentText))

def LeadingZero (n : Numeral) : Prop := n.whole.1.head? = some '0' ∧ n.whole.1.length ≠ 1

instance (n : Numeral) : Decidable n.LeadingZero := inferInstanceAs (Decidable (_ ∧ _))

def WellFormed (n : Numeral) : Prop := n.sign ≠ .plus ∧ ¬ n.LeadingZero

instance (n : Numeral) : Decidable n.WellFormed := inferInstanceAs (Decidable (_ ∧ _))

def size (n : Numeral) : Nat := Decimal.value n.whole.1

/-- The whole number that a numeral stands for. It stands for none if it has a plus sign, zeros in
front, a fraction or an exponent, or if it is zero with a minus sign. -/
def value? (n : Numeral) : Option Int :=
  if n.sign = .plus ∨ n.LeadingZero ∨ n.fraction.isSome ∨ n.exponent.isSome ∨
      n.sign = .minus ∧ n.size = 0 then none
  else some (if n.sign = .minus then -(n.size : Int) else n.size)

/-- What a reader makes of a number behind its sign. -/
def valueBehind (n : Numeral) (negative : Bool) : Option Int :=
  if n.fraction.isSome || n.exponent.isSome then none
  else if negative then (if n.size = 0 then none else some (-(n.size : Int)))
  else some (n.size : Int)

theorem value?_of_wellFormed {n : Numeral} (hn : n.WellFormed) :
    n.value? = n.valueBehind (n.sign = .minus) := by
  obtain ⟨hplus, hzero⟩ := hn
  unfold value? valueBehind
  by_cases hminus : n.sign = .minus
  · cases n.fraction <;> cases n.exponent <;> simp [hzero, hminus]
  · cases n.fraction <;> cases n.exponent <;> simp [hplus, hzero, hminus]

theorem text_append (n : Numeral) (r : List Char) :
    n.text ++ r = n.sign.text ++ (n.whole.1 ++ (n.fractionText ++ (n.exponentText ++ r))) := by
  simp only [text, List.append_assoc]

/-- A number starts with a sign or with a digit. -/
theorem text_eq_cons (n : Numeral) :
    ∃ c cs, n.text = c :: cs ∧ (c = '+' ∨ c = '-' ∨ Decimal.isDigit c) := by
  obtain ⟨d, ds, hds⟩ := List.exists_cons_of_ne_nil n.whole.2.1
  rw [text, hds]
  cases n.sign with
  | none => exact ⟨d, _, rfl, .inr (.inr (n.whole.2.2 d (by simp [hds])))⟩
  | plus => exact ⟨'+', _, rfl, .inl rfl⟩
  | minus => exact ⟨'-', _, rfl, .inr (.inl rfl)⟩

end Numeral

/-! ## Runs of digits -/

theorem digitRun?_append (ds : Digits) {r : List Char}
    (hr : ∀ c ∈ r.head?, Decimal.isDigit c = false) : digitRun? (ds.1 ++ r) = some (ds.1, r) := by
  have hrest : r.takeWhile Decimal.isDigit = [] ∧ r.dropWhile Decimal.isDigit = r := by
    cases r with
    | nil => exact ⟨rfl, rfl⟩
    | cons c cs =>
        have hc := hr c rfl
        exact ⟨List.takeWhile_cons_of_neg (by simp [hc]),
          List.dropWhile_cons_of_neg (by simp [hc])⟩
  rw [digitRun?, List.takeWhile_append_of_pos ds.2.2, List.dropWhile_append_of_pos ds.2.2,
    hrest.1, hrest.2, List.append_nil]
  exact if_neg (by simpa using ds.2.1)

theorem exists_digits {cs ds r : List Char} (h : digitRun? cs = some (ds, r)) :
    ∃ ds' : Digits, ds'.1 = ds ∧ cs = ds ++ r := by
  simp only [digitRun?] at h
  split at h
  · cases h
  · next hne =>
    obtain ⟨rfl, rfl⟩ := Prod.mk.inj (Option.some.inj h)
    exact ⟨⟨_, by simpa using hne, fun _ => List.mem_takeWhile_imp⟩, rfl,
      List.takeWhile_append_dropWhile.symm⟩

/-! ## The parts of a number -/

/-- A text whose digits have a zero in front is no whole part, however many follow. -/
theorem wholePart?_of_leadingZero {ds : Digits} (hhead : ds.1.head? = some '0')
    (hlength : ds.1.length ≠ 1) (r : List Char) : wholePart? (ds.1 ++ r) = none := by
  have htake : (ds.1 ++ r).takeWhile Decimal.isDigit = ds.1 ++ r.takeWhile Decimal.isDigit :=
    List.takeWhile_append_of_pos ds.2.2
  have hne : ds.1 ++ r.takeWhile Decimal.isDigit ≠ [] := List.append_ne_nil_of_left_ne_nil ds.2.1 _
  have hpos : ds.1.length ≠ 0 := fun h => ds.2.1 (List.eq_nil_of_length_eq_zero h)
  have hzero : (ds.1 ++ r.takeWhile Decimal.isDigit).head? = some '0' ∧
      (ds.1 ++ r.takeWhile Decimal.isDigit).length ≠ 1 := by
    rw [List.head?_append, hhead, List.length_append]
    exact ⟨rfl, by omega⟩
  rw [wholePart?, digitRun?, htake]
  dsimp only
  rw [if_neg (by simpa using hne)]
  exact if_pos hzero

theorem wholePart?_append {ds : Digits} (h : ¬ (ds.1.head? = some '0' ∧ ds.1.length ≠ 1))
    {r : List Char} (hr : ∀ c ∈ r.head?, Decimal.isDigit c = false) :
    wholePart? (ds.1 ++ r) = some (Decimal.value ds.1, r) := by
  rw [wholePart?, digitRun?_append ds hr]
  exact if_neg h

section Parts

variable {n : Numeral} {r : List Char}

theorem isDigit_of_isMark {e : Exponent} : Decimal.isDigit e.mark = false ∧ e.mark ≠ '.' := by
  rcases e.isMark with h | h <;> rw [h] <;> decide

theorem head?_exponentText (hr : EndsNumber r) :
    ∀ c ∈ (n.exponentText ++ r).head?, Decimal.isDigit c = false ∧ c ≠ '.' := by
  intro c hc
  cases hexponent : n.exponent with
  | none =>
      rw [Numeral.exponentText, hexponent] at hc
      exact ⟨(hr c hc).1, (hr c hc).2.1⟩
  | some e =>
      rw [Numeral.exponentText, hexponent] at hc
      obtain rfl := Option.some.inj hc
      exact isDigit_of_isMark

theorem head?_fractionText (hr : EndsNumber r) :
    ∀ c ∈ (n.fractionText ++ (n.exponentText ++ r)).head?, Decimal.isDigit c = false := by
  intro c hc
  cases hfraction : n.fraction with
  | none =>
      rw [Numeral.fractionText, hfraction] at hc
      exact (head?_exponentText hr c hc).1
  | some ds =>
      rw [Numeral.fractionText, hfraction] at hc
      obtain rfl := Option.some.inj hc
      decide

theorem fraction?_text (hr : EndsNumber r) :
    fraction? (n.fractionText ++ (n.exponentText ++ r)) =
      some (n.fraction.isSome, n.exponentText ++ r) := by
  cases hfraction : n.fraction with
  | none =>
      rw [Numeral.fractionText, hfraction, List.nil_append, fraction?]
      · rfl
      · intro cs hcs
        exact (head?_exponentText hr '.' (by rw [hcs]; rfl)).2 rfl
  | some ds =>
      have hrun := digitRun?_append ds fun c hc => (head?_exponentText (n := n) hr c hc).1
      rw [Numeral.fractionText, hfraction, List.cons_append, fraction?, hrun]
      rfl

theorem dropSign_text (s : Sign) (ds : Digits) (r : List Char) :
    dropSign (s.text ++ (ds.1 ++ r)) = ds.1 ++ r := by
  cases s with
  | plus => rfl
  | minus => rfl
  | none =>
      have hdigits := ds.2.2
      cases hds : ds.1 with
      | nil => exact absurd hds ds.2.1
      | cons d rest =>
          rw [hds] at hdigits
          rw [Sign.text, List.nil_append, List.cons_append, dropSign.eq_def]
          split
          · next heq =>
            obtain rfl := (List.cons.inj heq).1
            exact absurd (hdigits '+' List.mem_cons_self) (by decide)
          · next heq =>
            obtain rfl := (List.cons.inj heq).1
            exact absurd (hdigits '-' List.mem_cons_self) (by decide)
          · rfl

theorem exponent?_text (hr : EndsNumber r) :
    exponent? (n.exponentText ++ r) = some (n.exponent.isSome, r) := by
  cases hexponent : n.exponent with
  | none =>
      rw [Numeral.exponentText, hexponent, List.nil_append]
      cases r with
      | nil => rfl
      | cons c cs =>
          obtain ⟨-, -, hlower, hupper⟩ := hr c rfl
          rw [exponent?, if_neg (by simp [hlower, hupper])]
          rfl
  | some e =>
      rw [Numeral.exponentText, hexponent, List.cons_append, List.append_assoc, exponent?,
        if_pos e.isMark, dropSign_text, digitRun?_append e.digits fun c hc => (hr c hc).1]
      rfl

theorem unsigned?_text (hzero : ¬ n.LeadingZero) (hr : EndsNumber r) (negative : Bool) :
    unsigned? negative (n.whole.1 ++ (n.fractionText ++ (n.exponentText ++ r))) =
      some (n.valueBehind negative, r) := by
  rw [unsigned?, wholePart?_append hzero (head?_fractionText hr)]
  change ((fraction? _).bind _) = _
  rw [fraction?_text hr]
  change ((exponent? _).bind _) = _
  rw [exponent?_text hr, Numeral.valueBehind]
  cases n.fraction <;> cases n.exponent <;> cases negative <;> rfl

/-- A text that starts with no minus sign is read as the number behind the sign. -/
theorem number?_eq_unsigned? {cs : List Char} (h : ∀ c ∈ cs.head?, c ≠ '-') :
    number? cs = unsigned? false cs := by
  rw [number?.eq_def]
  split
  · exact absurd rfl (h '-' rfl)
  · rfl

theorem head?_digits_append (ds : Digits) (cs : List Char) :
    ∀ c ∈ (ds.1 ++ cs).head?, Decimal.isDigit c = true := by
  intro c hc
  have hdigits := ds.2.2
  cases hds : ds.1 with
  | nil => exact absurd hds ds.2.1
  | cons d rest =>
      rw [hds] at hdigits hc
      obtain rfl := Option.some.inj hc
      exact hdigits d List.mem_cons_self

theorem ne_of_isDigit {c d : Char} (hd : Decimal.isDigit d = false)
    (hc : Decimal.isDigit c = true) : c ≠ d := by
  rintro rfl
  rw [hc] at hd
  cases hd

/-- A well-formed number is read, with its value, if what follows does not continue it. -/
theorem number?_text (hn : n.WellFormed) (hr : EndsNumber r) :
    number? (n.text ++ r) = some (n.value?, r) := by
  have hread := unsigned?_text hn.2 hr
  rw [n.text_append, Numeral.value?_of_wellFormed hn]
  cases hsign : n.sign with
  | plus => exact absurd hsign hn.1
  | minus => exact hread true
  | none =>
      rw [Sign.text, List.nil_append, number?_eq_unsigned? fun c hc =>
        ne_of_isDigit (by decide) (head?_digits_append n.whole _ c hc)]
      exact hread false

/-- A text that starts with a number that is not well formed is refused, whatever follows. -/
theorem number?_of_not_wellFormed (hn : ¬ n.WellFormed) (r : List Char) :
    number? (n.text ++ r) = none := by
  rw [n.text_append]
  by_cases hplus : n.sign = .plus
  · rw [hplus]
    rfl
  · have hzero : n.LeadingZero := Classical.byContradiction fun h => hn ⟨hplus, h⟩
    have hread : ∀ negative, unsigned? negative
        (n.whole.1 ++ (n.fractionText ++ (n.exponentText ++ r))) = none := by
      intro negative
      rw [unsigned?, wholePart?_of_leadingZero hzero.1 hzero.2]
      rfl
    cases hsign : n.sign with
    | plus => exact absurd hsign hplus
    | minus => exact hread true
    | none =>
        rw [Sign.text, List.nil_append, number?_eq_unsigned? fun c hc =>
          ne_of_isDigit (by decide) (head?_digits_append n.whole _ c hc)]
        exact hread false

end Parts

/-! ## Every number that is read is a numeral -/

theorem exists_fraction {cs r : List Char} {b : Bool} (h : fraction? cs = some (b, r)) :
    ∃ ds : Option Digits, ds.isSome = b ∧
      cs = (match ds with
        | none => []
        | some ds => '.' :: ds.1) ++ r := by
  unfold fraction? at h
  split at h
  · next cs =>
    obtain ⟨⟨ds, r'⟩, hrun, h⟩ := Option.bind_eq_some_iff.1 h
    obtain ⟨rfl, rfl⟩ := Prod.mk.inj (Option.some.inj h)
    obtain ⟨ds', rfl, rfl⟩ := exists_digits hrun
    exact ⟨some ds', rfl, rfl⟩
  · obtain ⟨rfl, rfl⟩ := Prod.mk.inj (Option.some.inj h)
    exact ⟨none, rfl, rfl⟩

theorem exists_sign (cs : List Char) : ∃ s : Sign, cs = s.text ++ dropSign cs := by
  unfold dropSign
  split
  · exact ⟨.plus, rfl⟩
  · exact ⟨.minus, rfl⟩
  · exact ⟨.none, rfl⟩

theorem exists_exponent {cs r : List Char} {b : Bool} (h : exponent? cs = some (b, r)) :
    ∃ e : Option Exponent, e.isSome = b ∧
      cs = (match e with
        | none => []
        | some e => e.mark :: (e.sign.text ++ e.digits.1)) ++ r := by
  unfold exponent? at h
  split at h
  · next c cs =>
    split at h
    · next hmark =>
      obtain ⟨⟨ds, r'⟩, hrun, h⟩ := Option.bind_eq_some_iff.1 h
      obtain ⟨rfl, rfl⟩ := Prod.mk.inj (Option.some.inj h)
      obtain ⟨ds', rfl, hcs⟩ := exists_digits hrun
      obtain ⟨s, hs⟩ := exists_sign cs
      refine ⟨some ⟨c, hmark, s, ds'⟩, rfl, ?_⟩
      rw [hs, hcs]
      simp
    · obtain ⟨rfl, rfl⟩ := Prod.mk.inj (Option.some.inj h)
      exact ⟨none, rfl, rfl⟩
  · obtain ⟨rfl, rfl⟩ := Prod.mk.inj (Option.some.inj h)
    exact ⟨none, rfl, rfl⟩

/-- What is read behind a sign is the rest of a numeral with that sign. -/
theorem exists_unsigned {cs r : List Char} {negative : Bool} {x : Option Int}
    (h : unsigned? negative cs = some (x, r)) (s : Sign) :
    ∃ n : Numeral, n.sign = s ∧ ¬ n.LeadingZero ∧ x = n.valueBehind negative ∧
      cs = n.whole.1 ++ (n.fractionText ++ (n.exponentText ++ r)) := by
  simp only [unsigned?, wholePart?, Option.bind_eq_bind, Option.bind_eq_some_iff,
    Prod.exists] at h
  obtain ⟨w, r₁, ⟨ds, r₁', hrun, hwhole⟩, f, r₂, hfraction, e, r₃, hexponent, h⟩ := h
  obtain ⟨ds', rfl, rfl⟩ := exists_digits hrun
  obtain ⟨fs, rfl, rfl⟩ := exists_fraction hfraction
  obtain ⟨es, rfl, rfl⟩ := exists_exponent hexponent
  split at hwhole
  · cases hwhole
  · next hzero =>
    obtain ⟨rfl, rfl⟩ := Prod.mk.inj (Option.some.inj hwhole)
    have hread : ((⟨s, ds', fs, es⟩ : Numeral).valueBehind negative, r₃) = (x, r) := by
      apply Option.some.inj
      rw [← h, Numeral.valueBehind, Numeral.size]
      cases fs <;> cases es <;> cases negative <;> rfl
    obtain ⟨hx, rfl⟩ := Prod.mk.inj hread
    exact ⟨⟨s, ds', fs, es⟩, rfl, hzero, hx.symm, rfl⟩

/-- Every number that is read is a well-formed numeral with its value. -/
theorem exists_numeral {cs r : List Char} {x : Option Int} (h : number? cs = some (x, r)) :
    ∃ n : Numeral, n.WellFormed ∧ n.value? = x ∧ cs = n.text ++ r := by
  unfold number? at h
  split at h
  · obtain ⟨n, hsign, hzero, hx, hcs⟩ := exists_unsigned h .minus
    have hn : n.WellFormed := ⟨by rw [hsign]; decide, hzero⟩
    refine ⟨n, hn, ?_, ?_⟩
    · rw [Numeral.value?_of_wellFormed hn, hx, hsign]
      rfl
    · rw [n.text_append, hsign, ← hcs]
      rfl
  · obtain ⟨n, hsign, hzero, hx, hcs⟩ := exists_unsigned h .none
    have hn : n.WellFormed := ⟨by rw [hsign]; decide, hzero⟩
    refine ⟨n, hn, ?_, ?_⟩
    · rw [Numeral.value?_of_wellFormed hn, hx, hsign]
      rfl
    · rw [n.text_append, hsign, ← hcs]
      rfl

end Json

end JournalCache

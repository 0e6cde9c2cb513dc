import JournalCache.Text.Numeral

/-!
# Numbers in JSON

A number is an optional minus sign, a whole part without leading zeros, an optional fraction and an
optional exponent. It counts as a whole number, and has a value, if it has neither fraction nor
exponent and is not `-0`.
-/

namespace JournalCache

namespace Json

/-- Reads at least one digit. -/
def digitRun? (cs : List Char) : Option (List Char × List Char) :=
  let ds := cs.takeWhile Decimal.isDigit
  if ds.isEmpty then none else some (ds, cs.dropWhile Decimal.isDigit)

/-- Reads the whole part of a number: a zero alone, or digits that start with another one. -/
def wholePart? (cs : List Char) : Option (Nat × List Char) := do
  let (ds, r) ← digitRun? cs
  if ds.head? = some '0' ∧ ds.length ≠ 1 then none else pure (Decimal.value ds, r)

/-- Reads a fraction, if the text starts with a dot; tells whether it did. -/
def fraction? : List Char → Option (Bool × List Char)
  | '.' :: r => do
    let (_, r) ← digitRun? r
    pure (true, r)
  | cs => some (false, cs)

def dropSign : List Char → List Char
  | '+' :: r => r
  | '-' :: r => r
  | cs => cs

/-- Reads an exponent, if the text starts with one; tells whether it did. -/
def exponent? : List Char → Option (Bool × List Char)
  | c :: r =>
    if c = 'e' ∨ c = 'E' then do
      let (_, r) ← digitRun? (dropSign r)
      pure (true, r)
    else some (false, c :: r)
  | [] => some (false, [])

/-- Reads a number behind its sign. -/
def unsigned? (negative : Bool) (cs : List Char) : Option (Option Int × List Char) := do
  let (n, cs) ← wholePart? cs
  let (fractional, cs) ← fraction? cs
  let (scaled, cs) ← exponent? cs
  if fractional || scaled then pure (none, cs)
  else if negative then pure (if n = 0 then none else some (-(n : Int)), cs)
  else pure (some n, cs)

def number? : List Char → Option (Option Int × List Char)
  | '-' :: r => unsigned? true r
  | cs => unsigned? false cs

theorem length_digitRun? {cs r ds : List Char} (h : digitRun? cs = some (ds, r)) :
    r.length < cs.length := by
  have hlen := congrArg List.length (List.takeWhile_append_dropWhile (p := Decimal.isDigit)
    (l := cs))
  rw [List.length_append] at hlen
  simp only [digitRun?] at h
  split at h
  · simp at h
  · next hne =>
    simp only [Option.some.injEq, Prod.mk.injEq] at h
    obtain ⟨rfl, rfl⟩ := h
    have : 0 < (cs.takeWhile Decimal.isDigit).length := by
      cases hds : cs.takeWhile Decimal.isDigit <;> simp_all
    omega

theorem length_wholePart? {cs r : List Char} {n : Nat} (h : wholePart? cs = some (n, r)) :
    r.length < cs.length := by
  simp only [wholePart?, Option.bind_eq_bind, Option.bind_eq_some_iff, Prod.exists] at h
  obtain ⟨ds, r', hd, h⟩ := h
  split at h
  · simp at h
  · simp only [Option.pure_def, Option.some.injEq, Prod.mk.injEq] at h
    obtain ⟨_, rfl⟩ := h
    exact length_digitRun? hd

theorem length_fraction? {cs r : List Char} {b : Bool} (h : fraction? cs = some (b, r)) :
    r.length ≤ cs.length := by
  unfold fraction? at h
  split at h
  · simp only [Option.bind_eq_bind, Option.bind_eq_some_iff, Option.pure_def, Option.some.injEq,
      Prod.mk.injEq, Prod.exists] at h
    obtain ⟨ds, r', hd, _, rfl⟩ := h
    have := length_digitRun? hd
    simp only [List.length_cons]; omega
  · simp_all

theorem length_dropSign (cs : List Char) : (dropSign cs).length ≤ cs.length := by
  unfold dropSign
  split <;> simp

theorem length_exponent? {cs r : List Char} {b : Bool} (h : exponent? cs = some (b, r)) :
    r.length ≤ cs.length := by
  unfold exponent? at h
  split at h
  · next c r' =>
    split at h
    · simp only [Option.bind_eq_bind, Option.bind_eq_some_iff, Option.pure_def, Option.some.injEq,
        Prod.mk.injEq, Prod.exists] at h
      obtain ⟨ds, r'', hd, _, rfl⟩ := h
      have := length_digitRun? hd
      have := length_dropSign r'
      simp only [List.length_cons]; omega
    · simp_all
  · simp_all

theorem length_unsigned? {cs r : List Char} {negative : Bool} {n : Option Int}
    (h : unsigned? negative cs = some (n, r)) : r.length < cs.length := by
  simp only [unsigned?, Option.bind_eq_bind, Option.bind_eq_some_iff, Prod.exists] at h
  obtain ⟨w, r₁, h₁, f, r₂, h₂, e, r₃, h₃, h⟩ := h
  have h₁ := length_wholePart? h₁
  have h₂ := length_fraction? h₂
  have h₃ := length_exponent? h₃
  have : r = r₃ := by
    split at h
    · simp_all
    · split at h <;> simp_all
  subst this
  omega

theorem length_number? {cs r : List Char} {n : Option Int} (h : number? cs = some (n, r)) :
    r.length < cs.length := by
  unfold number? at h
  split at h
  · have := length_unsigned? h
    simp only [List.length_cons]; omega
  · exact length_unsigned? h

end Json

end JournalCache

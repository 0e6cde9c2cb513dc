/-!
# Strings in JSON

Between its quotes a string is a sequence of pieces: characters that stand for themselves or are
named by a letter behind a backslash, and units of 16 bits written with four hexadecimal digits. A
unit is a character by itself, or one half of a pair that spells a character above U+FFFF. A half
without the other spells nothing, but it is well formed as a piece.
-/

namespace JournalCache

namespace Json

/-- One piece of a string between its quotes: a character, or a four-digit escape. -/
inductive Piece where
  | char (c : Char)
  | unit (n : Nat)
  deriving DecidableEq, Repr

namespace Piece

/-- The first unit of a pair. -/
def isHigh (n : Nat) : Bool := 0xD800 ≤ n && n < 0xDC00

/-- The second unit of a pair. -/
def isLow (n : Nat) : Bool := 0xDC00 ≤ n && n < 0xE000

/-- The characters that pieces spell, absent when a surrogate is not paired. -/
def spell : List Piece → Option (List Char)
  | [] => some []
  | .char c :: r => (spell r).map (c :: ·)
  | .unit h :: .unit l :: r =>
    if isHigh h && isLow l then
      (spell r).map (Char.ofNat (0x10000 + (h - 0xD800) * 0x400 + (l - 0xDC00)) :: ·)
    else if isHigh h || isLow h then none
    else (spell (.unit l :: r)).map (Char.ofNat h :: ·)
  | .unit n :: r =>
    if isHigh n || isLow n then none else (spell r).map (Char.ofNat n :: ·)

end Piece

def hexValue? (c : Char) : Option Nat :=
  if '0' ≤ c ∧ c ≤ '9' then some (c.toNat - '0'.toNat)
  else if 'a' ≤ c ∧ c ≤ 'f' then some (c.toNat - 'a'.toNat + 10)
  else if 'A' ≤ c ∧ c ≤ 'F' then some (c.toNat - 'A'.toNat + 10)
  else none

/-- The unit that four hexadecimal digits write. -/
def unit? (a b c d : Char) : Option Nat := do
  let a ← hexValue? a
  let b ← hexValue? b
  let c ← hexValue? c
  let d ← hexValue? d
  pure (((a * 16 + b) * 16 + c) * 16 + d)

/-- The character that a backslash and this letter write. -/
def letter? : Char → Option Char
  | '"' => some '"'
  | '\\' => some '\\'
  | '/' => some '/'
  | 'b' => some '\x08'
  | 'f' => some '\x0c'
  | 'n' => some '\n'
  | 'r' => some '\r'
  | 't' => some '\t'
  | _ => none

/-- Reads a string behind its opening quote, up to and with its closing quote. -/
def pieces? : List Char → Option (List Piece × List Char)
  | '"' :: r => some ([], r)
  | '\\' :: 'u' :: a :: b :: c :: d :: r => do
    let n ← unit? a b c d
    let (ps, r) ← pieces? r
    pure (.unit n :: ps, r)
  | '\\' :: e :: r => do
    let c ← letter? e
    let (ps, r) ← pieces? r
    pure (.char c :: ps, r)
  | c :: r =>
    if c = '\\' ∨ c.toNat < 0x20 then none
    else do
      let (ps, r) ← pieces? r
      pure (.char c :: ps, r)
  | [] => none

/-- Reading a string uses up part of the text. -/
theorem length_pieces? {cs r : List Char} {ps : List Piece} (h : pieces? cs = some (ps, r)) :
    r.length < cs.length := by
  fun_induction pieces? cs generalizing ps r with
  | case1 r' => simp_all
  | case2 a b c d r' ih =>
    simp only [Option.bind_eq_bind, Option.bind_eq_some_iff, Option.pure_def, Option.some.injEq,
      Prod.mk.injEq, Prod.exists] at h
    obtain ⟨_, _, qs, r'', hq, _, rfl⟩ := h
    have := ih hq
    simp only [List.length_cons]; omega
  | case3 e r' _ ih =>
    simp only [Option.bind_eq_bind, Option.bind_eq_some_iff, Option.pure_def, Option.some.injEq,
      Prod.mk.injEq, Prod.exists] at h
    obtain ⟨_, _, qs, r'', hq, _, rfl⟩ := h
    have := ih hq
    simp only [List.length_cons]; omega
  | case4 => simp at h
  | case5 c r' _ _ _ _ ih =>
    simp only [Option.bind_eq_bind, Option.bind_eq_some_iff, Option.pure_def, Option.some.injEq,
      Prod.mk.injEq, Prod.exists] at h
    obtain ⟨qs, r'', hq, _, rfl⟩ := h
    have := ih hq
    simp only [List.length_cons]; omega
  | case6 => simp at h

end Json

end JournalCache

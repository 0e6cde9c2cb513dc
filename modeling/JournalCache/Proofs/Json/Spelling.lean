import JournalCache.Json.Text
import Mathlib.Data.List.Forall2

/-!
# All ways to write a string

A character of a string may stand for itself, be named by a letter behind a backslash, or be written
by its units: one, or a pair above U+FFFF (`CharText`). Whatever the choice, reading the pieces and
spelling them gives the characters back (`exists_pieces`), and nothing else is spelled
(`exists_charTexts`). `pieces?` reads every sequence of pieces up to the closing quote
(`pieces?_texts`) and no other text (`exists_pieceTexts`). The letters and the hexadecimal digits
are listed here, and the reader knows exactly these (`letter?_eq_some_iff`, `unit?_eq_some_iff`).
-/

namespace JournalCache

namespace Json

/-- The letter behind a backslash names the character. -/
inductive Letter : Char → Char → Prop where
  | quote : Letter '"' '"'
  | backslash : Letter '\\' '\\'
  | slash : Letter '/' '/'
  | backspace : Letter 'b' '\x08'
  | formFeed : Letter 'f' '\x0c'
  | lineFeed : Letter 'n' '\n'
  | carriageReturn : Letter 'r' '\r'
  | tab : Letter 't' '\t'

/-- The hexadecimal digits, each at the place that is its value. -/
def smallDigits : List Char :=
  ['0', '1', '2', '3', '4', '5', '6', '7', '8', '9', 'a', 'b', 'c', 'd', 'e', 'f']

/-- The hexadecimal digits with capital letters. -/
def capitalDigits : List Char :=
  ['0', '1', '2', '3', '4', '5', '6', '7', '8', '9', 'A', 'B', 'C', 'D', 'E', 'F']

/-- The character is a hexadecimal digit of this value. -/
def HexDigit (c : Char) (n : Nat) : Prop := smallDigits[n]? = some c ∨ capitalDigits[n]? = some c

/-- How a piece of a string may be written. -/
inductive PieceText : Piece → List Char → Prop where
  | plain {c : Char} (hquote : c ≠ '"') (hslash : c ≠ '\\') (hcontrol : ¬ c.toNat < 0x20) :
      PieceText (.char c) [c]
  | letter {c e : Char} (he : Letter e c) : PieceText (.char c) ['\\', e]
  | unit {n i j k l : Nat} {a b c d : Char} (ha : HexDigit a i) (hb : HexDigit b j)
      (hc : HexDigit c k) (hd : HexDigit d l) (hn : n = 0x1000 * i + 0x100 * j + 0x10 * k + l) :
      PieceText (.unit n) ['\\', 'u', a, b, c, d]

/-- How a character of a string may be written. -/
inductive CharText : Char → List Char → Prop where
  | char {c : Char} {w : List Char} (hw : PieceText (.char c) w) : CharText c w
  | unit {c : Char} {w : List Char} (hw : PieceText (.unit c.toNat) w) : CharText c w
  | pair {c : Char} {high low : Nat} {v w : List Char} (hv : PieceText (.unit high) v)
      (hw : PieceText (.unit low) w) (hhigh : 0xD800 ≤ high ∧ high < 0xDC00)
      (hlow : 0xDC00 ≤ low ∧ low < 0xE000)
      (hc : c.toNat = 0x10000 + (high - 0xD800) * 0x400 + (low - 0xDC00)) : CharText c (v ++ w)

/-! ## Letters and digits -/

theorem letter?_eq_some_iff {e c : Char} : letter? e = some c ↔ Letter e c := by
  constructor
  · intro h
    unfold letter? at h
    split at h <;> cases h
    all_goals constructor
  · intro h
    cases h <;> rfl

theorem HexDigit.lt {c : Char} {n : Nat} (h : HexDigit c n) : n < 16 := by
  rcases h with h | h
  · exact (List.getElem?_eq_some_iff.1 h).1
  · exact (List.getElem?_eq_some_iff.1 h).1

/-- Characters that stand one behind another in the digits are found by their distance from the
first. -/
theorem getElem?_of_range {digits : List Char} {first last : Char} {k : Nat}
    (hdigits : ∀ i ≤ last.toNat - first.toNat,
      digits[i + k]? = some (Char.ofNat (first.toNat + i)))
    {c : Char} (hc : first ≤ c ∧ c ≤ last) : digits[c.toNat - first.toNat + k]? = some c := by
  have hle : first.toNat ≤ c.toNat ∧ c.toNat ≤ last.toNat := hc
  rw [hdigits _ (Nat.sub_le_sub_right hle.2 _), Nat.add_sub_cancel' hle.1, Char.ofNat_toNat]

theorem hexValue?_eq_some_iff {c : Char} {n : Nat} : hexValue? c = some n ↔ HexDigit c n := by
  constructor
  · intro h
    unfold hexValue? at h
    split at h
    · next hc =>
      obtain rfl := Option.some.inj h
      have hdigits : ∀ i ≤ '9'.toNat - '0'.toNat,
        smallDigits[i + 0]? = some (Char.ofNat ('0'.toNat + i)) := by decide
      exact .inl (getElem?_of_range hdigits hc)
    split at h
    · next hc =>
      obtain rfl := Option.some.inj h
      have hdigits : ∀ i ≤ 'f'.toNat - 'a'.toNat,
        smallDigits[i + 10]? = some (Char.ofNat ('a'.toNat + i)) := by decide
      exact .inl (getElem?_of_range hdigits hc)
    split at h
    · next hc =>
      obtain rfl := Option.some.inj h
      have hdigits : ∀ i ≤ 'F'.toNat - 'A'.toNat,
        capitalDigits[i + 10]? = some (Char.ofNat ('A'.toNat + i)) := by decide
      exact .inr (getElem?_of_range hdigits hc)
    · cases h
  · intro h
    have hlt := h.lt
    have hsmall : ∀ n < 16, smallDigits[n]?.bind hexValue? = some n := by decide
    have hcapital : ∀ n < 16, capitalDigits[n]?.bind hexValue? = some n := by decide
    rcases h with h | h
    · simpa [h] using hsmall n hlt
    · simpa [h] using hcapital n hlt

theorem unit?_eq_some_iff {a b c d : Char} {n : Nat} : unit? a b c d = some n ↔
    PieceText (.unit n) ['\\', 'u', a, b, c, d] := by
  simp only [unit?, Option.bind_eq_bind, Option.bind_eq_some_iff, Option.pure_def,
    Option.some.injEq, hexValue?_eq_some_iff]
  constructor
  · rintro ⟨i, ha, j, hb, k, hc, l, hd, hn⟩
    exact .unit ha hb hc hd (by omega)
  · intro h
    cases h with
    | unit ha hb hc hd hn => exact ⟨_, ha, _, hb, _, hc, _, hd, by omega⟩

/-! ## Reading pieces -/

theorem pieces?_letter {e c : Char} (h : Letter e c) (r : List Char) :
    pieces? ('\\' :: e :: r) = (pieces? r).map fun q => (.char c :: q.1, q.2) := by
  rw [pieces?]
  · rw [letter?_eq_some_iff.2 h]
    cases pieces? r <;> rfl
  · rintro _ _ _ _ _ rfl _
    cases h

theorem pieces?_unit {a b c d : Char} {n : Nat} (h : unit? a b c d = some n) (r : List Char) :
    pieces? ('\\' :: 'u' :: a :: b :: c :: d :: r) =
      (pieces? r).map fun q => (.unit n :: q.1, q.2) := by
  rw [pieces?, h]
  cases pieces? r <;> rfl

theorem pieces?_char {c : Char} (hquote : c ≠ '"') (hslash : c ≠ '\\') (h : ¬ c.toNat < 0x20)
    (r : List Char) : pieces? (c :: r) = (pieces? r).map fun q => (.char c :: q.1, q.2) := by
  rw [pieces?.eq_def]
  split
  · next heq => exact absurd (List.cons.inj heq).1 hquote
  · next heq => exact absurd (List.cons.inj heq).1 hslash
  · next heq => exact absurd (List.cons.inj heq).1 hslash
  · next heq =>
    obtain ⟨rfl, rfl⟩ := List.cons.inj heq
    rw [if_neg (by simp [hslash, h])]
    cases pieces? r <;> rfl
  · next heq => cases heq

theorem pieces?_pieceText {p : Piece} {w : List Char} (h : PieceText p w) (r : List Char) :
    pieces? (w ++ r) = (pieces? r).map fun q => (p :: q.1, q.2) := by
  cases h with
  | plain hquote hslash hcontrol => exact pieces?_char hquote hslash hcontrol r
  | letter he => exact pieces?_letter he r
  | unit ha hb hc hd hn => exact pieces?_unit (unit?_eq_some_iff.2 (.unit ha hb hc hd hn)) r

/-- Pieces are read up to the closing quote. -/
theorem pieces?_texts {ps : List Piece} {ws : List (List Char)} (h : List.Forall₂ PieceText ps ws)
    (r : List Char) : pieces? (ws.flatten ++ '"' :: r) = some (ps, r) := by
  induction h with
  | nil => rw [List.flatten_nil, List.nil_append, pieces?]
  | cons hw _ ih => rw [List.flatten_cons, List.append_assoc, pieces?_pieceText hw, ih]; rfl

theorem exists_pieceTexts {cs r : List Char} {ps : List Piece} (h : pieces? cs = some (ps, r)) :
    ∃ ws, List.Forall₂ PieceText ps ws ∧ cs = ws.flatten ++ '"' :: r := by
  fun_induction pieces? cs generalizing ps r with
  | case1 r' =>
      obtain ⟨rfl, rfl⟩ := Prod.mk.inj (Option.some.inj h)
      exact ⟨[], .nil, rfl⟩
  | case2 a b c d r' ih =>
      simp only [Option.bind_eq_bind, Option.bind_eq_some_iff, Option.pure_def, Option.some.injEq,
        Prod.mk.injEq, Prod.exists] at h
      obtain ⟨n, hn, qs, r'', hq, rfl, rfl⟩ := h
      obtain ⟨ws, hws, rfl⟩ := ih hq
      exact ⟨_, .cons (unit?_eq_some_iff.1 hn) hws, rfl⟩
  | case3 e r' _ ih =>
      simp only [Option.bind_eq_bind, Option.bind_eq_some_iff, Option.pure_def, Option.some.injEq,
        Prod.mk.injEq, Prod.exists] at h
      obtain ⟨c, hc, qs, r'', hq, rfl, rfl⟩ := h
      obtain ⟨ws, hws, rfl⟩ := ih hq
      exact ⟨_, .cons (.letter (letter?_eq_some_iff.1 hc)) hws, rfl⟩
  | case4 => cases h
  | case5 c r' hquote _ _ hplain ih =>
      simp only [Option.bind_eq_bind, Option.bind_eq_some_iff, Option.pure_def, Option.some.injEq,
        Prod.mk.injEq, Prod.exists] at h
      obtain ⟨qs, r'', hq, rfl, rfl⟩ := h
      obtain ⟨ws, hws, rfl⟩ := ih hq
      rw [not_or] at hplain
      exact ⟨_, .cons (.plain hquote hplain.1 hplain.2) hws, rfl⟩
  | case6 => cases h

/-! ## Spelling pieces -/

theorem PieceText.unit_lt {n : Nat} {w : List Char} (h : PieceText (.unit n) w) :
    n < 0x10000 := by
  cases h with
  | unit ha hb hc hd hn =>
      have := ha.lt
      have := hb.lt
      have := hc.lt
      have := hd.lt
      omega

namespace Piece

theorem isHigh_iff {n : Nat} : isHigh n ↔ 0xD800 ≤ n ∧ n < 0xDC00 := by simp [isHigh]

theorem isLow_iff {n : Nat} : isLow n ↔ 0xDC00 ≤ n ∧ n < 0xE000 := by simp [isLow]

/-- A unit that is no half of a pair spells a character by itself. -/
theorem spell_unit {n : Nat} (hhigh : isHigh n = false) (hlow : isLow n = false)
    (ps : List Piece) : spell (.unit n :: ps) = (spell ps).map (Char.ofNat n :: ·) := by
  rcases ps with _ | ⟨_ | l, ps⟩ <;> simp [spell, hhigh, hlow]

theorem spell_pair {high low : Nat} (hhigh : isHigh high) (hlow : isLow low) (ps : List Piece) :
    spell (.unit high :: .unit low :: ps) =
      (spell ps).map (Char.ofNat (0x10000 + (high - 0xD800) * 0x400 + (low - 0xDC00)) :: ·) := by
  simp [spell, hhigh, hlow]

end Piece

/-- The code point of a character is no half of a pair. -/
theorem isHigh_toNat (c : Char) : Piece.isHigh c.toNat = false ∧ Piece.isLow c.toNat = false := by
  have hvalid : c.toNat.isValidChar := c.valid
  simp only [Nat.isValidChar] at hvalid
  constructor
  · rw [Bool.eq_false_iff, Ne, Piece.isHigh_iff]
    omega
  · rw [Bool.eq_false_iff, Ne, Piece.isLow_iff]
    omega

theorem toNat_ofNat {n : Nat} (h : n.isValidChar) : (Char.ofNat n).toNat = n := by
  rw [Char.ofNat, dif_pos h]
  rfl

/-- However characters are written, pieces are written that spell them. -/
theorem exists_pieces {cs : List Char} {ws : List (List Char)}
    (h : List.Forall₂ CharText cs ws) :
    ∃ ps vs, List.Forall₂ PieceText ps vs ∧ vs.flatten = ws.flatten ∧
      Piece.spell ps = some cs := by
  induction h with
  | nil => exact ⟨[], [], .nil, rfl, rfl⟩
  | @cons c w cs ws hw _ ih =>
      obtain ⟨ps, vs, hvs, hflatten, hspell⟩ := ih
      cases hw with
      | char hw =>
          refine ⟨.char c :: ps, w :: vs, .cons hw hvs, by simp [hflatten], ?_⟩
          rw [Piece.spell, hspell]
          rfl
      | unit hw =>
          refine ⟨.unit c.toNat :: ps, w :: vs, .cons hw hvs, by simp [hflatten], ?_⟩
          rw [Piece.spell_unit (isHigh_toNat c).1 (isHigh_toNat c).2, hspell, Char.ofNat_toNat]
          rfl
      | @pair high low v w hv hw hhigh hlow hc =>
          refine ⟨.unit high :: .unit low :: ps, v :: w :: vs, .cons hv (.cons hw hvs),
            by simp [hflatten], ?_⟩
          rw [Piece.spell_pair (Piece.isHigh_iff.2 hhigh) (Piece.isLow_iff.2 hlow), hspell, ← hc,
            Char.ofNat_toNat]
          rfl

theorem exists_charTexts_unit {n : Nat} {ps : List Piece} {vs : List (List Char)}
    (h : List.Forall₂ PieceText (.unit n :: ps) vs) (hsingle : ¬ (Piece.isHigh n || Piece.isLow n))
    {cs : List Char} (hspell : (Piece.spell ps).map (Char.ofNat n :: ·) = some cs)
    (ih : ∀ {vs : List (List Char)}, List.Forall₂ PieceText ps vs → ∀ {cs : List Char},
      Piece.spell ps = some cs → ∃ ws, List.Forall₂ CharText cs ws ∧ ws.flatten = vs.flatten) :
    ∃ ws, List.Forall₂ CharText cs ws ∧ ws.flatten = vs.flatten := by
  cases h with | @cons _ v _ vs hv hvs =>
  rw [Bool.or_eq_true, not_or, Piece.isHigh_iff, Piece.isLow_iff] at hsingle
  obtain ⟨cs, hcs, rfl⟩ := Option.map_eq_some_iff.1 hspell
  obtain ⟨ws, hws, hflatten⟩ := ih hvs hcs
  have hlt := hv.unit_lt
  have hn := toNat_ofNat (n := n) (by simp only [Nat.isValidChar]; omega)
  exact ⟨v :: ws, .cons (.unit (hn.symm ▸ hv)) hws, by simp [hflatten]⟩

/-- Characters that pieces spell are written where the pieces are. -/
theorem exists_charTexts {ps : List Piece} {vs : List (List Char)}
    (h : List.Forall₂ PieceText ps vs) {cs : List Char} (hspell : Piece.spell ps = some cs) :
    ∃ ws, List.Forall₂ CharText cs ws ∧ ws.flatten = vs.flatten := by
  fun_induction Piece.spell ps generalizing vs cs with
  | case1 =>
      cases h
      obtain rfl := Option.some.inj hspell
      exact ⟨[], .nil, rfl⟩
  | case2 c r ih =>
      cases h with | @cons _ v _ vs hv hvs =>
      obtain ⟨cs, hcs, rfl⟩ := Option.map_eq_some_iff.1 hspell
      obtain ⟨ws, hws, hflatten⟩ := ih hvs hcs
      exact ⟨v :: ws, .cons (.char hv) hws, by simp [hflatten]⟩
  | case3 high low r hpair ih =>
      cases h with | @cons _ v _ vs hv hvs =>
      cases hvs with | @cons _ w _ vs hw hvs =>
      obtain ⟨hhigh, hlow⟩ : (0xD800 ≤ high ∧ high < 0xDC00) ∧ 0xDC00 ≤ low ∧ low < 0xE000 := by
        rwa [Bool.and_eq_true, Piece.isHigh_iff, Piece.isLow_iff] at hpair
      obtain ⟨cs, hcs, rfl⟩ := Option.map_eq_some_iff.1 hspell
      obtain ⟨ws, hws, hflatten⟩ := ih hvs hcs
      have hc := toNat_ofNat (n := 0x10000 + (high - 0xD800) * 0x400 + (low - 0xDC00))
        (by simp only [Nat.isValidChar]; omega)
      exact ⟨(v ++ w) :: ws, .cons (.pair hv hw hhigh hlow hc) hws, by simp [hflatten]⟩
  | case4 => cases hspell
  | case5 n l r _ hsingle ih => exact exists_charTexts_unit h hsingle hspell ih
  | case6 => cases hspell
  | case7 n r _ hsingle ih => exact exists_charTexts_unit h hsingle hspell ih

/-- Pieces spell nothing if no characters are written as they are. -/
theorem spell_eq_none_iff {ps : List Piece} {ws : List (List Char)}
    (h : List.Forall₂ PieceText ps ws) : Piece.spell ps = none ↔
      ∀ cs vs, List.Forall₂ CharText cs vs → vs.flatten ≠ ws.flatten := by
  constructor
  · intro hnone cs vs hvs hflatten
    obtain ⟨qs, us, hus, hsame, hspell⟩ := exists_pieces hvs
    have hread := pieces?_texts h []
    rw [← hflatten, ← hsame, pieces?_texts hus] at hread
    obtain rfl := (Prod.mk.inj (Option.some.inj hread)).1
    rw [hnone] at hspell
    cases hspell
  · intro hno
    cases hspell : Piece.spell ps with
    | none => rfl
    | some cs =>
        obtain ⟨vs, hvs, hflatten⟩ := exists_charTexts h hspell
        exact absurd hflatten (hno cs vs hvs)

end Json

end JournalCache

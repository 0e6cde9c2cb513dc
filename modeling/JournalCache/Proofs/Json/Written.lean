import JournalCache.Proofs.Json.Grammar
import JournalCache.Proofs.Text.Numeral

/-!
# The written form is one of the texts

Each token is written in one of the ways in which it may be written (`Token.spelling_written`), so
what a value is written as is a text of the value (`spells_print`).
-/

namespace JournalCache

namespace Json

/-! ## Numbers -/

def digitsOf (n : Nat) : Digits :=
  ⟨Decimal.digits n, Decimal.digits_ne_nil n, fun _ => Decimal.isDigit_of_mem_digits⟩

def numeralOf (s : Sign) (n : Nat) : Numeral := ⟨s, digitsOf n, none, none⟩

theorem text_numeralOf (s : Sign) (n : Nat) :
    (numeralOf s n).text = s.text ++ Decimal.digits n := by
  rw [Numeral.text, Numeral.fractionText, Numeral.exponentText]
  simp [numeralOf, digitsOf]

theorem wellFormed_numeralOf {s : Sign} (hs : s ≠ .plus) (n : Nat) :
    (numeralOf s n).WellFormed := by
  refine ⟨hs, fun h => ?_⟩
  obtain ⟨hhead, hlength⟩ : (Decimal.digits n).head? = some '0' ∧ (Decimal.digits n).length ≠ 1 := h
  rcases Nat.eq_zero_or_pos n with rfl | hn
  · rw [Decimal.digits_zero] at hlength
    exact hlength rfl
  · exact Decimal.head?_digits_ne (Nat.ne_of_gt hn) hhead

theorem value?_numeralOf {s : Sign} (hs : s ≠ .plus) (n : Nat) : (numeralOf s n).value? =
    if s = .minus then (if n = 0 then none else some (-(n : Int))) else some n := by
  have hsize : (numeralOf s n).size = n := Decimal.value_digits n
  rw [Numeral.value?_of_wellFormed (wellFormed_numeralOf hs n), Numeral.valueBehind, hsize]
  cases s <;> rfl

theorem exists_numeral_written (x : Option Int) :
    ∃ n : Numeral, n.WellFormed ∧ n.value? = x ∧ n.text = writtenNumber x := by
  have hnone : Sign.none ≠ .plus := by decide
  have hminus : Sign.minus ≠ .plus := by decide
  rcases x with _ | n | n
  · refine ⟨numeralOf .minus 0, wellFormed_numeralOf hminus 0, value?_numeralOf hminus 0, ?_⟩
    rw [text_numeralOf, Decimal.digits_zero]
    rfl
  · exact ⟨numeralOf .none n, wellFormed_numeralOf hnone n, value?_numeralOf hnone n,
      text_numeralOf _ _⟩
  · exact ⟨numeralOf .minus (n + 1), wellFormed_numeralOf hminus _, value?_numeralOf hminus _,
      text_numeralOf _ _⟩

/-! ## Strings -/

theorem hexDigit_zero : HexDigit '0' 0 := .inl rfl

theorem hexDigit_hexChar {n : Nat} (h : n < 16) : HexDigit (hexChar n) n :=
  .inl ((by decide : ∀ n < 16, smallDigits[n]? = some (hexChar n)) n h)

/-- Two hexadecimal digits behind two zeros write a number below 256. -/
theorem pieceText_hexChar {n : Nat} (h : n < 256) :
    PieceText (.unit n) ['\\', 'u', '0', '0', hexChar (n / 16), hexChar (n % 16)] :=
  .unit (hexDigit_zero) (hexDigit_zero) (hexDigit_hexChar (by omega))
    (hexDigit_hexChar (by omega)) (by omega)

/-- Each character is written in one of its ways. -/
theorem charText_escaped (c : Char) : CharText c (escaped c) := by
  have hletter : ∀ {e : Char}, Letter e c → CharText c ['\\', e] := fun h => .char (.letter h)
  unfold escaped
  split
  · next h => exact hletter (by rw [h]; constructor)
  split
  · next h => exact hletter (by rw [h]; constructor)
  split
  · next h => exact hletter (by rw [h]; constructor)
  split
  · next h => exact hletter (by rw [h]; constructor)
  split
  · next h => exact hletter (by rw [h]; constructor)
  split
  · next h => exact hletter (by rw [h]; constructor)
  split
  · next h => exact hletter (by rw [h]; constructor)
  split
  · next h => exact .unit (pieceText_hexChar (by omega))
  · next hquote hslash _ _ _ _ _ h => exact .char (.plain hquote hslash h)

/-! ## Tokens and values -/

/-- Each token is written in one of its ways. -/
theorem Token.spelling_written (t : Token) : t.Spelling Numeral.WellFormed t.written := by
  cases t with
  | number x =>
      obtain ⟨n, hn, rfl, htext⟩ := exists_numeral_written x
      rw [Token.written, ← htext]
      exact .number hn
  | text s =>
      cases s with
      | none =>
          have hunit : PieceText (.unit 0xD800) ['\\', 'u', 'd', '8', '0', '0'] :=
            unit?_eq_some_iff.1 (by decide)
          have hhalf := List.Forall₂.cons hunit .nil
          exact .unpaired hhalf ((spell_eq_none_iff hhalf).1 (by decide))
      | some s =>
          have hchars : List.Forall₂ CharText s.toList (s.toList.map escaped) :=
            List.forall₂_map_right_iff.2 (List.forall₂_same.2 fun c _ => charText_escaped c)
          have hspelling := Spelling.text (N := Numeral.WellFormed) hchars
          rwa [← List.flatMap_def] at hspelling
  | bool b => cases b <;> constructor
  | _ => constructor

theorem spellings_written (ts : List Token) :
    Token.Spellings Numeral.WellFormed ts (ts.flatMap Token.written) := by
  induction ts with
  | nil => exact .nil rfl
  | cons t ts ih => exact @Token.Spellings.cons _ [] _ _ _ _ rfl t.spelling_written ih

/-- What a value is written as is a text of the value. -/
theorem spells_print (j : Json) : j.Spells j.print := by
  rw [Spells, print, String.toList_ofList]
  exact spellings_written j.tokens

end Json

end JournalCache

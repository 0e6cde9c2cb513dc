import JournalCache.Json.Written
import JournalCache.Proofs.Json.Basic
import JournalCache.Proofs.Json.Token

/-!
# The texts of a JSON value

A text of a value is any text that its tokens make up, each written in one of its ways, with blanks
between them (`Json.Spells`). A text is read as a value exactly if it is one of its texts
(`parse?_eq_some_iff`), and behind a whole value nothing but blanks may follow
(`parse?_append`). It does not help to write numbers in other ways than JSON has: a text with such a
number is no text of any value, or it is one without it (`SpellsLoosely.spells_or`).
-/

namespace JournalCache

namespace Json

/-- A text of a value. -/
def Spells (j : Json) (s : String) : Prop :=
  Token.Spellings Numeral.WellFormed j.tokens s.toList

/-- A text that would be one of the value if numbers might be written in any way. A number that is
not well formed stands for no whole number. -/
def SpellsLoosely (j : Json) (s : String) : Prop :=
  Token.Spellings (fun _ => True) j.tokens s.toList

/-- The text may go on behind a value: only a number could take up what follows. -/
def Fits (j : Json) (r : List Char) : Prop :=
  match j with
  | .number _ => EndsNumber r
  | _ => True

theorem fits_nil (j : Json) : j.Fits [] := by
  cases j with
  | number => exact endsNumber_nil
  | _ => trivial

/-! ## The tokens of a value -/

namespace Reading

theorem eq_ended_of_step_number {r r' : Reading} {x : Option Int}
    (h : r.step (.number x) = some r') : ∃ v frames, r' = .ended v frames := by
  cases r with
  | value | firstItem => cases h; exact ⟨_, _, rfl⟩
  | firstKey | nextKey | colon => cases h
  | ended v frames =>
      rcases frames with _ | ⟨f, frames⟩
      · cases h
      · cases f <;> cases h

theorem of_step_ended {v : Json} {frames : List Frame} {t : Token} {r : Reading}
    (h : (ended v frames).step t = some r) : t = .comma ∨ t = .closeBracket ∨ t = .closeBrace := by
  rcases frames with _ | ⟨f, frames⟩
  · cases h
  · cases f <;> cases t <;> cases h <;> simp

/-- Where a value goes on, nothing follows a number that would continue it. -/
theorem isChain_of_foldlM {r r' : Reading} {ts : List Token} (h : ts.foldlM step r = some r') :
    ts.IsChain Token.MayPrecede := by
  induction ts generalizing r with
  | nil => exact .nil
  | cons t ts ih =>
      obtain ⟨r₁, hstep, hrest⟩ := Option.bind_eq_some_iff.1 (List.foldlM_cons.symm.trans h)
      cases ts with
      | nil => exact .singleton t
      | cons u us =>
          refine List.isChain_cons_cons.2 ⟨?_, ih hrest⟩
          rintro ⟨x, rfl⟩
          obtain ⟨v, frames, rfl⟩ := eq_ended_of_step_number hstep
          obtain ⟨r₂, hnext, -⟩ := Option.bind_eq_some_iff.1 (List.foldlM_cons.symm.trans hrest)
          exact of_step_ended hnext

end Reading

theorem isChain_tokens (j : Json) : j.tokens.IsChain Token.MayPrecede := by
  have hread := read_tokens j [] []
  rw [List.append_nil] at hread
  exact Reading.isChain_of_foldlM hread

/-- No value but a number ends with a number. -/
theorem fits_getLast?_tokens {j : Json} {r : List Char} (h : j.Fits r) :
    ∀ t ∈ j.tokens.getLast?, t.Fits r := by
  intro t ht
  cases j with
  | number x =>
      rw [tokens] at ht
      obtain rfl := Option.some.inj ht
      exact h
  | null | bool | text =>
      rw [tokens] at ht
      obtain rfl := Option.some.inj ht
      trivial
  | list items =>
      rw [tokens, List.getLast?_concat] at ht
      obtain rfl := Option.some.inj ht
      trivial
  | object members =>
      rw [tokens, List.getLast?_concat] at ht
      obtain rfl := Option.some.inj ht
      trivial

/-! ## Reading texts -/

theorem parse?_eq (s : String) : parse? s = (Token.scan s.toList).bind ofTokens? := rfl

/-- A value is read from each of its texts, and behind it only blanks may follow. -/
theorem parse?_append {j : Json} {s rest : String} (hs : j.Spells s) (h : j.Fits rest.toList) :
    parse? (s ++ rest) = if rest.toList.all Token.isBlank then some j else none := by
  have hscan : Token.scan (s ++ rest).toList =
      (Token.scan rest.toList).map (j.tokens ++ ·) := by
    rw [String.toList_append]
    exact Token.scan_append hs j.isChain_tokens (fits_getLast?_tokens h)
  rw [parse?_eq, hscan]
  cases hrest : Token.scan rest.toList with
  | none =>
      rw [if_neg fun hblank => ?_]
      · rfl
      · rw [Token.scan_eq_nil_iff.2 hblank] at hrest
        cases hrest
  | some ts =>
      have hts : ts = [] ↔ rest.toList.all Token.isBlank = true := by
        rw [← Token.scan_eq_nil_iff, hrest, Option.some.injEq]
      refine (ofTokens?_tokens_append j ts).trans ?_
      simp only [hts]

/-- A text is read as a value exactly if it is one of its texts. -/
theorem parse?_eq_some_iff {s : String} {j : Json} : parse? s = some j ↔ j.Spells s := by
  constructor
  · intro h
    obtain ⟨ts, hscan, hvalue⟩ := Option.bind_eq_some_iff.1 h
    rw [Spells, ← eq_tokens_of_ofTokens? hvalue]
    exact Token.spellings_of_scan hscan
  · intro h
    have hblank : "".toList.all Token.isBlank = true := rfl
    have hparse : parse? (s ++ "") = _ := parse?_append h j.fits_nil
    rwa [String.append_empty, if_pos hblank] at hparse

theorem SpellsLoosely.spells_or {s : String} {j : Json} (h : j.SpellsLoosely s) :
    j.Spells s ∨ parse? s = none := by
  rcases Token.spellings_or_scan_eq_none h j.isChain_tokens with hs | hnone
  · exact .inl hs
  · rw [parse?_eq, hnone]
    exact .inr rfl

/-- Whatever follows a number, the text is read as no other value than a number. -/
theorem eq_number_of_parse?_append {x : Option Int} {s rest : String} {j : Json}
    (hs : (number x).Spells s) (h : parse? (s ++ rest) = some j) : ∃ y, j = .number y := by
  obtain ⟨y, ts, hscan⟩ : ∃ y ts, Token.scan (s ++ rest).toList = none ∨
      Token.scan (s ++ rest).toList = some (.number y :: ts) := by
    rw [String.toList_append]
    exact Token.scan_append_of_number hs rest.toList
  rcases hscan with hnone | hsome
  · rw [parse?_eq, hnone] at h
    cases h
  · rw [parse?_eq, hsome] at h
    have htokens := eq_tokens_of_ofTokens? h
    cases j with
    | number z => exact ⟨z, rfl⟩
    | _ => rw [tokens] at htokens; cases htokens

end Json

end JournalCache

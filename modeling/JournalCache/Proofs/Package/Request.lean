import JournalCache.Package.Codec
import JournalCache.Proofs.Json.Record
import JournalCache.Proofs.Text.Lowercase

/-!
# The spellings of a request

A text spells a kind of request exactly if it is the word of the kind but for the case of the
letters A to Z. Its lower case is compared, but no word has a letter that comes from elsewhere:
there is no `k` in any of them, which the Kelvin sign could give, and the `i` of a capital I with a
dot brings the dot along. As a JSON string, a kind has one spelling, its word.
-/

namespace JournalCache

namespace Request

theorem ofLowerWord?_eq_some_iff {cs : List Char} {r : Request} :
    ofLowerWord? cs = some r ↔ cs = r.word.toList.map Char.toLower := by
  constructor
  · intro h
    rw [ofLowerWord?.eq_def] at h
    split at h <;> cases h <;> rfl
  · rintro rfl
    cases r <;> rfl

/-- The words have none of the letters that could come from outside of ASCII. -/
theorem lowerWord_ascii (r : Request) :
    ∀ c ∈ r.word.toList.map Char.toLower, c.toNat < 128 ∧ c ≠ 'k' := by
  have hall : (r.word.toList.map Char.toLower).all fun c => c.toNat < 128 && c != 'k' := by
    cases r <;> decide
  intro c hc
  simpa using List.all_eq_true.1 hall c hc

theorem ofSpelling?_eq_some_iff {s : String} {r : Request} :
    ofSpelling? s = some r ↔ Text.EqIgnoringCase s r.word := by
  rw [ofSpelling?, ofLowerWord?_eq_some_iff, Text.lower_eq_iff r.lowerWord_ascii,
    Text.eqIgnoringCase_iff]

theorem ofSpelling_eq_ok_iff {s : String} {r : Request} :
    ofSpelling s = .ok r ↔ Text.EqIgnoringCase s r.word := by
  rw [← ofSpelling?_eq_some_iff, ofSpelling]
  cases ofSpelling? s <;> simp

/-- What is refused comes back as it was. -/
theorem ofSpelling_eq_error_iff {s : String} {e : SpellingError} :
    ofSpelling s = .error e ↔ e.text = s ∧ ∀ r : Request, ¬ Text.EqIgnoringCase s r.word := by
  simp only [← ofSpelling?_eq_some_iff, ofSpelling]
  cases hs : ofSpelling? s with
  | some r => simp
  | none =>
      cases e
      simp [eq_comm]

theorem ofWord?_eq_some_iff {s : String} {r : Request} : ofWord? s = some r ↔ s = r.word := by
  constructor
  · intro h
    have hword := List.find?_some h
    exact (eq_of_beq hword).symm
  · rintro rfl
    cases r <;> rfl

theorem decode?_text_eq_some_iff {s t : String} {r : Request} (h : (Json.text (some s)).Spells t) :
    decode? t = some r ↔ s = r.word := by
  rw [decode?_of_spells h]
  exact ofWord?_eq_some_iff

/-- How a text is read as a kind of request, by itself and as a JSON string. -/
structure IsReadAsSpelling (s : String) : Prop where
  /-- The text is taken for a kind exactly if it is the word of the kind but for the case of the
  letters A to Z. -/
  takes : ∀ r : Request, ofSpelling s = .ok r ↔ Text.EqIgnoringCase s r.word
  /-- Any other text is refused, with an error that carries it as it is. -/
  refuses : ∀ e : SpellingError,
    ofSpelling s = .error e ↔ e.text = s ∧ ∀ r : Request, ¬ Text.EqIgnoringCase s r.word
  /-- However the text is written as a JSON string, it is taken for a kind exactly if it is the word
  of the kind, in capitals. -/
  decodes : ∀ (t : String) (r : Request), (Json.text (some s)).Spells t →
    (decode? t = some r ↔ s = r.word)

/-- Every text is read so: a capital I with a dot, a long s or a Kelvin sign makes no spelling. -/
theorem isReadAsSpelling (s : String) : IsReadAsSpelling s where
  takes _ := ofSpelling_eq_ok_iff
  refuses _ := ofSpelling_eq_error_iff
  decodes _ _ := decode?_text_eq_some_iff

end Request

end JournalCache

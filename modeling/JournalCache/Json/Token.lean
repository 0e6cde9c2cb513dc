import JournalCache.Json.Number
import JournalCache.Json.Text

/-!
# The tokens of a JSON text

A JSON text is a sequence of tokens with blanks between them. `Token.scan` splits a text into its
tokens. Only what a later stage can use is kept of a token: a number keeps its value if it is
written as a whole number, and a string keeps the characters it spells, if it spells any.
-/

namespace JournalCache

namespace Json

inductive Token where
  | openBrace
  | closeBrace
  | openBracket
  | closeBracket
  | comma
  | colon
  | null
  | bool (value : Bool)
  /-- A number, with its value if it is written without fraction and exponent and is not `-0`. -/
  | number (whole : Option Int)
  /-- A string, with the characters it spells if every surrogate in it is paired. -/
  | text (content : Option String)
  deriving DecidableEq, Repr

namespace Token

/-- Reads the token at the start of a text that starts with no blank. -/
def next? : List Char → Option (Token × List Char)
  | '\x7b' :: r => some (.openBrace, r)
  | '\x7d' :: r => some (.closeBrace, r)
  | '[' :: r => some (.openBracket, r)
  | ']' :: r => some (.closeBracket, r)
  | ',' :: r => some (.comma, r)
  | ':' :: r => some (.colon, r)
  | 'n' :: 'u' :: 'l' :: 'l' :: r => some (.null, r)
  | 't' :: 'r' :: 'u' :: 'e' :: r => some (.bool true, r)
  | 'f' :: 'a' :: 'l' :: 's' :: 'e' :: r => some (.bool false, r)
  | '"' :: r => do
    let (ps, r) ← pieces? r
    pure (.text ((Piece.spell ps).map String.ofList), r)
  | cs => do
    let (n, r) ← number? cs
    pure (.number n, r)

def isBlank (c : Char) : Bool := c == ' ' || c == '\t' || c == '\r' || c == '\n'

/-- Reading a token uses up part of the text. -/
theorem length_next? {cs r : List Char} {t : Token} (h : next? cs = some (t, r)) :
    r.length < cs.length := by
  unfold next? at h
  split at h
  case h_10 =>
    simp only [Option.bind_eq_bind, Option.bind_eq_some_iff, Option.pure_def, Option.some.injEq,
      Prod.mk.injEq, Prod.exists] at h
    obtain ⟨ps, r', hp, _, rfl⟩ := h
    have := length_pieces? hp
    simp only [List.length_cons]; omega
  case h_11 =>
    simp only [Option.bind_eq_bind, Option.bind_eq_some_iff, Option.pure_def, Option.some.injEq,
      Prod.mk.injEq, Prod.exists] at h
    obtain ⟨n, r', hn, _, rfl⟩ := h
    exact length_number? hn
  all_goals
    simp only [Option.some.injEq, Prod.mk.injEq] at h
    obtain ⟨_, rfl⟩ := h
    simp only [List.length_cons]; omega

/-- The tokens of a text, absent when some part of it is neither token nor blank. -/
def scan (cs : List Char) : Option (List Token) :=
  match cs with
  | [] => some []
  | c :: r =>
    if isBlank c then scan r
    else
      match _h : next? (c :: r) with
      | none => none
      | some (t, rest) => (scan rest).map (t :: ·)
termination_by cs.length
decreasing_by
  · simp
  · exact length_next? _h

end Token

end Json

end JournalCache

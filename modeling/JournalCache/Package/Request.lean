import JournalCache.Text.Lowercase

/-!
# Kinds of distribution requests

Each kind has one word, in capitals. `Request.ofWord?` takes exactly that word and
`Request.ofSpelling?` takes it in any mixture of cases.
-/

namespace JournalCache

inductive Request where
  /-- Content was added or changed. -/
  | add
  /-- Content was deleted. -/
  | delete
  /-- A message between servers, never shown in a queue. -/
  | test
  /-- A cache has to be invalidated. -/
  | invalidate
  deriving DecidableEq, Repr, Inhabited

namespace Request

def all : List Request := [.add, .delete, .test, .invalidate]

def word : Request → String
  | .add => "ADD"
  | .delete => "DELETE"
  | .test => "TEST"
  | .invalidate => "INVALIDATE"

/-- Whether packages of this kind are kept out of the queues. -/
def isTest (r : Request) : Bool := r == .test

def ofWord? (s : String) : Option Request := all.find? fun r => r.word == s

/-- The kind whose word this is in lower case. -/
def ofLowerWord? : List Char → Option Request
  | ['a', 'd', 'd'] => some .add
  | ['d', 'e', 'l', 'e', 't', 'e'] => some .delete
  | ['t', 'e', 's', 't'] => some .test
  | ['i', 'n', 'v', 'a', 'l', 'i', 'd', 'a', 't', 'e'] => some .invalidate
  | _ => none

/-- The kind that a text spells, whatever the case of its letters. -/
def ofSpelling? (s : String) : Option Request := ofLowerWord? (Text.lower s.toList)

/-- A text that spells no kind of request. -/
structure SpellingError where
  text : String
  deriving DecidableEq, Repr

def SpellingError.message (e : SpellingError) : String := "Invalid request type: " ++ e.text

/-- The kind that a text spells, or the text as an error. -/
def ofSpelling (s : String) : Except SpellingError Request :=
  match ofSpelling? s with
  | some r => .ok r
  | none => .error ⟨s⟩

end Request

end JournalCache

import JournalCache.Journal.Basic

/-!
# A journal with prepared answers

Answers to fetches can be prepared. As long as there are any, each fetch takes the first of them and
waits for as long as it says. A prepared answer may leave the reply open; then, as when none is
left, the journal answers by itself.
-/

namespace JournalCache

structure PreparedAnswer where
  /-- The delay of the fetch, in milliseconds. -/
  delay : Nat
  /-- The reply, absent if the journal has to give it. -/
  reply : Option (Except Fault (List Message))

/-- A journal with prepared answers, and the ranges that were asked of both. -/
structure PreparedJournal where
  journal : Journal
  prepared : List PreparedAnswer
  /-- The ranges that were asked for, in order. -/
  calls : List (Offset × Offset)
  deriving Inhabited

namespace PreparedJournal

def ofJournal (j : Journal) : PreparedJournal := ⟨j, [], []⟩

/-- Asks for a range: takes the first prepared answer, or one that leaves all to the journal. -/
def ask (j : PreparedJournal) (first upTo : Offset) : PreparedJournal × PreparedAnswer :=
  let j := { j with calls := j.calls ++ [(first, upTo)] }
  match j.prepared with
  | [] => (j, ⟨0, none⟩)
  | a :: as => ({ j with prepared := as }, a)

end PreparedJournal

end JournalCache

import JournalCache.Proofs.Course.Basic
import JournalCache.Proofs.Journal.Log

/-!
# A cache fed by its journal

A feed is a cache among those who use it, together with the journal that it follows. The journal
answers the fetches of the cache from its log, as the log is when the answer comes. A record that is
published goes into the log and, as long as the subscription lasts, into a line; from there the
records are let into the inbox as there is room, those published first before the others. Messages
may also be stored beside the tail.

Records are published at increasing offsets, none of them reserved, and what is stored beside the
tail lies below the lowest mark or, while there is none, below all that is published.
-/

namespace JournalCache

/-- A cache and the journal that it follows. -/
structure Feed where
  journal : Journal
  course : Course
  /-- The published records that wait for room in the inbox, oldest first. -/
  line : List Delivery
  /-- The records published since the cache was started, in order. -/
  published : List Delivery

inductive FeedMove where
  | publish (record : Delivery)
  /-- The first record of the line is let into the inbox. -/
  | letIn
  /-- Messages are stored beside the tail. -/
  | store (messages : List Message)
  /-- The journal is told to fail fetches, or not to. -/
  | failFetches (on : Bool)
  /-- The journal answers the fetch under way. -/
  | reply
  /-- Closing begins. -/
  | shutDown
  /-- A query, tail ingestion or closing takes a step of its own. -/
  | take (move : Move)

def Move.isOwn : Move → Bool
  | .answer .. | .deliver _ | .shutDown => false
  | _ => true

namespace Feed

/-- A cache that has just subscribed to a journal with messages stored before. -/
def start (history : List Message) (number : Nat) (settings : Settings) (registry : Registry) :
    Feed :=
  { journal := { Journal.empty.store history with consumer := some number }
    course := .start number settings registry
    line := []
    published := [] }

def move (f : Feed) : FeedMove → Feed
  | .publish r =>
    { f with
      journal := f.journal.keep r
      line := if f.journal.consumer.isSome then f.line ++ [r] else f.line
      published := f.published ++ [r] }
  | .letIn =>
    match f.line with
    | [] => f
    | r :: rs =>
      if f.course.cache.isFollowing then
        { f with line := rs, course := f.course.move (.deliver r) }
      else { f with line := rs }
  | .store ms => { f with journal := f.journal.store ms }
  | .failFetches on => { f with journal := { f.journal with failsFetches := on } }
  | .reply =>
    match f.course.cache.right.holder with
    | some (.fetching g) =>
      { f with course := f.course.move (.answer g.ticket (f.journal.answer g.first g.upTo)) }
    | _ => f
  | .shutDown =>
    { f with
      journal := if f.course.cache.isSubscribed then f.journal.unsubscribe.1 else f.journal
      course := f.course.move .shutDown }
  | .take m => { f with course := f.course.move m }

/-- The offset below which messages may be stored beside the tail. -/
def historyEnd? (f : Feed) : Option Offset :=
  f.course.lowest?.or (f.published.head?.map (·.offset))

/-- Whether a message may be stored at an offset beside the tail. -/
def isHistory (f : Feed) (o : Offset) : Bool := f.historyEnd?.all fun p => o < p

/-- Whether a move can be made. -/
def Allows (f : Feed) : FeedMove → Prop
  | .publish r =>
    r.offset ≠ reservedOffset ∧ (∀ p ∈ f.published, p.offset < r.offset) ∧
      (f.published = [] → ∀ e ∈ f.journal.log.entries, e.1 < r.offset)
  | .store ms => ∀ m ∈ ms, f.isHistory m.offset
  | .take m => m.isOwn ∧ f.course.Allows m
  | _ => True

instance (f : Feed) : (m : FeedMove) → Decidable (f.Allows m)
  | .publish r => inferInstanceAs (Decidable (_ ∧ (∀ p ∈ f.published, p.offset < r.offset) ∧
      (f.published = [] → ∀ e ∈ f.journal.log.entries, e.1 < r.offset)))
  | .store ms => inferInstanceAs (Decidable (∀ m ∈ ms, f.isHistory m.offset))
  | .take m => inferInstanceAs (Decidable (m.isOwn ∧ f.course.Allows m))
  | .letIn | .failFetches _ | .reply | .shutDown => .isTrue trivial

def run (f : Feed) (ms : List FeedMove) : Feed := ms.foldl move f

def AllowsAll (f : Feed) : List FeedMove → Prop
  | [] => True
  | m :: ms => f.Allows m ∧ (f.move m).AllowsAll ms

instance decidableAllowsAll : (f : Feed) → (ms : List FeedMove) → Decidable (f.AllowsAll ms)
  | _, [] => .isTrue trivial
  | f, m :: ms =>
    have := decidableAllowsAll (f.move m) ms
    inferInstanceAs (Decidable (f.Allows m ∧ (f.move m).AllowsAll ms))

inductive Reachable (history : List Message) (number : Nat) (settings : Settings)
    (registry : Registry) : Feed → Prop where
  | start : Reachable history number settings registry (start history number settings registry)
  | move {f : Feed} (hf : Reachable history number settings registry f) {m : FeedMove}
      (hm : f.Allows m) : Reachable history number settings registry (f.move m)

variable {history : List Message} {number : Nat} {settings : Settings} {registry : Registry}

theorem Reachable.run {f : Feed} (hf : Reachable history number settings registry f)
    {ms : List FeedMove} (hms : f.AllowsAll ms) :
    Reachable history number settings registry (f.run ms) := by
  induction ms generalizing f with
  | nil => exact hf
  | cons m ms ih => exact ih (hf.move hms.1) hms.2

/-- What happens to the course in a move, if anything, is a move of the course. -/
theorem course_move {f : Feed} {m : FeedMove} (hm : f.Allows m) :
    (f.move m).course = f.course ∨
      ∃ m', f.course.Allows m' ∧ (f.move m).course = f.course.move m' := by
  cases m with
  | publish | store | failFetches => exact .inl rfl
  | letIn =>
      cases hline : f.line with
      | nil =>
          left
          rw [move, hline]
      | cons r rs =>
          rw [move, hline]
          dsimp only
          split
          · exact .inr ⟨.deliver r, trivial, rfl⟩
          · exact .inl rfl
  | reply =>
      rw [move]
      split
      · exact .inr ⟨.answer _ _, trivial, rfl⟩
      · exact .inl rfl
  | shutDown => exact .inr ⟨.shutDown, trivial, rfl⟩
  | take m => exact .inr ⟨m, hm.2, rfl⟩

theorem Reachable.course {f : Feed} (hf : Reachable history number settings registry f) :
    Course.Reachable number settings registry f.course := by
  induction hf with
  | start => exact .start
  | @move f _ m hm ih =>
      rcases course_move hm with heq | ⟨m', hm', heq⟩
      · rw [heq]
        exact ih
      · rw [heq]
        exact ih.move hm'

end Feed

end JournalCache

import JournalCache.Proofs.Course.Tally

/-!
# Queries that are called while another fetches

Several queries are called before the journal answers any of them. Those whose offset is covered
return at once. The others get the right to fetch one after another, in the order of their calls,
and each looks again when its turn comes. A fetch that succeeds lowers the mark to the offset it was
made for, one that fails leaves it; so a query finds the mark at the minimum of where it stood and
of the offsets fetched before its turn (`Fate.floor`). It fetches up to there if its offset is
below, and else returns without a fetch.
-/

namespace JournalCache

namespace Move

def asked? : Move → Option Query
  | .ask q => some q
  | _ => none

def isAnswer : Move → Bool
  | .answer .. => true
  | _ => false

/-- Whether a query is cut short, since its limit is over or since it is given up. -/
def cutsShort : Move → Bool
  | .expire _ | .withdraw _ => true
  | _ => false

end Move

/-- What became of a query that did not wait too long: the reply to its call, or that it made
none. -/
structure Fate where
  query : Query
  reply : Option FetchReply

namespace Fate

def isSuccess (f : Fate) : Bool :=
  match f.reply with
  | some (.ok _) => true
  | _ => false

/-- A query fails with its own call only. -/
def outcome (f : Fate) : Except Fault Unit :=
  match f.reply with
  | some reply => reply.map fun _ => ()
  | none => .ok ()

/-- The minimum of `low` and of the offsets from which on was fetched with success. -/
def floor (low : Offset) (fates : List Fate) : Offset :=
  ((fates.filter isSuccess).map (·.query.requested)).foldl min low

/-- The call of the query, for what is missing below `upTo`, if it made one. -/
def call? (f : Fate) (upTo : Offset) : Option Call :=
  f.reply.map fun reply => ⟨⟨f.query.ticket, f.query.requested, upTo⟩, .answered reply⟩

/-- The calls of queries one after another, each up to the floor that it found. -/
def calls (low : Offset) : List Fate → List Call
  | [] => []
  | f :: fates => (f.call? low).toList ++ calls (floor low [f]) fates

theorem floor_cons (low : Offset) (f : Fate) (fates : List Fate) :
    floor low (f :: fates) = floor (floor low [f]) fates := by
  cases h : f.isSuccess <;> simp [floor, h]

theorem floor_concat (low : Offset) (fates : List Fate) (f : Fate) :
    floor low (fates ++ [f]) =
      if f.isSuccess then min (floor low fates) f.query.requested else floor low fates := by
  cases h : f.isSuccess <;> simp [floor, h]

theorem calls_concat (low : Offset) (fates : List Fate) (f : Fate) :
    calls low (fates ++ [f]) = calls low fates ++ (f.call? (floor low fates)).toList := by
  induction fates generalizing low with
  | nil => exact List.append_nil _
  | cons g fates ih =>
      rw [List.cons_append, calls, calls, ih, floor_cons low g fates, List.append_assoc]

end Fate

/-- The return of a query, with the reply to its call and how it ended. -/
def Deed.return? : Deed → Option (Query × Option FetchReply × Except Fault Unit)
  | .returned q reply result => some (q, reply, result.map fun _ => ())
  | _ => none

namespace Course

/-- The queries that returned, in order, each with the reply to its call and how it ended. -/
def returns (c : Course) : List (Query × Option FetchReply × Except Fault Unit) :=
  c.deeds.filterMap Deed.return?

/-- Whether tail ingestion, if this is its move, leaves the lowest covered offset. -/
def Stride.isSteady (s : Stride) : Bool :=
  match s.move with
  | .handle => s.after.lowest? == s.before.lowest?
  | _ => true

/-- Whether the journal, if this is its move, answers inside the range of the call, or refuses. -/
def Stride.isInside (s : Stride) : Bool :=
  match s.move with
  | .answer ticket (.ok batch) => (s.before.calls.filter (·.awaits ticket)).all fun k =>
      batch.all fun m => k.fetch.first ≤ m.offset && m.offset < k.fetch.upTo
  | _ => true

/-- The queries `qs` are called, in this order, in the moves `asking`, and the journal answers in
the moves `answering` only. No query is cut short; meanwhile the tail does not lower the lowest
covered offset; and the journal answers inside the ranges that it is asked for, or refuses. -/
structure Queued (c : Course) (qs : List Query) (asking answering : List Move) : Prop where
  allows : c.AllowsAll (asking ++ answering)
  asked : asking.filterMap Move.asked? = qs
  asksFirst : ∀ m ∈ answering, m.asked? = none
  answersLast : ∀ m ∈ asking, m.isAnswer = false
  patient : ∀ m ∈ asking ++ answering, m.cutsShort = false
  steady : ∀ s ∈ c.strides (asking ++ answering), s.isSteady
  inside : ∀ s ∈ c.strides (asking ++ answering), s.isInside

/-! ## What is promised -/

/-- What the queries `qs`, called in `c` where all from `low` on is covered, have come to in `d`.
The list `fates` tells what became of those that had to wait for the right and have returned. -/
structure Backfilled (c : Course) (low : Offset) (qs : List Query) (fates : List Fate)
    (d : Course) : Prop where
  /-- The queries below `low` have their turns in the order of their calls. -/
  turns : fates.map (·.query) ++ d.pending = qs.filter fun q => q.requested < low
  /-- A query makes a call exactly if its offset is below the floor that it finds. -/
  called_iff : ∀ past f later, fates = past ++ f :: later →
    (f.reply.isSome ↔ f.query.requested < Fate.floor low past)
  /-- The calls follow one another, and at most the last has not ended. -/
  calls : d.calls = c.calls ++ Fate.calls low fates ++ d.cache.right.outstanding
  fetching : ∀ f, d.cache.right.holder = some (.fetching f) → ∃ q rest, d.pending = q :: rest ∧
    f = ⟨q.ticket, q.requested, Fate.floor low fates⟩ ∧ q.requested < Fate.floor low fates
  /-- A query whose offset was covered returns well, and each other one as its own call ends. -/
  returns : d.returns = c.returns ++ (qs.filter fun q => low ≤ q.requested).map (·, none, .ok ()) ++
    fates.map fun f => (f.query, f.reply, f.outcome)
  /-- A query that waited and then made no call is counted as skipped. -/
  skipped : d.cache.activity.skipped =
    c.cache.activity.skipped + fates.countP fun f => f.reply.isNone
  lowest : d.lowest? = some (Fate.floor low fates)

/-- The turn of a query: it looks, and if it makes a call, the journal replies. -/
def turn (replies : Query → FetchReply) (q : Query) : List Move :=
  [.resume q.ticket, .answer q.ticket (replies q)]

/-! ## The moves of others -/

variable {c d e : Course} {m : Move} {low : Offset} {q : Query} {qs rest : List Query}
  {fates : List Fate}

/-- What queries have to do with is in `e` as it is in `d`. -/
structure Beside (d e : Course) : Prop where
  pending : e.pending = d.pending
  right : e.cache.right = d.cache.right
  calls : e.calls = d.calls
  returns : e.returns = d.returns
  skipped : e.cache.activity.skipped = d.cache.activity.skipped
  lowest : e.lowest? = d.lowest?

theorem returns_of_deeds {x : Deed} (h : d.deeds = c.deeds ++ [x]) :
    d.returns = c.returns ++ [x].filterMap Deed.return? := by
  rw [returns, h, List.filterMap_append]
  rfl

theorem returns_of_none {x : Deed} (h : d.deeds = c.deeds ++ [x]) (hx : x.return? = none) :
    d.returns = c.returns := by
  rw [returns_of_deeds h, List.filterMap_cons_none hx, List.filterMap_nil, List.append_nil]

theorem returns_concat {reply : Option FetchReply} {result : Except Fault (Queue Item)}
    (h : d.deeds = c.deeds ++ [.returned q reply result]) :
    d.returns = c.returns ++ [(q, reply, result.map fun _ => ())] := returns_of_deeds h

theorem Sound.beside_move (hs : d.Sound) (hm : m.ticket? = none)
    (hsteady : Stride.isSteady ⟨d, m⟩) : d.Beside (d.move m) := by
  have hallowed : d.Allows m := by
    cases m with
    | ask => cases hm
    | _ => trivial
  have hstep := step_move hs hallowed
  have hlowest : m = .handle → (d.move m).lowest? = d.lowest? := by
    rintro rfl
    exact beq_iff_eq.1 hsteady
  generalize d.move m = e at hstep hlowest
  cases hstep with
  | fetches hm' => rcases hm' with rfl | rfl <;> cases hm
  | handles => exact ⟨rfl, rfl, rfl, returns_of_none rfl rfl, rfl, hlowest rfl⟩
  | releases => exact ⟨rfl, rfl, rfl, returns_of_none rfl rfl, rfl, rfl⟩
  | stays => exact ⟨rfl, rfl, rfl, rfl, rfl, rfl⟩
  | delivers => exact ⟨rfl, rfl, rfl, rfl, rfl, rfl⟩
  | shutsDown => exact ⟨rfl, rfl, rfl, rfl, rfl, rfl⟩
  | stops => exact ⟨rfl, rfl, rfl, rfl, rfl, rfl⟩
  | _ => cases hm

namespace Backfilled

theorem of_beside (h : c.Backfilled low qs fates d) (hbeside : d.Beside e) :
    c.Backfilled low qs fates e where
  turns := by rw [hbeside.pending, h.turns]
  called_iff := h.called_iff
  calls := by rw [hbeside.calls, hbeside.right, h.calls]
  fetching := by
    rw [hbeside.pending, hbeside.right]
    exact h.fetching
  returns := by rw [hbeside.returns, h.returns]
  skipped := by rw [hbeside.skipped, h.skipped]
  lowest := by rw [hbeside.lowest, h.lowest]

end Backfilled

/-! ## The moves of queries -/

theorem le_offset_of_isInside {t : Nat} {batch : List Message}
    (h : Stride.isInside ⟨d, .answer t (.ok batch)⟩) {k : Call} (hk : k ∈ d.calls)
    (hawaits : k.awaits t) : ∀ m ∈ batch, k.fetch.first ≤ m.offset := by
  intro m hm
  simp only [Stride.isInside, List.all_eq_true, List.mem_filter] at h
  exact of_decide_eq_true (Bool.and_eq_true_iff.1 (h k ⟨hk, hawaits⟩ m hm)).1

namespace Backfilled

theorem start (hs : c.Sound) (hlow : c.lowest? = some low) (hpending : c.pending = []) :
    c.Backfilled low [] [] c := by
  have hholder := hs.holder_of_pending_nil hpending
  refine ⟨hpending, fun past f later h => ?_, ?_, ?_, ?_, rfl, hlow⟩
  · simp at h
  · simp [FetchRight.outstanding, hholder, Fate.calls]
  · simp [hholder]
  · simp

/-- The query whose turn it is fetches up to the floor that it finds; it may be the first of all. -/
theorem beginFetch {all : List Query} (h : c.Backfilled low qs fates d) (hturn : d.InTurn q rest)
    (hq : q.requested < Fate.floor low fates)
    (hturns : fates.map (·.query) ++ q :: rest = all.filter fun q => q.requested < low)
    (hcovered : (all.filter fun q => low ≤ q.requested) = qs.filter fun q => low ≤ q.requested) :
    c.Backfilled low all fates (d.beginFetch q rest (Fate.floor low fates)) where
  turns := hturns
  called_iff := h.called_iff
  calls := by
    have hcalls := h.calls
    rw [hturn.outstanding_eq, List.append_nil] at hcalls
    simp [Course.beginFetch, hcalls, FetchRight.outstanding]
  fetching := by
    intro f hf
    obtain rfl := Holder.fetching.inj (Option.some.inj hf)
    exact ⟨q, rest, rfl, rfl, hq⟩
  returns := by
    rw [hcovered]
    exact h.returns
  skipped := h.skipped
  lowest := h.lowest

theorem ask_covered (h : c.Backfilled low qs [] d) (hq : low ≤ q.requested) :
    c.Backfilled low (qs ++ [q]) []
      { d with deeds := d.deeds ++ [.returned q none (.ok (d.cache.queue q.agent))] } where
  turns := by simpa [List.filter_append, Std.not_lt.2 hq] using h.turns
  called_iff := h.called_iff
  calls := h.calls
  fetching := h.fetching
  returns := by
    rw [returns_concat rfl, h.returns]
    simp [List.filter_append, hq, Except.map]
  skipped := h.skipped
  lowest := h.lowest

theorem ask_held (h : c.Backfilled low qs [] d) (hq : q.requested < low) :
    c.Backfilled low (qs ++ [q]) [] { d with
      cache := { d.cache with
        right := { d.cache.right with waiting := d.cache.right.waiting ++ [q.waiter] } }
      pending := d.pending ++ [q] } where
  turns := by simpa [List.filter_append, hq] using h.turns
  called_iff := h.called_iff
  calls := h.calls
  fetching := by
    intro f hf
    obtain ⟨p, rest, hpending, hp⟩ := h.fetching f hf
    exact ⟨p, rest ++ [q], by simp [hpending], hp⟩
  returns := by
    change d.returns = _
    simpa [List.filter_append, Std.not_le.2 hq] using h.returns
  skipped := h.skipped
  lowest := h.lowest

/-- A query that is called before any has returned returns at once if its offset is covered, and
else fetches if it is the first, and waits if it is not. -/
theorem ask (h : c.Backfilled low qs [] d) (hs : d.Sound) (hm : d.Allows (.ask q))
    (hpassed : ∀ w, d.cache.right.holder ≠ some (.passedTo w)) :
    c.Backfilled low (qs ++ [q]) [] (d.move (.ask q)) ∧
      ∀ w, (d.move (.ask q)).cache.right.holder ≠ some (.passedTo w) := by
  have hlow : d.lowest? = some low := h.lowest
  by_cases hq : low ≤ q.requested
  · rw [move_ask_atOnce hs hm (.covered hlow hq)]
    exact ⟨h.ask_covered hq, hpassed⟩
  · have hlt : q.requested < low := Std.not_le.1 hq
    cases hholder : d.cache.right.holder with
    | none =>
        have hpending := hs.pending_of_free hholder
        have hturns := h.turns
        rw [hpending] at hturns
        rw [move_ask_of_free hs hlow hlt hholder]
        refine ⟨h.beginFetch (.free hholder hpending) hlt ?_ ?_, by simp [Course.beginFetch]⟩
        · simpa [List.filter_append, hlt] using hturns
        · simp [List.filter_append, hq]
    | some held =>
        rw [move_ask (Cache.ask_of_held hlow hlt hholder), proceed]
        exact ⟨h.ask_held hlt, hpassed⟩

/-- The query longest under way returns and passes the right on. -/
theorem concat (h : c.Backfilled low qs fates d) (hpending : d.pending = q :: rest)
    {reply : Option FetchReply} (hreply : reply.isSome ↔ q.requested < Fate.floor low fates)
    (hpending' : e.pending = rest) (hright : e.cache.right = d.cache.right.passOn)
    (hcalls : e.calls = c.calls ++ Fate.calls low (fates ++ [⟨q, reply⟩]))
    {result : Except Fault (Queue Item)}
    (hdeeds : e.deeds = d.deeds ++ [.returned q reply result])
    (hresult : (result.map fun _ => ()) = (⟨q, reply⟩ : Fate).outcome)
    (hskipped : e.cache.activity.skipped = d.cache.activity.skipped + reply.isNone.toNat)
    (hlowest : e.lowest? = some (Fate.floor low (fates ++ [⟨q, reply⟩]))) :
    c.Backfilled low qs (fates ++ [⟨q, reply⟩]) e where
  turns := by
    rw [← h.turns, hpending, hpending', List.map_append, List.append_assoc]
    rfl
  called_iff := by
    intro past f later heq
    rcases later.eq_nil_or_concat with rfl | ⟨later, g, rfl⟩
    · obtain ⟨rfl, hf⟩ := List.append_inj' heq rfl
      obtain rfl := List.singleton_inj.1 hf
      exact hreply
    · rw [List.concat_eq_append, ← List.cons_append, ← List.append_assoc] at heq
      exact h.called_iff past f later (List.append_inj' heq rfl).1
  calls := by rw [hcalls, hright, FetchRight.outstanding_passOn, List.append_nil]
  fetching := by
    intro f hf
    rw [hright] at hf
    exact absurd hf (FetchRight.holder_passOn_ne _ f)
  returns := by
    rw [returns_concat hdeeds, h.returns, hresult, List.map_append, List.append_assoc]
    rfl
  skipped := by
    rw [hskipped, h.skipped, List.countP_append, Nat.add_assoc]
    cases reply <;> rfl
  lowest := hlowest

theorem skip (h : c.Backfilled low qs fates d) (hpending : d.pending = q :: rest)
    (hholder : d.cache.right.holder = some (.passedTo q.waiter))
    (hq : ¬ q.requested < Fate.floor low fates) :
    c.Backfilled low qs (fates ++ [⟨q, none⟩]) (d.skip q rest) := by
  have hcalls := h.calls
  rw [FetchRight.outstanding, hholder, List.append_nil] at hcalls
  refine h.concat hpending (iff_of_false Bool.false_ne_true hq) rfl rfl ?_ rfl rfl rfl ?_
  · rw [Fate.calls_concat, Fate.call?, Option.map_none, Option.toList_none, List.append_nil]
    exact hcalls
  · rw [Fate.floor_concat]
    exact h.lowest

theorem resume (h : c.Backfilled low qs fates d) (hs : d.Sound) (t : Nat) :
    ∃ more, c.Backfilled low qs (fates ++ more) (d.move (.resume t)) := by
  rcases hs.move_resume_cases t with heq | ⟨q, rest, rfl, hholder, hpending⟩
  · exact ⟨[], by rwa [heq, List.append_nil]⟩
  · by_cases hq : q.requested < Fate.floor low fates
    · rw [move_resume_of_lt hholder hpending h.lowest hq]
      have hturns := h.turns
      rw [hpending] at hturns
      exact ⟨[], by simpa using h.beginFetch (.passed hholder hpending) hq hturns rfl⟩
    · have hcovered : ∀ low', d.lowest? = some low' → low' ≤ q.requested := by
        intro low' hlow'
        rw [h.lowest] at hlow'
        exact Option.some.inj hlow' ▸ Std.not_lt.1 hq
      rw [move_resume_of_covered hs hholder hpending hcovered]
      exact ⟨_, h.skip hpending hholder hq⟩

section Answer

variable {upTo : Offset} {past : List Call}

/-- The query that fetches asked for what was missing below the floor that it found. -/
theorem of_fetching (h : c.Backfilled low qs fates d)
    (hholder : d.cache.right.holder = some (.fetching ⟨q.ticket, q.requested, upTo⟩))
    (hcalls : d.calls = past ++ [⟨⟨q.ticket, q.requested, upTo⟩, .outstanding⟩]) :
    upTo = Fate.floor low fates ∧ q.requested < Fate.floor low fates ∧
      past = c.calls ++ Fate.calls low fates := by
  obtain ⟨p, rest, -, hf, hlt⟩ := h.fetching _ hholder
  obtain ⟨-, hrequested, hupTo⟩ := Fetch.mk.inj hf
  have hpast := h.calls
  rw [FetchRight.outstanding, hholder, hcalls] at hpast
  exact ⟨hupTo, hrequested ▸ hlt, (List.append_inj' hpast rfl).1⟩

theorem fail (h : c.Backfilled low qs fates d)
    (hholder : d.cache.right.holder = some (.fetching ⟨q.ticket, q.requested, upTo⟩))
    (hpending : d.pending = q :: rest)
    (hcalls : d.calls = past ++ [⟨⟨q.ticket, q.requested, upTo⟩, .outstanding⟩]) (e : Fault) :
    c.Backfilled low qs (fates ++ [⟨q, some (.error e)⟩]) (d.fail q rest upTo past e) := by
  obtain ⟨rfl, hlt, rfl⟩ := h.of_fetching hholder hcalls
  refine h.concat hpending (iff_of_true rfl hlt) rfl rfl ?_ rfl rfl rfl ?_
  · rw [Fate.calls_concat, ← List.append_assoc]
    rfl
  · rw [Fate.floor_concat]
    exact h.lowest

theorem succeed (h : c.Backfilled low qs fates d)
    (hholder : d.cache.right.holder = some (.fetching ⟨q.ticket, q.requested, upTo⟩))
    (hpending : d.pending = q :: rest)
    (hcalls : d.calls = past ++ [⟨⟨q.ticket, q.requested, upTo⟩, .outstanding⟩])
    {batch : List Message} (hinside : ∀ m ∈ batch, q.requested ≤ m.offset) :
    c.Backfilled low qs (fates ++ [⟨q, some (.ok batch)⟩]) (d.succeed q rest upTo past batch) := by
  obtain ⟨rfl, hlt, rfl⟩ := h.of_fetching hholder hcalls
  obtain ⟨hmark, hne⟩ := lowest?_eq_some.1 h.lowest
  refine h.concat hpending (iff_of_true rfl hlt) rfl rfl ?_ rfl rfl rfl ?_
  · rw [Fate.calls_concat, ← List.append_assoc]
    rfl
  · have hsuccess : (⟨q, some (.ok batch)⟩ : Fate).isSuccess := rfl
    rw [Fate.floor_concat, if_pos hsuccess, min_eq_right_of_le (Std.le_of_lt hlt), lowest?_eq_some]
    rw [← hmark] at hlt ⊢
    refine ⟨lowMark_succeed hlt hinside, fun hq => ?_⟩
    rw [hq] at hlt
    exact Std.not_lt.2 (le_reservedOffset _) hlt

theorem answer (h : c.Backfilled low qs fates d) (hs : d.Sound) {t : Nat} {reply : FetchReply}
    (hinside : Stride.isInside ⟨d, .answer t reply⟩) :
    ∃ more, c.Backfilled low qs (fates ++ more) (d.move (.answer t reply)) := by
  have hstep := step_move hs (m := .answer t reply) trivial
  generalize d.move (.answer t reply) = e at hstep
  cases hstep with
  | stays => exact ⟨[], by rwa [List.append_nil]⟩
  | fetches hm => simp at hm
  | fails hholder hpending hcalls => exact ⟨_, h.fail hholder hpending hcalls _⟩
  | @succeeds q rest upTo past batch hholder hpending hcalls =>
      have hmem : (⟨⟨q.ticket, q.requested, upTo⟩, .outstanding⟩ : Call) ∈ d.calls := by
        simp [hcalls]
      have hbatch := le_offset_of_isInside hinside hmem (beq_self_eq_true _)
      exact ⟨_, h.succeed hholder hpending hcalls hbatch⟩

end Answer

/-! ## All moves -/

/-- While the queries are called, the first of them fetches and nobody looks. -/
theorem move_asking (h : c.Backfilled low qs [] d) (hs : d.Sound)
    (hpassed : ∀ w, d.cache.right.holder ≠ some (.passedTo w)) (hm : d.Allows m)
    (hanswer : m.isAnswer = false) (hpatient : m.cutsShort = false)
    (hsteady : Stride.isSteady ⟨d, m⟩) :
    c.Backfilled low (qs ++ m.asked?.toList) [] (d.move m) ∧
      ∀ w, (d.move m).cache.right.holder ≠ some (.passedTo w) := by
  cases m with
  | ask q => exact h.ask hs hm hpassed
  | resume t =>
      rcases hs.move_resume_cases t with heq | ⟨q, rest, -, hholder, -⟩
      · rw [heq]
        exact ⟨by simpa [Move.asked?] using h, hpassed⟩
      · exact absurd hholder (hpassed _)
  | expire => cases hpatient
  | withdraw => cases hpatient
  | answer => cases hanswer
  | _ =>
      have hbeside := hs.beside_move rfl hsteady
      rw [hbeside.right]
      exact ⟨by simpa [Move.asked?] using h.of_beside hbeside, hpassed⟩

theorem move_answering (h : c.Backfilled low qs fates d) (hs : d.Sound) (hasked : m.asked? = none)
    (hpatient : m.cutsShort = false) (hsteady : Stride.isSteady ⟨d, m⟩)
    (hinside : Stride.isInside ⟨d, m⟩) :
    ∃ more, c.Backfilled low qs (fates ++ more) (d.move m) := by
  cases m with
  | ask => cases hasked
  | resume t => exact h.resume hs t
  | expire => cases hpatient
  | withdraw => cases hpatient
  | answer => exact h.answer hs hinside
  | _ => exact ⟨[], by simpa using h.of_beside (hs.beside_move rfl hsteady)⟩

variable {ms : List Move}

theorem run_asking (h : c.Backfilled low qs [] d) (hs : d.Sound)
    (hpassed : ∀ w, d.cache.right.holder ≠ some (.passedTo w)) (hms : d.AllowsAll ms)
    (hanswer : ∀ m ∈ ms, m.isAnswer = false) (hpatient : ∀ m ∈ ms, m.cutsShort = false)
    (hsteady : ∀ s ∈ d.strides ms, s.isSteady) :
    c.Backfilled low (qs ++ ms.filterMap Move.asked?) [] (d.run ms) := by
  induction ms generalizing d qs with
  | nil => simpa [Course.run] using h
  | cons m ms ih =>
      rw [strides, List.forall_mem_cons] at hsteady
      rw [List.forall_mem_cons] at hanswer hpatient
      obtain ⟨hnext, hpassed'⟩ := h.move_asking hs hpassed hms.1 hanswer.1 hpatient.1 hsteady.1
      have hrun := ih hnext ((step_move hs hms.1).sound hs) hpassed' hms.2 hanswer.2 hpatient.2
        hsteady.2
      have hasked : m.asked?.toList ++ ms.filterMap Move.asked? =
          (m :: ms).filterMap Move.asked? := by
        rw [List.filterMap_cons]
        cases m.asked? <;> rfl
      rw [List.append_assoc, hasked] at hrun
      exact hrun

theorem run_answering (h : c.Backfilled low qs fates d) (hs : d.Sound) (hms : d.AllowsAll ms)
    (hasked : ∀ m ∈ ms, m.asked? = none) (hpatient : ∀ m ∈ ms, m.cutsShort = false)
    (hsteady : ∀ s ∈ d.strides ms, s.isSteady) (hinside : ∀ s ∈ d.strides ms, s.isInside) :
    ∃ more, c.Backfilled low qs (fates ++ more) (d.run ms) := by
  induction ms generalizing d fates with
  | nil => exact ⟨[], by rwa [List.append_nil]⟩
  | cons m ms ih =>
      rw [strides, List.forall_mem_cons] at hsteady hinside
      rw [List.forall_mem_cons] at hasked hpatient
      obtain ⟨more, hmore⟩ := h.move_answering hs hasked.1 hpatient.1 hsteady.1 hinside.1
      obtain ⟨more', hmore'⟩ := ih hmore ((step_move hs hms.1).sound hs) hms.2 hasked.2 hpatient.2
        hsteady.2 hinside.2
      exact ⟨more ++ more', by rwa [← List.append_assoc]⟩

end Backfilled

/-! ## The queries come to an end -/

theorem Sound.pending_answer (hs : d.Sound) {f : Fetch}
    (hholder : d.cache.right.holder = some (.fetching f)) (hpending : d.pending = q :: rest)
    (reply : FetchReply) : (d.move (.answer q.ticket reply)).pending = rest := by
  obtain ⟨p, rest', past, hf, hpending', hcalls, hpast⟩ := hs.fetching hholder
  obtain ⟨rfl, rfl⟩ := List.cons.inj (hpending.symm.trans hpending')
  rw [hf] at hholder hcalls
  cases reply with
  | ok batch => rw [move_answer_ok hs hholder hpending hcalls hpast]; rfl
  | error fault => rw [move_answer_error hs hholder hpending hcalls hpast]; rfl

/-- After its turn the query longest under way has returned, whatever the journal replied. -/
theorem Sound.pending_turn (hs : d.Sound) (hpending : d.pending = q :: rest)
    (replies : Query → FetchReply) : (d.run (turn replies q)).pending = rest := by
  change ((d.move (.resume q.ticket)).move (.answer q.ticket (replies q))).pending = rest
  have hresumed := (step_move hs (m := .resume q.ticket) trivial).sound hs
  cases hholder : d.cache.right.holder with
  | none => rw [hs.pending_of_free hholder] at hpending; cases hpending
  | some held =>
      cases held with
      | fetching f =>
          rw [move_resume_of_fetching hholder]
          exact hs.pending_answer hholder hpending _
      | passedTo w =>
          obtain ⟨p, rest', hpending', hp, -⟩ := hs.pending_of_holder hholder
          obtain ⟨rfl, rfl⟩ := List.cons.inj (hpending.symm.trans hpending')
          obtain rfl : q.waiter = w := hp
          rcases d.cache.lt_or_covered q.requested with ⟨low, hlow, hlt⟩ | hcovered
          · rw [move_resume_of_lt hholder hpending hlow hlt] at hresumed ⊢
            exact hresumed.pending_answer rfl rfl _
          · rw [move_resume_of_covered hs hholder hpending hcovered] at hresumed ⊢
            rw [hresumed.move_answer_of_not_fetching fun f => FetchRight.holder_passOn_ne _ f]
            rfl

theorem Sound.pending_turns (hs : d.Sound) (replies : Query → FetchReply) :
    (d.run (d.pending.flatMap (turn replies))).pending = [] := by
  generalize hpending : d.pending = ps
  induction ps generalizing d with
  | nil => exact hpending
  | cons q rest ih =>
      have hrun : (d.run (turn replies q)).Sound := hs.run ⟨trivial, trivial, trivial⟩
      rw [List.flatMap_cons, run_append]
      exact ih hrun (hs.pending_turn hpending replies)

/-! ## What was promised holds -/

variable {asking answering : List Move}

/-- While the queries are called, those that have been called have come to no more than their
calls. -/
theorem Queued.backfilled {pre post : List Move} (h : c.Queued qs (pre ++ post) answering)
    (hs : c.Sound) (hlow : c.lowest? = some low) (hpending : c.pending = []) :
    c.Backfilled low (pre.filterMap Move.asked?) [] (c.run pre) := by
  have hallows := (allowsAll_append.1 (allowsAll_append.1 h.allows).1).1
  have hanswer : ∀ m ∈ pre, m.isAnswer = false := fun m hm =>
    h.answersLast m (List.mem_append_left _ hm)
  have hpatient : ∀ m ∈ pre, m.cutsShort = false := fun m hm =>
    h.patient m (List.mem_append_left _ (List.mem_append_left _ hm))
  have hsteady : ∀ s ∈ c.strides pre, s.isSteady := by
    intro s hmem
    apply h.steady
    rw [strides_append, strides_append]
    exact List.mem_append_left _ (List.mem_append_left _ hmem)
  have hpassed : ∀ w, c.cache.right.holder ≠ some (.passedTo w) := by
    simp [hs.holder_of_pending_nil hpending]
  have hrun := (Backfilled.start hs hlow hpending).run_asking hs hpassed hallows hanswer hpatient
    hsteady
  rwa [List.nil_append] at hrun

variable {number : Nat} {settings : Settings} {registry : Registry}

/-- Queries that are called before the journal answers any of them fetch exactly what is missing
below the minimum of what was covered and what those before them fetched. One whose offset is
covered when it is called returns at once and touches nothing else, and all return, whatever the
journal replies. -/
theorem queued_backfills (h : Reachable number settings registry c) (hlow : c.lowest? = some low)
    (hpending : c.pending = []) (hqueued : c.Queued qs asking answering) :
    (∃ fates, c.Backfilled low qs fates (c.run (asking ++ answering))) ∧
      (∀ pre q post, asking = pre ++ .ask q :: post → low ≤ q.requested →
        (c.run pre).move (.ask q) = { c.run pre with
          deeds := (c.run pre).deeds ++
            [.returned q none (.ok ((c.run pre).cache.queue q.agent))] }) ∧
      ∀ replies, ((c.run (asking ++ answering)).run
        ((c.run (asking ++ answering)).pending.flatMap (turn replies))).pending = [] := by
  obtain ⟨hasking, hanswering⟩ := allowsAll_append.1 hqueued.allows
  refine ⟨?_, ?_, (h.sound.run hqueued.allows).pending_turns⟩
  · have hcalled : c.Backfilled low qs [] (c.run asking) := by
      rw [← List.append_nil asking] at hqueued
      rw [← hqueued.asked, List.append_nil]
      exact hqueued.backfilled h.sound hlow hpending
    have hsteady := hqueued.steady
    have hinside := hqueued.inside
    rw [strides_append, List.forall_mem_append] at hsteady hinside
    rw [run_append]
    exact hcalled.run_answering (h.sound.run hasking) hanswering hqueued.asksFirst
      (fun m hm => hqueued.patient m (List.mem_append_right _ hm)) hsteady.2 hinside.2
  · rintro pre q post rfl hq
    obtain ⟨hpre, hallowed, -⟩ := allowsAll_append.1 hasking
    have hcalled := hqueued.backfilled h.sound hlow hpending
    exact move_ask_atOnce (h.sound.run hpre) hallowed (.covered hcalled.lowest hq)

/-- All from 10 on is covered. -/
def seeded : Course := (start 0 .standard .empty).run [.deliver (Sample.marker .zero 10), .handle]

/-- The second is covered from the start. -/
def backlog : List Query :=
  [⟨1, "a", 5⟩, ⟨2, "b", 12⟩, ⟨3, "a", 7⟩, ⟨4, "b", 3⟩, ⟨5, "a", 2⟩, ⟨6, "b", 4⟩]

/-- A record of the tail is handled while the queries wait. -/
def backlogAsking : List Move :=
  backlog.map .ask ++ [.deliver (.message (Sample.message .zero 11 "a" .test)), .handle]

/-- The first query fetches; the third finds its offset covered; the fourth fetches in vain; so the
fifth fetches up to where the fourth would have, and the sixth finds its offset covered. -/
def backlogAnswering : List Move :=
  [.answer 1 (.ok (Sample.messages .zero "a" [5, 7])), .resume 3, .resume 4,
    .answer 4 (.error (.fetchFailed 3 5 "unavailable")), .resume 5, .answer 5 (.ok []), .resume 6]

theorem queued_backfills_backlog :
    seeded.Queued backlog backlogAsking backlogAnswering ∧
      (∃ fates, seeded.Backfilled 10 backlog fates
        (seeded.run (backlogAsking ++ backlogAnswering))) ∧
      (seeded.run (backlogAsking ++ backlogAnswering)).calls.map (·.fetch) =
        [⟨1, 5, 10⟩, ⟨4, 3, 5⟩, ⟨5, 2, 5⟩] ∧
      (seeded.run (backlogAsking ++ backlogAnswering)).lowest? = some 2 := by
  have hqueued : seeded.Queued backlog backlogAsking backlogAnswering :=
    ⟨by decide, by decide, by decide, by decide, by decide, by decide, by decide⟩
  have hseeded : Reachable 0 .standard .empty seeded := Reachable.start.run (by decide)
  exact ⟨hqueued, (queued_backfills hseeded (by decide) rfl hqueued).1, by decide, by decide⟩

end Course

end JournalCache

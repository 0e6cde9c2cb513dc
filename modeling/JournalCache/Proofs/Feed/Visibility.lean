import JournalCache.Journal.Sample
import JournalCache.Proofs.Feed.Order

/-!
# What a cache shows of its journal

Once a cache has met a record, its queues show exactly what the log has from the lowest mark up to
the record handled last: each message once, without test messages, and nothing else. A move either
leaves that stretch of the log and the queues as they are, or it merges the very messages by which
the stretch grows (`Feed.Merges`): at its upper end the record that tail ingestion handles, at its
lower end the answer of a fetch, which ends where the lowest mark stands.
-/

namespace JournalCache

namespace Feed

/-! ## What is promised -/

/-- The messages that a move merges into the queues. -/
def merged (f : Feed) : FeedMove → List Message
  | .take .handle =>
    match f.course.cache.inbox with
    | [] => []
    | r :: _ => if f.course.cache.isFollowing && !f.course.cache.isShutDown then r.batch else []
  | .reply =>
    match f.course.cache.right.holder with
    | some (.fetching g) => if f.journal.failsFetches then [] else f.journal.range g.first g.upTo
    | _ => []
  | _ => []

/-- A listener told of some messages of a batch, the agents told so far being `agents`, finds the
marks as they were and, besides what was there, the messages of those agents. -/
structure Finds (before : Holdings) (batch : List Message) (agents : List String) (n : Notice) :
    Prop where
  messages : n.messages = Message.ofAgent n.agent batch
  coverage : n.holdings.coverage = before.coverage
  items : ∀ agent o i, (n.holdings.table.queue agent).get? o = some i ↔
    (before.table.queue agent).get? o = some i ∨
      agent ∈ agents ∧ ∃ m ∈ batch, m.agent = agent ∧ m.offset = o ∧ Item.ofMessage m = i
  agents : ∀ agent, agent ∈ n.holdings.table.agents ↔ agent ∈ before.table.agents ∨ agent ∈ agents

/-- The queues of a cache show what its journal has. -/
structure Visible (f : Feed) : Prop where
  unseeded : f.course.lowest? = none → f.course.cache.holdings.table.agents = []
  /-- The queue of every agent lists what the log has of it from the lowest mark to the record
  handled last, and the agents are those of whom the log has something there. -/
  seeded : ∀ low, f.course.lowest? = some low → ∃ last, f.course.handled.getLast? = some last ∧
    (∀ agent, (f.course.cache.queue agent).entries = f.journal.items low last.offset agent) ∧
    f.course.cache.holdings.table.agents.Pairwise (· < ·) ∧
    ∀ agent, agent ∈ f.course.cache.holdings.table.agents ↔
      f.journal.items low last.offset agent ≠ []
  /-- A move tells the listener once of each agent of what it merges, and the listener finds those
  told so far. -/
  told : ∀ m, f.Allows m → ∃ told, (f.move m).course.outlet.notices =
      f.course.outlet.notices ++ told ∧
    told.map (·.agent) = Message.agents (Message.shown (f.merged m)) ∧
    ∀ k n, told[k]? = some n → Finds f.course.cache.holdings (Message.shown (f.merged m))
      ((told.take (k + 1)).map (·.agent)) n

/-! ## The stretch of the log that is shown -/

/-- The log has the message between the lowest mark and the record handled last, and it is no test
message. -/
def Shows (f : Feed) (m : Message) : Prop :=
  f.journal.log.get? m.offset = some m ∧ m.isTest = false ∧ f.course.lowMark ≤ m.offset ∧
    ∃ last, f.course.handled.getLast? = some last ∧ m.offset ≤ last.offset

/-- The queues have what is shown. -/
structure Faithful (f : Feed) : Prop where
  items : ∀ agent o i, (f.course.cache.queue agent).get? o = some i ↔
    ∃ m, f.Shows m ∧ m.agent = agent ∧ m.offset = o ∧ Item.ofMessage m = i
  agents : ∀ agent, (f.course.cache.holdings.table.queue? agent).isSome ↔
    ∃ m, f.Shows m ∧ m.agent = agent

/-- The feed `g` shows what `f` does and a batch besides, which was merged into its queues. -/
structure Merges (f g : Feed) (batch : List Message) : Prop where
  queues : ∀ agent, g.course.cache.holdings.table.queue? agent =
    (f.course.cache.holdings.merge f.course.outlet batch).1.table.queue? agent
  notices : g.course.outlet.notices =
    (f.course.cache.holdings.merge f.course.outlet batch).2.notices
  shows : ∀ m, g.Shows m ↔ f.Shows m ∨ m ∈ Message.shown batch
  nodup : (batch.map (·.offset)).Nodup
  fresh : ∀ m ∈ batch, ∀ n, f.Shows n → n.offset ≠ m.offset

variable {f g : Feed} {batch : List Message}

theorem Faithful.fresh (hf : f.Faithful) (h : Merges f g batch) :
    ∀ m ∈ batch, (f.course.cache.queue m.agent).get? m.offset = none := by
  intro m hm
  cases hget : (f.course.cache.queue m.agent).get? m.offset with
  | none => rfl
  | some i =>
      obtain ⟨n, hn, -, hoffset, -⟩ := (hf.items _ _ _).1 hget
      exact absurd hoffset (h.fresh m hm n hn)

theorem Merges.faithful (h : Merges f g batch) (hf : f.Faithful) : g.Faithful where
  items := by
    intro agent o i
    have hqueue : g.course.cache.queue agent =
        (f.course.cache.holdings.merge f.course.outlet batch).1.table.queue agent := by
      rw [AgentTable.queue_eq, ← h.queues]
      rfl
    rw [hqueue, Holdings.get?_merge _ _ h.nodup (hf.fresh h)]
    simp only [h.shows, or_and_right, exists_or]
    exact or_congr (hf.items agent o i) Iff.rfl
  agents := by
    intro agent
    rw [h.queues, Holdings.isSome_queue?_merge, hf.agents]
    simp only [h.shows, or_and_right, exists_or]

/-- Nothing is merged where neither the queues nor the stretch that is shown change. -/
theorem Merges.nothing
    (hqueues : ∀ agent, g.course.cache.holdings.table.queue? agent =
      f.course.cache.holdings.table.queue? agent)
    (hnotices : g.course.outlet.notices = f.course.outlet.notices)
    (hmark : g.course.lowMark = f.course.lowMark) (hhandled : g.course.handled = f.course.handled)
    (hlog : ∀ o last, f.course.lowMark ≤ o → f.course.handled.getLast? = some last →
      o ≤ last.offset → g.journal.log.get? o = f.journal.log.get? o) :
    Merges f g [] where
  queues := hqueues
  notices := hnotices
  shows := by
    intro m
    have hnone : m ∉ Message.shown [] := List.not_mem_nil
    simp only [hnone, or_false, Shows, hmark, hhandled]
    constructor
    · intro h
      rcases h with ⟨hget, htest, hlow, last, hlast, hle⟩
      exact ⟨hlog _ _ hlow hlast hle ▸ hget, htest, hlow, last, hlast, hle⟩
    · intro h
      rcases h with ⟨hget, htest, hlow, last, hlast, hle⟩
      exact ⟨(hlog _ _ hlow hlast hle).trans hget, htest, hlow, last, hlast, hle⟩
  nodup := .nil
  fresh := by simp

/-! ## Where nothing is merged -/

variable {history : List Message} {number : Nat} {settings : Settings} {registry : Registry}

/-- A step of the cache that handles nothing and is not the answer of a fetch merges nothing. -/
theorem Merges.quiet {m : Move} {d : Course} (hstep : f.course.Step m d) (hhandle : m ≠ .handle)
    (hanswer : ∀ ticket batch, m ≠ .answer ticket (.ok batch)) {j : Journal}
    (hlog : j.log = f.journal.log) (line : List Delivery) :
    Merges f { f with journal := j, course := d, line } [] := by
  obtain ⟨hhandled, hmark, hqueues, hnotices⟩ := hstep.quiet hhandle hanswer
  exact .nothing hqueues hnotices hmark hhandled fun _ _ _ _ _ => by rw [hlog]

theorem Ordered.last_mem (hf : f.Ordered) {last : Delivery}
    (hlast : f.course.handled.getLast? = some last) : last ∈ f.published :=
  hf.handled.subset (List.mem_of_getLast? hlast)

theorem Merges.publish (hf : f.Ordered) {r : Delivery} (hr : f.Allows (.publish r)) :
    Merges f (f.move (.publish r)) [] := by
  refine .nothing (fun _ => rfl) rfl rfl rfl fun o last _ hlast hle => ?_
  have hlt : last.offset < r.offset := hr.2.1 _ (hf.last_mem hlast)
  change (f.journal.keep r).log.get? o = _
  rw [Journal.keep_eq, Journal.get?_store_of_notMem]
  intro n hn hoffset
  obtain rfl := Delivery.mem_batch.1 hn
  rw [← hoffset] at hle
  exact Std.not_lt.2 hle hlt

theorem Ordered.lowest?_of_last (hf : f.Ordered)
    (hc : Course.Reachable number settings registry f.course) {last : Delivery}
    (hlast : f.course.handled.getLast? = some last) : f.course.lowest? = some f.course.lowMark := by
  rw [Course.lowest?_eq_some]
  refine ⟨rfl, fun hmark => ?_⟩
  have hle := hc.lowMark_le_handled (List.mem_of_getLast? hlast)
  rw [hmark] at hle
  exact hf.unreserved _ (hf.last_mem hlast) (Std.le_antisymm (le_reservedOffset _) hle)

theorem Merges.store (hf : f.Ordered) (hc : Course.Reachable number settings registry f.course)
    {ms : List Message} (hms : f.Allows (.store ms)) : Merges f (f.move (.store ms)) [] := by
  refine .nothing (fun _ => rfl) rfl rfl rfl fun o last hlow hlast _ => ?_
  change (f.journal.store ms).log.get? o = _
  rw [Journal.get?_store_of_notMem]
  intro n hn hoffset
  have hlt : n.offset < f.course.lowMark := by
    simpa [isHistory, historyEnd?, hf.lowest?_of_last hc hlast] using hms n hn
  rw [hoffset] at hlt
  exact Std.not_lt.2 hlow hlt

/-! ## The stretch grows at its upper end -/

/-- What was published below the next record was handled. -/
theorem mem_handled_of_lt {rs published : List Delivery} {r p : Delivery}
    (hfirst : rs ++ [r] <+: published) (hinc : (published.map (·.offset)).Pairwise (· < ·))
    (hp : p ∈ published) (hlt : p.offset < r.offset) : p ∈ rs := by
  rcases hfirst with ⟨later, rfl⟩
  rw [List.map_append, List.pairwise_append] at hinc
  have hmem : p ∈ rs ∨ p = r ∨ p ∈ later := by simpa [or_assoc] using hp
  rcases hmem with hmem | rfl | hmem
  · exact hmem
  · exact absurd hlt Std.lt_irrefl
  · have habove := hinc.2.2 r.offset (by simp) p.offset (List.mem_map_of_mem hmem)
    exact absurd (Std.lt_trans hlt habove) Std.lt_irrefl

theorem le_getLast {rs : List Delivery} {p last : Delivery}
    (hinc : (rs.map (·.offset)).Pairwise (· < ·)) (hp : p ∈ rs) (hlast : rs.getLast? = some last) :
    p.offset ≤ last.offset := by
  obtain ⟨before, rfl⟩ := List.getLast?_eq_some_iff.1 hlast
  rw [List.map_append, List.pairwise_append] at hinc
  rcases List.mem_append.1 hp with hp | hp
  · exact Std.le_of_lt (hinc.2.2 _ (List.mem_map_of_mem hp) _ (by simp))
  · rw [List.mem_singleton.1 hp]
    exact Std.le_refl _

theorem Ordered.eq_of_offset_eq (hf : f.Ordered) {r p : Delivery} (hr : r ∈ f.published)
    (hp : p ∈ f.published) (h : r.offset = p.offset) : r = p := by
  have hnodup : (f.published.map (·.offset)).Nodup := by
    apply hf.increasing.imp
    intro a b hlt heq
    exact Std.lt_irrefl (heq ▸ hlt)
  exact List.inj_on_of_nodup_map hnodup hr hp h

section TakeIn

variable {r : Delivery} {rs : List Delivery}

theorem Ordered.handled_concat (hf : f.Ordered) (hinbox : f.course.cache.inbox = r :: rs)
    (hfollowing : f.course.cache.isFollowing) : f.course.handled ++ [r] <+: f.published := by
  have htail := hf.following hfollowing
  rw [tail, hinbox] at htail
  refine List.IsPrefix.trans ⟨rs ++ f.line, ?_⟩ htail
  simp

theorem Ordered.lt_of_handled (hf : f.Ordered) (hinbox : f.course.cache.inbox = r :: rs)
    (hfollowing : f.course.cache.isFollowing) {p : Delivery} (hp : p ∈ f.course.handled) :
    p.offset < r.offset := by
  obtain ⟨later, hlater⟩ := hf.handled_concat hinbox hfollowing
  have hinc := hf.increasing
  rw [← hlater, List.map_append, List.map_append, List.pairwise_append,
    List.pairwise_append] at hinc
  exact hinc.1.2.2 _ (List.mem_map_of_mem hp) _ (by simp)

/-- Below the next record the log has nothing more than up to the record handled last. -/
theorem Ordered.shows_of_lt (hf : f.Ordered)
    (hc : Course.Reachable number settings registry f.course)
    (hinbox : f.course.cache.inbox = r :: rs) (hfollowing : f.course.cache.isFollowing)
    {m : Message} (hget : f.journal.log.get? m.offset = some m) (htest : m.isTest = false)
    (hlow : min f.course.lowMark r.offset ≤ m.offset) (hlt : m.offset < r.offset) : f.Shows m := by
  have hlow : f.course.lowMark ≤ m.offset := by
    rcases Std.min_le.1 hlow with hlow | hle
    · exact hlow
    · exact absurd hlt (Std.not_lt.2 hle)
  cases hlast : f.course.handled.getLast? with
  | none =>
      have hmark := (hc.of_handled_nil (List.getLast?_eq_none_iff.1 hlast)).1
      rw [hmark] at hlow
      exact absurd hlt (Std.not_lt.2 (Std.le_trans (le_reservedOffset _) hlow))
  | some last =>
      refine ⟨hget, htest, hlow, last, hlast, ?_⟩
      rcases hf.history _ _ hget with hmem | hbelow
      · have hhandled := mem_handled_of_lt (hf.handled_concat hinbox hfollowing) hf.increasing
          hmem hlt
        exact le_getLast hf.tailIncreases hhandled hlast
      · exact Std.le_of_lt (hbelow _ (hf.last_mem hlast))

theorem Merges.takeIn (hf : f.Ordered) (hc : Course.Reachable number settings registry f.course)
    (hinbox : f.course.cache.inbox = r :: rs) (hfollowing : f.course.cache.isFollowing) :
    Merges f { f with course := f.course.takeIn r rs } r.batch where
  queues := by
    intro agent
    have htable := (Holdings.table_ingest f.course.cache.holdings f.course.outlet r).1
    exact congrArg (·.queue? agent) htable
  notices := congrArg (·.notices) (Holdings.table_ingest _ _ r).2
  shows := by
    intro m
    have hr : r ∈ f.published :=
      (hf.handled_concat hinbox hfollowing).subset (List.mem_append_right _ (by simp))
    have hshows : ({ f with course := f.course.takeIn r rs } : Feed).Shows m ↔
        f.journal.log.get? m.offset = some m ∧ m.isTest = false ∧
          min f.course.lowMark r.offset ≤ m.offset ∧ m.offset ≤ r.offset := by
      simp [Shows, Course.handled_takeIn, Course.lowMark_takeIn]
    rw [hshows]
    constructor
    · intro h
      rcases h with ⟨hget, htest, hlow, hhigh⟩
      by_cases hlt : m.offset < r.offset
      · exact .inl (hf.shows_of_lt hc hinbox hfollowing hget htest hlow hlt)
      · have hoffset : r.offset = m.offset := Std.le_antisymm (Std.not_lt.1 hlt) hhigh
        rcases hf.history _ _ hget with hmem | hbelow
        · have heq := hf.eq_of_offset_eq hr hmem hoffset
          exact .inr (Message.mem_shown.2 ⟨Delivery.mem_batch.2 heq, htest⟩)
        · exact absurd (hbelow r hr) hlt
    · rintro (⟨hget, htest, hlow, last, hlast, hle⟩ | hm)
      · have hlt := hf.lt_of_handled hinbox hfollowing (List.mem_of_getLast? hlast)
        exact ⟨hget, htest, Std.min_le.2 (.inl hlow), Std.le_trans hle (Std.le_of_lt hlt)⟩
      · obtain ⟨hbatch, htest⟩ := Message.mem_shown.1 hm
        obtain rfl := Delivery.mem_batch.1 hbatch
        exact ⟨hf.stored m hr, htest, Std.min_le.2 (.inr (Std.le_refl _)), Std.le_refl _⟩
  nodup := by cases r <;> simp [Delivery.batch]
  fresh := by
    rintro m hm n ⟨-, -, -, last, hlast, hle⟩ hoffset
    obtain rfl := Delivery.mem_batch.1 hm
    have hlt : last.offset < m.offset :=
      hf.lt_of_handled hinbox hfollowing (List.mem_of_getLast? hlast)
    rw [hoffset] at hle
    exact Std.not_lt.2 hle hlt

end TakeIn

/-! ## The stretch grows at its lower end -/

/-- The answer of a fetch has all that the log has between the start of the range and the lowest
mark. -/
theorem Merges.succeed (hf : f.Ordered) (hc : Course.Reachable number settings registry f.course)
    {q : Query} {rest : List Query} {upTo : Offset} {past : List Call}
    (hcalls : f.course.calls = past ++ [⟨⟨q.ticket, q.requested, upTo⟩, .outstanding⟩]) :
    Merges f
      { f with
        course := f.course.succeed q rest upTo past (f.journal.range q.requested upTo) }
      (f.journal.range q.requested upTo) := by
  have hmem : (⟨⟨q.ticket, q.requested, upTo⟩, .outstanding⟩ : Call) ∈ f.course.calls := by
    simp [hcalls]
  have hlt : q.requested < upTo := hc.descending.nonempty _ hmem
  obtain rfl : upTo = f.course.lowMark := hc.upTo_eq_lowMark hf.tailIncreases _ hmem rfl
  have hmark : (f.course.succeed q rest f.course.lowMark past
      (f.journal.range q.requested f.course.lowMark)).lowMark = q.requested :=
    Course.lowMark_succeed hlt fun m hm => (hf.keyed.mem_range.1 hm).2.1
  have hnil : f.course.handled ≠ [] := by
    intro hnil
    rw [(hc.of_handled_nil hnil).2.1] at hmem
    cases hmem
  have hlast := List.getLast?_eq_some_getLast hnil
  have hhandled : (f.course.succeed q rest f.course.lowMark past
      (f.journal.range q.requested f.course.lowMark)).handled = f.course.handled := by
    simp [Course.handled, Course.succeed]
  refine
    { queues := fun _ => rfl
      notices := rfl
      shows := ?_
      nodup := hf.keyed.nodup_range _ _
      fresh := ?_ }
  · intro m
    simp only [Shows, hmark, hhandled, Message.mem_shown, hf.keyed.mem_range]
    constructor
    · intro h
      rcases h with ⟨hget, htest, hlow, hhigh⟩
      by_cases hbelow : m.offset < f.course.lowMark
      · exact .inr ⟨⟨hget, hlow, hbelow⟩, htest⟩
      · exact .inl ⟨hget, htest, Std.not_lt.1 hbelow, hhigh⟩
    · rintro (⟨hget, htest, hlow, hhigh⟩ | ⟨⟨hget, hlow, hbelow⟩, htest⟩)
      · exact ⟨hget, htest, Std.le_trans (Std.le_of_lt hlt) hlow, hhigh⟩
      · have hle := hc.lowMark_le_handled (List.getLast_mem hnil)
        exact ⟨hget, htest, hlow, _, hlast, Std.le_trans (Std.le_of_lt hbelow) hle⟩
  · rintro m hm n ⟨-, -, hlow, -⟩ hoffset
    rw [hoffset] at hlow
    exact Std.not_lt.2 hlow (hf.keyed.mem_range.1 hm).2.2

/-! ## Every move -/

theorem Merges.refl (f : Feed) : Merges f f [] :=
  .nothing (fun _ => rfl) rfl rfl rfl fun _ _ _ _ _ => rfl

theorem merges_handle (hf : f.Ordered)
    (hc : Course.Reachable number settings registry f.course) :
    Merges f (f.move (.take .handle)) (f.merged (.take .handle)) := by
  cases hinbox : f.course.cache.inbox with
  | nil =>
      have hmove := Course.move_handle_of_not (.inl hinbox)
      rw [merged, hinbox, move, hmove]
      exact .refl f
  | cons r rs =>
      rw [merged, hinbox, move]
      dsimp only
      cases hruns : f.course.cache.isFollowing && !f.course.cache.isShutDown with
      | false =>
          rw [Course.move_handle_of_not (.inr hruns)]
          exact .refl f
      | true =>
          obtain ⟨hfollowing, hnotShutDown⟩ := Bool.and_eq_true_iff.1 hruns
          rw [Bool.not_eq_true'] at hnotShutDown
          rw [if_pos rfl, Course.move_handle hinbox hfollowing hnotShutDown]
          exact .takeIn hf hc hinbox hfollowing

theorem merges_reply (hf : f.Ordered)
    (hc : Course.Reachable number settings registry f.course) :
    Merges f (f.move .reply) (f.merged .reply) := by
  rw [merged, move]
  cases hholder : f.course.cache.right.holder with
  | none => exact .refl f
  | some h =>
      cases h with
      | passedTo w => exact .refl f
      | fetching g =>
          dsimp only
          obtain ⟨q, rest, past, hg, hpending, hcalls, hpast⟩ := hc.sound.fetching hholder
          cases hfails : f.journal.failsFetches with
          | true =>
              have hanswer : f.journal.answer g.first g.upTo =
                  .error (.fetchFailed g.first g.upTo "injected failure") := by
                rw [Journal.answer, if_pos hfails]
              rw [hanswer, if_pos rfl]
              exact .quiet (Course.step_answer hc.sound _ _) (by simp) (by simp) rfl f.line
          | false =>
              have hanswer : f.journal.answer g.first g.upTo =
                  .ok (f.journal.range g.first g.upTo) := by
                rw [Journal.answer, if_neg (by simp [hfails])]
                rfl
              rw [hanswer, if_neg Bool.false_ne_true]
              rw [hg] at hholder hcalls ⊢
              rw [Course.move_answer_ok hc.sound hholder hpending hcalls hpast]
              exact .succeed hf hc hcalls

/-- Every move merges what the stretch grows by. -/
theorem Reachable.merges (h : Reachable history number settings registry f) {m : FeedMove}
    (hm : f.Allows m) : Merges f (f.move m) (f.merged m) := by
  have hf := h.ordered
  have hc := h.course
  cases m with
  | publish r => exact .publish hf hm
  | store ms => exact .store hf hc hm
  | reply => exact merges_reply hf hc
  | failFetches on =>
      exact .quiet (f := f) (j := { f.journal with failsFetches := on }) (.stays .shutDown)
        (by simp) (by simp) rfl f.line
  | shutDown =>
      refine .quiet .shutsDown (by simp) (by simp) ?_ f.line
      split <;> rfl
  | letIn =>
      rw [Feed.move]
      change Merges f _ []
      split
      · exact .refl f
      · next r rs hline =>
        split
        · exact .quiet (.delivers r) (by simp) (by simp) rfl rs
        · exact .quiet (.stays .shutDown) (by simp) (by simp) rfl rs
  | take m =>
      by_cases hhandle : m = .handle
      · rw [hhandle]
        exact merges_handle hf hc
      · have hnone : f.merged (.take m) = [] := by
          cases m with
          | handle => exact absurd rfl hhandle
          | _ => rfl
        rw [hnone]
        refine .quiet (Course.step_move hc.sound hm.2) hhandle ?_ rfl f.line
        rintro t batch rfl
        exact absurd hm.1 (by simp [Move.isOwn])

theorem faithful_start : (start history number settings registry).Faithful where
  items := by
    intro agent o i
    constructor
    · intro hget
      cases hget
    · intro h
      rcases h with ⟨m, ⟨-, -, -, last, hlast, -⟩, -⟩
      cases hlast
  agents := by
    intro agent
    constructor
    · intro hsome
      cases hsome
    · intro h
      rcases h with ⟨m, ⟨-, -, -, last, hlast, -⟩, -⟩
      cases hlast

theorem Reachable.faithful (h : Reachable history number settings registry f) : f.Faithful := by
  induction h with
  | start => exact faithful_start
  | move hf hm ih => exact (hf.merges hm).faithful ih

theorem Shows.mem_items (hf : f.Ordered) {low : Offset} {last : Delivery} {agent : String}
    {e : Offset × Item} (hlow : f.course.lowest? = some low)
    (hlast : f.course.handled.getLast? = some last) :
    e ∈ f.journal.items low last.offset agent ↔
      ∃ m, f.Shows m ∧ m.agent = agent ∧ (m.offset, Item.ofMessage m) = e := by
  rw [hf.keyed.mem_items, ← (Course.lowest?_eq_some.1 hlow).1]
  constructor
  · intro h
    rcases h with ⟨m, hget, htest, hle, hhigh, hagent, he⟩
    exact ⟨m, ⟨hget, htest, hle, last, hlast, hhigh⟩, hagent, he⟩
  · intro h
    rcases h with ⟨m, ⟨hget, htest, hle, last', hlast', hhigh⟩, hagent, he⟩
    obtain rfl : last = last' := Option.some.inj (hlast.symm.trans hlast')
    exact ⟨m, hget, htest, hle, hhigh, hagent, he⟩

/-- The listener finds what was merged up to its turn. -/
theorem Reachable.told (h : Reachable history number settings registry f) {m : FeedMove}
    (hm : f.Allows m) : ∃ told, (f.move m).course.outlet.notices =
      f.course.outlet.notices ++ told ∧
    told.map (·.agent) = Message.agents (Message.shown (f.merged m)) ∧
    ∀ k n, told[k]? = some n → Finds f.course.cache.holdings (Message.shown (f.merged m))
      ((told.take (k + 1)).map (·.agent)) n := by
  have hmerges := h.merges hm
  have hfresh := h.faithful.fresh hmerges
  have hagents : (Holdings.noticesOf (f.course.cache.holdings, f.course.outlet)
      (Message.groups (Message.shown (f.merged m)))).map (·.agent) =
      Message.agents (Message.shown (f.merged m)) := by
    rw [Holdings.map_agent_noticesOf, Message.map_fst_groups]
  refine ⟨_, hmerges.notices.trans (Holdings.notices_merge _ _ _), hagents, fun k n hn => ?_⟩
  rw [List.map_take, hagents]
  rw [Holdings.getElem?_noticesOf, Option.map_eq_some_iff] at hn
  rcases hn with ⟨group, hgroup, rfl⟩
  have hmem := Message.mem_groups.1 (List.mem_of_getElem? hgroup)
  refine
    { messages := hmem.2
      coverage := Holdings.coverage_mergeGroups _ _
      items := fun agent o i => ?_
      agents := fun agent => ?_ }
  · exact Holdings.get?_take_groups (f.course.cache.holdings, f.course.outlet)
      (Message.nodup_shown hmerges.nodup) fun m hm => hfresh m (Message.mem_shown.1 hm).1
  · change agent ∈ AgentTable.agents (Holdings.table (Holdings.mergeGroups _ _).1) ↔ _
    rw [AgentTable.mem_agents, AgentTable.mem_agents, Holdings.queue?_take_groups]
    by_cases htold : agent ∈ (Message.agents (Message.shown (f.merged m))).take (k + 1)
    · simp [htold]
    · simp [htold]

/-- In every state, whatever was published, handled, fetched, given up and closed in whatever order,
the queues show exactly what the journal has between the lowest mark and the record handled last. -/
theorem visible (h : Reachable history number settings registry f) : f.Visible where
  unseeded := by
    intro hlow
    have hf := h.ordered
    rw [List.eq_nil_iff_forall_not_mem]
    intro agent hagent
    obtain ⟨m, ⟨-, -, -, last, hlast, -⟩, -⟩ :=
      (h.faithful.agents agent).1 (AgentTable.mem_agents.1 hagent)
    have hsome := hf.lowest?_of_last h.course hlast
    rw [hlow] at hsome
    cases hsome
  seeded := by
    intro low hlow
    have hf := h.ordered
    obtain ⟨hmark, hne⟩ := Course.lowest?_eq_some.1 hlow
    have hnil : f.course.handled ≠ [] :=
      fun hnil => hne (hmark.symm.trans (h.course.of_handled_nil hnil).1)
    have hlast := List.getLast?_eq_some_getLast hnil
    refine ⟨_, hlast, fun agent => ?_, ?_, fun agent => ?_⟩
    · apply Journal.entries_eq_items
      intro o i
      rw [h.faithful.items, Shows.mem_items hf hlow hlast]
      simp only [Prod.mk.injEq]
    · exact List.pairwise_map.2 f.course.cache.holdings.table.queues.increasing
    · rw [AgentTable.mem_agents, h.faithful.agents]
      constructor
      · intro hall
        rcases hall with ⟨m, hm, hagent⟩
        exact List.ne_nil_of_mem ((Shows.mem_items hf hlow hlast).2 ⟨m, hm, hagent, rfl⟩)
      · intro hitems
        obtain ⟨e, he⟩ := List.exists_mem_of_ne_nil _ hitems
        obtain ⟨m, hm, hagent, -⟩ := (Shows.mem_items hf hlow hlast).1 he
        exact ⟨m, hm, hagent⟩
  told := fun _ hm => h.told hm

/-- A query fetches what was stored before and beside the tail, while a record is published and
handled; another query fails. -/
def caughtUp : List FeedMove :=
  [.publish (.message (Sample.message .zero 10 "a" .add)), .letIn, .take .handle,
    .store (Sample.messages .zero "b" [7]), .take (.ask ⟨1, "a", 5⟩), .take (.ask ⟨2, "a", 3⟩),
    .publish (.message (Sample.message .zero 12 "b" .add)), .letIn, .take .handle, .reply,
    .failFetches true, .take (.resume 2), .reply, .shutDown]

theorem visible_caughtUp :
    ((start (Sample.messages .zero "a" [3, 5, 6]) 0 .standard .empty).run caughtUp).Visible ∧
      (((start (Sample.messages .zero "a" [3, 5, 6]) 0 .standard .empty).run
        caughtUp).course.cache.queue "a").keys = [5, 6, 10] :=
  ⟨visible (Reachable.start.run (by decide)), by decide⟩

end Feed

end JournalCache

import JournalCache.Proofs.Course.Outcome

/-!
# What the counters tell

A query that finds its offset not covered stands in line for the right to fetch until it is counted:
as one that fetches, as one that found its offset covered after all, or as one that waited too long.
Only a query that is given up while it stands in line is never counted. What one move does to the
line and to the counters is one of the five things that `Course.Tally` lists; that no query is
counted twice, and that none is forgotten, is read off it by adding up along a run.
-/

namespace JournalCache

namespace FetchRight

/-- The queries that stand in line for the right, longest first: the one to which it has passed and
that has not looked yet, and those who wait. -/
def line (r : FetchRight) : List Waiter :=
  match r.holder with
  | some (.passedTo w) => w :: r.waiting
  | _ => r.waiting

theorem line_of_passed {r : FetchRight} {w : Waiter} (h : r.holder = some (.passedTo w)) :
    r.line = w :: r.waiting := by
  rw [line, h]

theorem line_of_fetching {r : FetchRight} {f : Fetch} (h : r.holder = some (.fetching f)) :
    r.line = r.waiting := by
  rw [line, h]

theorem line_passOn (r : FetchRight) : r.passOn.line = r.waiting := by
  unfold passOn
  split
  · next h => rw [h]; rfl
  · next h => rw [h]; rfl

theorem line_concat {r : FetchRight} (w : Waiter) :
    { r with waiting := r.waiting ++ [w] }.line = r.line ++ [w] := by
  unfold line
  dsimp only
  split <;> rfl

theorem line_sublist_engaged (r : FetchRight) : r.line.Sublist r.engaged := by
  unfold line engaged
  split
  · next h => rw [h]; exact List.Sublist.refl _
  · exact List.sublist_append_right _ _

/-- Who leaves a line leaves the others in it. -/
theorem perm_cons_filter {ws : List Waiter} {w : Waiter} (hws : (ws.map (·.ticket)).Nodup)
    (hw : w ∈ ws) : ws.Perm (w :: ws.filter fun v => v.ticket != w.ticket) := by
  induction ws with
  | nil => cases hw
  | cons v ws ih =>
      rw [List.map_cons, List.nodup_cons] at hws
      rcases List.mem_cons.1 hw with rfl | hw
      · have hrest : (ws.filter fun v => v.ticket != w.ticket) = ws := by
          rw [List.filter_eq_self]
          intro v hv
          rw [bne_iff_ne]
          exact fun heq => hws.1 (List.mem_map.2 ⟨v, hv, heq⟩)
        rw [List.filter_cons_of_neg (by simp), hrest]
      · have hne : v.ticket ≠ w.ticket := fun heq => hws.1 (List.mem_map.2 ⟨w, hw, heq.symm⟩)
        rw [List.filter_cons_of_pos (by simpa using hne)]
        exact ((ih hws.2 hw).cons v).trans (.swap w v _)

end FetchRight

namespace Activity

/-- What queries counted, taken together. -/
def queries (a : Activity) : Nat := a.fetches + a.skipped + a.timeouts

theorem OneMore.queries_eq {a b : Activity} (h : a.OneMore b) : b.queries = a.queries + 1 := by
  rcases h with rfl | rfl | rfl <;> simp only [queries] <;> omega

end Activity

namespace Course

variable {c d : Course} {m : Move} {q : Query}

/-! ## What is counted along a run -/

def strides (c : Course) : List Move → List Stride
  | [] => []
  | m :: ms => ⟨c, m⟩ :: (c.move m).strides ms

theorem strides_append (c : Course) (ms ns : List Move) :
    c.strides (ms ++ ns) = c.strides ms ++ (c.run ms).strides ns := by
  induction ms generalizing c with
  | nil => rfl
  | cons m ms ih => rw [List.cons_append, strides, ih]; rfl

/-- Whether a query is called that finds the cache seeded and its offset not covered. -/
def Stride.isNeed (s : Stride) : Bool :=
  match s.move with
  | .ask q => s.before.lowest?.any fun low => q.requested < low
  | _ => false

/-- Whether a query is given up while it stands in line. -/
def Stride.isResignation (s : Stride) : Bool :=
  match s.move with
  | .withdraw ticket => s.before.cache.right.line.any fun w => w.ticket == ticket
  | _ => false

def inLine (c : Course) (ticket : Nat) : Nat :=
  c.cache.right.line.countP fun w => w.ticket == ticket

theorem Stride.isNeed_ask {q : Query} :
    Stride.isNeed ⟨c, .ask q⟩ ↔ ∃ low, c.lowest? = some low ∧ q.requested < low := by
  simp [Stride.isNeed, Option.any_eq_true]

/-- What a move does to the line of those who want the right, and to the counters. -/
inductive Tally (c : Course) (m : Move) (d : Course) : Prop where
  /-- A query that has to fetch joins the line. -/
  | joins {w : Waiter} (hticket : m.ticket? = some w.ticket) (hneed : Stride.isNeed ⟨c, m⟩ = true)
      (hresignation : Stride.isResignation ⟨c, m⟩ = false)
      (hline : d.cache.right.line.Perm (w :: c.cache.right.line))
      (hactivity : d.cache.activity = c.cache.activity)
  /-- A query that has to fetch finds the right free, and is counted. -/
  | fetchesAtOnce {ticket : Nat} (hticket : m.ticket? = some ticket)
      (hneed : Stride.isNeed ⟨c, m⟩ = true) (hresignation : Stride.isResignation ⟨c, m⟩ = false)
      (hline : d.cache.right.line = c.cache.right.line)
      (hmore : c.cache.activity.OneMore d.cache.activity)
  /-- A query leaves the line and is counted. -/
  | settles {w : Waiter} (hticket : m.ticket? = some w.ticket)
      (hneed : Stride.isNeed ⟨c, m⟩ = false) (hresignation : Stride.isResignation ⟨c, m⟩ = false)
      (hline : c.cache.right.line.Perm (w :: d.cache.right.line))
      (hmore : c.cache.activity.OneMore d.cache.activity)
  /-- A query leaves the line since it is given up. -/
  | resigns {w : Waiter} (hticket : m.ticket? = some w.ticket)
      (hneed : Stride.isNeed ⟨c, m⟩ = false) (hresignation : Stride.isResignation ⟨c, m⟩ = true)
      (hline : c.cache.right.line.Perm (w :: d.cache.right.line))
      (hactivity : d.cache.activity = c.cache.activity)
  | stays (hneed : Stride.isNeed ⟨c, m⟩ = false)
      (hresignation : Stride.isResignation ⟨c, m⟩ = false)
      (hline : d.cache.right.line = c.cache.right.line)
      (hactivity : m.ticket? ≠ none → d.cache.activity = c.cache.activity)
      (hrest : { d.cache.activity with handled := c.cache.activity.handled } = c.cache.activity)

/-! ## One move -/

namespace Sound

theorem nodup_line (hs : c.Sound) : (c.cache.right.line.map (·.ticket)).Nodup := by
  have hengaged : (c.cache.right.engaged.map (·.ticket)).Nodup := by
    rw [← hs.engaged, List.map_map]
    exact hs.nodup
  exact hengaged.sublist (c.cache.right.line_sublist_engaged.map _)

/-- Who stands in line is under way. -/
theorem exists_pending_of_line (hs : c.Sound) {w : Waiter} (hw : w ∈ c.cache.right.line) :
    ∃ q ∈ c.pending, q.waiter = w := by
  have hmem := c.cache.right.line_sublist_engaged.subset hw
  rw [← hs.engaged] at hmem
  exact List.mem_map.1 hmem

theorem tally_ask (hs : c.Sound) (hm : c.Allows (.ask q)) :
    c.Tally (.ask q) (c.move (.ask q)) := by
  cases hlow : c.lowest? with
  | none =>
      rw [move_ask_atOnce hs hm (.notReady hlow)]
      exact .stays (by simp [Stride.isNeed, hlow]) rfl rfl (fun _ => rfl) rfl
  | some low =>
      by_cases hq : low ≤ q.requested
      · rw [move_ask_atOnce hs hm (.covered hlow hq)]
        refine .stays ?_ rfl rfl (fun _ => rfl) rfl
        simpa [Stride.isNeed, hlow] using hq
      · have hlt : q.requested < low := Std.not_le.1 hq
        have hneed : Stride.isNeed ⟨c, .ask q⟩ := Stride.isNeed_ask.2 ⟨low, hlow, hlt⟩
        cases hholder : c.cache.right.holder with
        | none =>
            rw [move_ask_of_free hs hlow hlt hholder]
            refine .fetchesAtOnce rfl hneed rfl ?_ (oneMore_beginFetch c q [] low)
            rw [FetchRight.line_of_fetching (f := ⟨q.ticket, q.requested, low⟩) rfl,
              FetchRight.line, hholder]
            rfl
        | some h =>
            rw [move_ask (Cache.ask_of_held hlow hlt hholder), proceed]
            refine .joins (w := q.waiter) rfl hneed rfl ?_ rfl
            rw [FetchRight.line_concat]
            exact List.perm_append_singleton _ _

theorem tally_resume (hs : c.Sound) (t : Nat) :
    c.Tally (.resume t) (c.move (.resume t)) := by
  by_cases ht : c.cache.right.isHolder t
  · cases hholder : c.cache.right.holder with
    | none => simp [FetchRight.isHolder, hholder] at ht
    | some h =>
        have hticket : h.ticket = t := by simpa [FetchRight.isHolder, hholder] using ht
        cases h with
        | fetching f =>
            rw [move_resume ht (Cache.resume_of_fetching hholder), proceed]
            exact .stays rfl rfl rfl (fun _ => rfl) rfl
        | passedTo w =>
            obtain ⟨q, rest, hpending, hq, -⟩ := hs.pending_of_holder hholder
            obtain rfl : q.waiter = w := hq
            obtain rfl : q.ticket = t := hticket
            have hline := FetchRight.line_of_passed hholder
            rcases c.cache.lt_or_covered q.requested with ⟨low, hlow, hlt⟩ | hcovered
            · rw [move_resume_of_lt hholder hpending hlow hlt]
              refine .settles (w := q.waiter) rfl rfl rfl ?_ (oneMore_beginFetch c q rest low)
              rw [hline, FetchRight.line_of_fetching (f := ⟨q.ticket, q.requested, low⟩) rfl]
              exact .refl _
            · rw [move_resume_of_covered hs hholder hpending hcovered]
              refine .settles (w := q.waiter) rfl rfl rfl ?_ (.inr (.inl rfl))
              rw [hline, skip, FetchRight.line_passOn]
  · rw [move, if_neg ht]
    exact .stays rfl rfl rfl (fun _ => rfl) rfl

/-- A query under way that does not hold the right stands in line, and leaves the others in it. -/
theorem perm_line_leaveLine (hs : c.Sound) (hq : q ∈ c.pending) {h : Holder}
    (hholder : c.cache.right.holder = some h) (hne : h.ticket ≠ q.ticket) :
    c.cache.right.line.Perm (q.waiter :: (c.leaveLine q).cache.right.line) := by
  obtain ⟨p, rest, hpending, hp, hrest⟩ := hs.pending_of_holder hholder
  have hmem : q.waiter ∈ c.cache.right.waiting := by
    rw [hpending] at hq
    rcases List.mem_cons.1 hq with rfl | hq
    · rw [← Holder.ticket_waiter, ← hp] at hne
      exact absurd rfl hne
    · rw [← hrest]
      exact List.mem_map_of_mem hq
  cases h with
  | fetching f =>
      rw [FetchRight.line_of_fetching hholder,
        FetchRight.line_of_fetching (r := (c.leaveLine q).cache.right) hholder]
      have hnodup := hs.nodup_line
      rw [FetchRight.line_of_fetching hholder] at hnodup
      exact FetchRight.perm_cons_filter hnodup hmem
  | passedTo w =>
      rw [FetchRight.line_of_passed hholder,
        FetchRight.line_of_passed (r := (c.leaveLine q).cache.right) hholder]
      have hnodup := hs.nodup_line
      rw [FetchRight.line_of_passed hholder, List.map_cons, List.nodup_cons] at hnodup
      exact ((FetchRight.perm_cons_filter hnodup.2 hmem).cons w).trans (.swap q.waiter w _)

theorem tally_expire (hs : c.Sound) (t : Nat) :
    c.Tally (.expire t) (c.move (.expire t)) := by
  by_cases ht : c.cache.right.isWaiting t
  · obtain ⟨q, h, hq, rfl, hholder, hne⟩ := hs.isWaiting_iff.1 ht
    rw [move_expire_of_waiting hs hq hholder hne]
    exact .settles (w := q.waiter) rfl rfl rfl (hs.perm_line_leaveLine hq hholder hne)
      (.inr (.inr rfl))
  · have hexpire : c.cache.expire t = (c.cache, .waiting) := by rw [Cache.expire, if_neg ht]
    rw [move_expire hexpire, proceed]
    exact .stays rfl rfl rfl (fun _ => rfl) rfl

theorem isResignation_eq_false {t : Nat} (h : ∀ w ∈ c.cache.right.line, w.ticket ≠ t) :
    Stride.isResignation ⟨c, .withdraw t⟩ = false := by
  rw [Stride.isResignation, List.any_eq_false]
  exact fun w hw => by simpa using h w hw

theorem isResignation_of_mem {w : Waiter} (hw : w ∈ c.cache.right.line) :
    Stride.isResignation ⟨c, .withdraw w.ticket⟩ = true := by
  rw [Stride.isResignation, List.any_eq_true]
  exact ⟨w, hw, beq_self_eq_true _⟩

/-- The query that holds the right is given up. -/
theorem tally_withdraw_holder (hs : c.Sound) {h : Holder}
    (hholder : c.cache.right.holder = some h) :
    c.Tally (.withdraw h.ticket) (c.move (.withdraw h.ticket)) := by
  have hline : (c.move (.withdraw h.ticket)).cache.right.line = c.cache.right.waiting := by
    rw [move_withdraw, FetchRight.withdraw_of_holder hholder, FetchRight.line_passOn]
  cases h with
  | passedTo w =>
      have hw := FetchRight.line_of_passed hholder
      refine .resigns (w := w) rfl rfl (isResignation_of_mem (hw ▸ List.mem_cons_self)) ?_ rfl
      rw [hline, hw]
  | fetching f =>
      rw [← FetchRight.line_of_fetching hholder] at hline
      refine .stays rfl (isResignation_eq_false ?_) hline (fun _ => rfl) rfl
      obtain ⟨p, rest, hpending, hp, hrest⟩ := hs.pending_of_holder hholder
      have hpt : p.ticket = (Holder.fetching f).ticket := congrArg Waiter.ticket hp
      rw [FetchRight.line_of_fetching hholder, ← hrest]
      intro w hw
      obtain ⟨q, hq, rfl⟩ := List.mem_map.1 hw
      rw [← hpt]
      exact hs.ticket_ne_of_mem_rest hpending q hq

theorem tally_withdraw (hs : c.Sound) (t : Nat) :
    c.Tally (.withdraw t) (c.move (.withdraw t)) := by
  by_cases hq : ∃ q ∈ c.pending, q.ticket = t
  · rcases hq with ⟨q, hq, rfl⟩
    cases hholder : c.cache.right.holder with
    | none => rw [hs.pending_of_free hholder] at hq; cases hq
    | some h =>
        by_cases hne : h.ticket = q.ticket
        · rw [← hne]
          exact hs.tally_withdraw_holder hholder
        · have hline := hs.perm_line_leaveLine hq hholder hne
          have hmem := hline.mem_iff.2 List.mem_cons_self
          refine .resigns (w := q.waiter) rfl rfl (isResignation_of_mem hmem) ?_ rfl
          rw [move_withdraw, FetchRight.withdraw_of_holder_ne hholder hne]
          exact hline
  · rw [move_withdraw_of_none hs fun q hp hqt => hq ⟨q, hp, hqt⟩]
    refine .stays rfl (isResignation_eq_false fun w hw hwt => ?_) rfl (fun _ => rfl) rfl
    obtain ⟨q, hp, rfl⟩ := hs.exists_pending_of_line hw
    exact hq ⟨q, hp, hwt⟩

theorem tally_answer (hs : c.Sound) (t : Nat) (reply : FetchReply) :
    c.Tally (.answer t reply) (c.move (.answer t reply)) := by
  have hstep := step_answer hs t reply
  generalize c.move (.answer t reply) = d at hstep
  have hpassOn : ∀ {f : Fetch}, c.cache.right.holder = some (.fetching f) →
      c.cache.right.passOn.line = c.cache.right.line := by
    intro f hholder
    rw [FetchRight.line_passOn, FetchRight.line_of_fetching hholder]
  cases hstep with
  | stays => exact .stays rfl rfl rfl (fun _ => rfl) rfl
  | fetches hm => rcases hm with hm | hm <;> cases hm
  | succeeds hholder => exact .stays rfl rfl (hpassOn hholder) (fun _ => rfl) rfl
  | fails hholder => exact .stays rfl rfl (hpassOn hholder) (fun _ => rfl) rfl

theorem tally_handle : c.Tally .handle (c.move .handle) := by
  have hstep := step_handle (c := c)
  generalize c.move .handle = d at hstep
  cases hstep with
  | stays => exact .stays rfl rfl rfl (fun _ => rfl) rfl
  | fetches hm => rcases hm with hm | hm <;> cases hm
  | handles => exact .stays rfl rfl rfl (fun hticket => absurd rfl hticket) rfl

/-- Every move is in the list. -/
theorem tally (hs : c.Sound) (hm : c.Allows m) : c.Tally m (c.move m) := by
  cases m with
  | ask q => exact hs.tally_ask hm
  | resume t => exact hs.tally_resume t
  | expire t => exact hs.tally_expire t
  | withdraw t => exact hs.tally_withdraw t
  | answer t reply => exact hs.tally_answer t reply
  | handle => exact tally_handle
  | deliver | shutDown | stop | release => exact .stays rfl rfl rfl (fun _ => rfl) rfl

end Sound

/-! ## Adding up -/

theorem inLine_of_perm {w : Waiter} (h : d.cache.right.line.Perm (w :: c.cache.right.line))
    (t : Nat) : d.inLine t = c.inLine t + if w.ticket = t then 1 else 0 := by
  rw [inLine, h.countP_eq, List.countP_cons, inLine]
  simp only [beq_iff_eq]

theorem inLine_of_eq (h : d.cache.right.line = c.cache.right.line) (t : Nat) :
    d.inLine t = c.inLine t := by
  rw [inLine, h, inLine]

/-- Of all queries that have to fetch, those in line and those counted. -/
theorem Tally.queries_eq (h : c.Tally m d) :
    d.cache.activity.queries + d.cache.right.line.length +
        (Stride.isResignation ⟨c, m⟩).toNat =
      c.cache.activity.queries + c.cache.right.line.length + (Stride.isNeed ⟨c, m⟩).toNat := by
  cases h with
  | joins _ hneed hresignation hline hactivity =>
      rw [hneed, hresignation, hactivity, hline.length_eq]
      rfl
  | fetchesAtOnce _ hneed hresignation hline hmore =>
      rw [hneed, hresignation, hline, hmore.queries_eq]
      simp only [Bool.toNat_true, Bool.toNat_false]
      omega
  | settles _ hneed hresignation hline hmore =>
      rw [hneed, hresignation, hmore.queries_eq, hline.length_eq, List.length_cons]
      omega
  | resigns _ hneed hresignation hline hactivity =>
      rw [hneed, hresignation, hactivity, hline.length_eq]
      rfl
  | stays hneed hresignation hline _ hrest =>
      have hqueries := congrArg Activity.queries hrest
      change d.cache.activity.queries = c.cache.activity.queries at hqueries
      rw [hneed, hresignation, hline, hqueries]

/-- The same for the queries of one ticket, in a move of their own. -/
theorem Tally.ticket_eq (h : c.Tally m d) {t : Nat} (ht : m.ticket? = some t) :
    (decide (d.cache.activity ≠ c.cache.activity)).toNat + d.inLine t +
        (Stride.isResignation ⟨c, m⟩).toNat =
      c.inLine t + (Stride.isNeed ⟨c, m⟩).toNat := by
  have hown : ∀ {w : Waiter}, m.ticket? = some w.ticket → w.ticket = t :=
    fun hw => Option.some.inj (hw.symm.trans ht)
  cases h with
  | joins hticket hneed hresignation hline hactivity =>
      rw [inLine_of_perm hline, if_pos (hown hticket), hneed, hresignation, hactivity]
      simp
  | fetchesAtOnce _ hneed hresignation hline hmore =>
      rw [inLine_of_eq hline, hneed, hresignation, decide_eq_true hmore.ne]
      exact Nat.add_comm (true.toNat) (c.inLine t)
  | settles hticket hneed hresignation hline hmore =>
      rw [inLine_of_perm hline, if_pos (hown hticket), hneed, hresignation,
        decide_eq_true hmore.ne]
      exact Nat.add_comm (true.toNat) (d.inLine t)
  | resigns hticket hneed hresignation hline hactivity =>
      rw [inLine_of_perm hline, if_pos (hown hticket), hneed, hresignation, hactivity]
      simp
  | stays hneed hresignation hline hactivity =>
      rw [inLine_of_eq hline, hneed, hresignation, hactivity (by simp [ht])]
      simp

/-- A move of one query leaves the others in line. -/
theorem Tally.inLine_eq (h : c.Tally m d) {t : Nat} (ht : m.ticket? ≠ some t) :
    d.inLine t = c.inLine t := by
  have hother : ∀ {w : Waiter}, m.ticket? = some w.ticket → w.ticket ≠ t :=
    fun hw hwt => ht (hw.trans (congrArg some hwt))
  cases h with
  | joins hticket _ _ hline => rw [inLine_of_perm hline, if_neg (hother hticket), Nat.add_zero]
  | fetchesAtOnce _ _ _ hline => exact inLine_of_eq hline t
  | settles hticket _ _ hline =>
      rw [inLine_of_perm hline, if_neg (hother hticket), Nat.add_zero]
  | resigns hticket _ _ hline =>
      rw [inLine_of_perm hline, if_neg (hother hticket), Nat.add_zero]
  | stays _ _ hline => exact inLine_of_eq hline t

/-- A move of no query leaves what queries count. -/
theorem Tally.activity_of_none (h : c.Tally m d) (hm : m.ticket? = none) :
    { d.cache.activity with handled := c.cache.activity.handled } = c.cache.activity := by
  cases h with
  | stays _ _ _ _ hrest => exact hrest
  | joins hticket => rw [hm] at hticket; cases hticket
  | fetchesAtOnce hticket => rw [hm] at hticket; cases hticket
  | settles hticket => rw [hm] at hticket; cases hticket
  | resigns hticket => rw [hm] at hticket; cases hticket

/-- What a query counts is one thing. -/
theorem Tally.oneMore (h : c.Tally m d) (hm : m.ticket? = some q.ticket)
    (hne : d.cache.activity ≠ c.cache.activity) :
    c.cache.activity.OneMore d.cache.activity := by
  cases h with
  | fetchesAtOnce _ _ _ _ hmore => exact hmore
  | settles _ _ _ _ hmore => exact hmore
  | joins _ _ _ _ hactivity => exact absurd hactivity hne
  | resigns _ _ _ _ hactivity => exact absurd hactivity hne
  | stays _ _ _ hactivity => exact absurd (hactivity (by simp [hm])) hne

variable {ms : List Move}

/-- Every stride of a run is an allowed move of a course in order. -/
theorem Sound.of_mem_strides (hs : c.Sound) (hms : c.AllowsAll ms) {s : Stride}
    (h : s ∈ c.strides ms) : s.before.Sound ∧ s.before.Allows s.move := by
  induction ms generalizing c with
  | nil => cases h
  | cons m ms ih =>
      rcases List.mem_cons.1 h with rfl | h
      · exact ⟨hs, hms.1⟩
      · exact ih ((step_move hs hms.1).sound hs) hms.2 h

theorem countP_cons_toNat {α : Type} (p : α → Bool) (a : α) (as : List α) :
    (a :: as).countP p = as.countP p + (p a).toNat := by
  rw [List.countP_cons]
  cases p a <;> rfl

theorem Sound.queries_run (hs : c.Sound) (hms : c.AllowsAll ms) :
    (c.run ms).cache.activity.queries + (c.run ms).cache.right.line.length +
        (c.strides ms).countP Stride.isResignation =
      c.cache.activity.queries + c.cache.right.line.length +
        (c.strides ms).countP Stride.isNeed := by
  induction ms generalizing c with
  | nil => rfl
  | cons m ms ih =>
      have hrun : c.run (m :: ms) = (c.move m).run ms := rfl
      have hmove := (hs.tally hms.1).queries_eq
      have hrest := ih ((step_move hs hms.1).sound hs) hms.2
      rw [hrun, strides, countP_cons_toNat, countP_cons_toNat]
      omega

theorem own_cons (hm : m.ticket? = some q.ticket) (made : List Stride) :
    own q (⟨c, m⟩ :: made) = ⟨c, m⟩ :: own q made :=
  List.filter_cons_of_pos (by simpa using hm)

theorem own_cons_of_ne (hm : m.ticket? ≠ some q.ticket) (made : List Stride) :
    own q (⟨c, m⟩ :: made) = own q made :=
  List.filter_cons_of_neg (by simpa using hm)

theorem length_counted_cons (hm : m.ticket? = some q.ticket) (made : List Stride) :
    (counted q (⟨c, m⟩ :: made)).length = (counted q made).length +
      (decide ((c.move m).cache.activity ≠ c.cache.activity)).toNat := by
  rw [counted, own_cons hm, ← List.countP_eq_length_filter, countP_cons_toNat,
    List.countP_eq_length_filter, counted]
  rfl

/-- The same for the queries of one ticket, along a run. -/
theorem Sound.ticket_run (hs : c.Sound) (hms : c.AllowsAll ms) (q : Query) :
    (counted q (c.strides ms)).length + (c.run ms).inLine q.ticket +
        (own q (c.strides ms)).countP Stride.isResignation =
      c.inLine q.ticket + (own q (c.strides ms)).countP Stride.isNeed := by
  induction ms generalizing c with
  | nil => exact Nat.zero_add _
  | cons m ms ih =>
      have hrun : c.run (m :: ms) = (c.move m).run ms := rfl
      have htally := hs.tally hms.1
      have hrest := ih ((step_move hs hms.1).sound hs) hms.2
      rw [hrun, strides]
      by_cases hm : m.ticket? = some q.ticket
      · have hmove := htally.ticket_eq hm
        rw [length_counted_cons hm, own_cons hm, countP_cons_toNat, countP_cons_toNat]
        omega
      · rw [counted, own_cons_of_ne hm, ← counted, ← htally.inLine_eq hm]
        exact hrest

/-! ## What is promised -/

/-- How a query that is called in `c` before the moves `ps` is counted. -/
structure CountedOnce (c : Course) (q : Query) (ps : List Move) : Prop where
  /-- One that has to fetch was counted, or stands in line, or was given up in line. -/
  once : (counted q (c.strides (.ask q :: ps))).length + (c.run (.ask q :: ps)).inLine q.ticket +
      (own q (c.strides (.ask q :: ps))).countP Stride.isResignation =
    (Stride.isNeed ⟨c, .ask q⟩).toNat
  le_one : (counted q (c.strides (.ask q :: ps))).length ≤ 1
  oneMore : ∀ s ∈ counted q (c.strides (.ask q :: ps)),
    s.before.cache.activity.OneMore s.after.cache.activity
  /-- One that finds the cache not seeded, or its offset covered, counts nothing. -/
  untouched : Stride.isNeed ⟨c, .ask q⟩ = false → counted q (c.strides (.ask q :: ps)) = []

/-- What the counters tell of the moves `ms`. -/
structure Tallied (c : Course) (ms : List Move) : Prop where
  needs : (c.strides ms).countP Stride.isNeed =
    (c.run ms).cache.activity.fetches + (c.run ms).cache.activity.skipped +
      (c.run ms).cache.activity.timeouts + (c.run ms).cache.right.line.length +
      (c.strides ms).countP Stride.isResignation
  /-- None of these is there when no query is given up. -/
  resignations : (∀ ticket, .withdraw ticket ∉ ms) →
    (c.strides ms).countP Stride.isResignation = 0
  /-- A ticket may be used again when its query has left. -/
  each : ∀ ns q ps, ms = ns ++ .ask q :: ps → (∀ p, .ask p ∈ ps → p.ticket ≠ q.ticket) →
    (c.run ns).CountedOnce q ps
  /-- Nobody but queries touches these counters. -/
  others : ∀ s ∈ c.strides ms, s.move.ticket? = none →
    { s.after.cache.activity with handled := s.before.cache.activity.handled } =
      s.before.cache.activity
  fetches : (c.run ms).cache.activity.fetches = (c.run ms).calls.length
  handled : (c.run ms).cache.activity.handled = (c.run ms).handled.length

/-! ## What was promised holds -/

theorem Sound.inLine_of_fresh (hs : c.Sound) (hm : c.Allows (.ask q)) : c.inLine q.ticket = 0 := by
  rw [inLine, List.countP_eq_zero]
  intro w hw
  obtain ⟨p, hp, rfl⟩ := hs.exists_pending_of_line hw
  exact fun hwt => hm p hp (beq_iff_eq.1 hwt)

/-- Of the moves of one query only its call can be that of a query that has to fetch. -/
theorem countP_isNeed_own (c : Course) (hps : ∀ p, .ask p ∈ ms → p.ticket ≠ q.ticket) :
    (own q (c.strides ms)).countP Stride.isNeed = 0 := by
  induction ms generalizing c with
  | nil => rfl
  | cons m ms ih =>
      have hrest := ih (c.move m) fun p hp => hps p (List.mem_cons_of_mem _ hp)
      rw [strides]
      by_cases hm : m.ticket? = some q.ticket
      · have hneed : ¬ Stride.isNeed ⟨c, m⟩ = true := by
          cases m with
          | ask p => exact absurd (Option.some.inj hm) (hps p List.mem_cons_self)
          | _ => exact Bool.false_ne_true
        rw [own_cons hm, List.countP_cons_of_neg hneed, hrest]
      · rw [own_cons_of_ne hm, hrest]

theorem Sound.countedOnce (hs : c.Sound) {ps : List Move} (hms : c.AllowsAll (.ask q :: ps))
    (hps : ∀ p, .ask p ∈ ps → p.ticket ≠ q.ticket) : c.CountedOnce q ps := by
  have hown : own q (c.strides (.ask q :: ps)) =
      ⟨c, .ask q⟩ :: own q ((c.move (.ask q)).strides ps) := own_cons rfl _
  have hneeds : (own q (c.strides (.ask q :: ps))).countP Stride.isNeed =
      (Stride.isNeed ⟨c, .ask q⟩).toNat := by
    rw [hown, countP_cons_toNat, countP_isNeed_own _ hps, Nat.zero_add]
  have honce := hs.ticket_run hms q
  rw [hs.inLine_of_fresh hms.1, hneeds, Nat.zero_add] at honce
  have hneed := Bool.toNat_le (Stride.isNeed ⟨c, .ask q⟩)
  refine ⟨honce, by omega, ?_, fun hno => ?_⟩
  · intro s hmem
    rw [counted, List.mem_filter, own, List.mem_filter] at hmem
    obtain ⟨⟨hmem, hticket⟩, hchanged⟩ := hmem
    obtain ⟨hbefore, hallowed⟩ := hs.of_mem_strides hms hmem
    exact (hbefore.tally hallowed).oneMore (by simpa using hticket)
      (of_decide_eq_true hchanged)
  · rw [hno] at honce
    refine List.length_eq_zero_iff.1 ?_
    simp only [Bool.toNat_false] at honce
    omega

theorem countP_isResignation_eq_zero (c : Course) (h : ∀ ticket, .withdraw ticket ∉ ms) :
    (c.strides ms).countP Stride.isResignation = 0 := by
  induction ms generalizing c with
  | nil => rfl
  | cons m ms ih =>
      have hm : ¬ Stride.isResignation ⟨c, m⟩ = true := by
        cases m with
        | withdraw t => exact absurd List.mem_cons_self (h t)
        | _ => exact Bool.false_ne_true
      rw [strides, List.countP_cons_of_neg hm]
      exact ih _ fun t ht => h t (List.mem_cons_of_mem _ ht)

/-- A call of the journal is counted as a fetch, however it ends. -/
theorem Step.fetches_eq (h : c.Step m d) (hc : c.cache.activity.fetches = c.calls.length) :
    d.cache.activity.fetches = d.calls.length := by
  have hended : ∀ {past : List Call} {k l : Call}, c.calls = past ++ [k] →
      c.cache.activity.fetches = (past ++ [l]).length := by
    intro past k l hcalls
    rw [hc, hcalls, List.length_append, List.length_append]
    rfl
  cases h with
  | fetches =>
      rw [length_calls_beginFetch, ← hc]
      rfl
  | leavesFetch _ _ hcalls => exact hended hcalls
  | succeeds _ _ hcalls => exact hended hcalls
  | fails _ _ hcalls => exact hended hcalls
  | _ => exact hc

theorem Step.handled_length_eq (h : c.Step m d)
    (hc : c.cache.activity.handled = c.handled.length) :
    d.cache.activity.handled = d.handled.length := by
  rcases h.handled_eq with heq | ⟨-, -, r, rs, -, rfl⟩
  · rw [heq, ← hc]
    cases h with
    | handles => rw [handled_takeIn] at heq; simp at heq
    | _ => rfl
  · rw [handled_takeIn, List.length_append, ← hc]
    rfl

variable {number : Nat} {settings : Settings} {registry : Registry}

theorem Reachable.counts (h : Reachable number settings registry c) :
    c.cache.activity.fetches = c.calls.length ∧ c.cache.activity.handled = c.handled.length := by
  induction h with
  | start => exact ⟨rfl, rfl⟩
  | move hc hm ih => exact ⟨(hc.step hm).fetches_eq ih.1, (hc.step hm).handled_length_eq ih.2⟩

/-- Whatever the parties of a cache do, each query that has to fetch is counted once or still stands
in line, unless it is given up there; no other query is counted; and the counters of fetches and of
records tell how many calls the journal received and how many records were handled. -/
theorem tallied (h : (start number settings registry).AllowsAll ms) :
    (start number settings registry).Tallied ms where
  needs := by
    have hrun := sound_start.queries_run h
    have hnone : (start number settings registry).cache.activity.queries +
        (start number settings registry).cache.right.line.length = 0 := rfl
    rw [hnone, Nat.zero_add] at hrun
    exact hrun.symm
  resignations := countP_isResignation_eq_zero _
  each := by
    rintro ns q ps rfl hps
    obtain ⟨hns, hrest⟩ := allowsAll_append.1 h
    exact (sound_start.run hns).countedOnce hrest hps
  others := by
    intro s hmem hnone
    obtain ⟨hbefore, hallowed⟩ := sound_start.of_mem_strides h hmem
    exact (hbefore.tally hallowed).activity_of_none hnone
  fetches := (Reachable.start.run h).counts.1
  handled := (Reachable.start.run h).counts.2

/-- One query comes too early and one is covered. Of those that have to fetch three fetch, of which
one fails and one is still under way, one finds its offset covered when it gets the right, one waits
too long, one is given up and one still waits. -/
def mixed : List Move :=
  [.ask ⟨0, "a", 4⟩, .deliver (Sample.marker .zero 10), .handle, .ask ⟨1, "a", 5⟩,
    .ask ⟨2, "b", 3⟩, .ask ⟨3, "a", 7⟩, .ask ⟨4, "a", 2⟩, .ask ⟨5, "a", 12⟩, .ask ⟨6, "b", 1⟩,
    .expire 4, .withdraw 6, .deliver (.message (Sample.message .zero 11 "b" .test)), .handle,
    .answer 1 (.ok []), .resume 2, .answer 2 (.error (.fetchFailed 3 5 "unavailable")), .resume 3,
    .ask ⟨1, "a", 1⟩, .ask ⟨2, "a", 0⟩]

theorem tallied_mixed :
    (start 0 .standard .empty).Tallied mixed ∧
      ((start 0 .standard .empty).strides mixed).countP Stride.isNeed = 7 ∧
      ((start 0 .standard .empty).run mixed).cache.activity = ⟨2, 3, 1, 1⟩ ∧
      ((start 0 .standard .empty).run mixed).cache.right.line = [⟨2, 0⟩] :=
  ⟨tallied (by decide), by decide, by decide, by decide⟩

end Course

end JournalCache

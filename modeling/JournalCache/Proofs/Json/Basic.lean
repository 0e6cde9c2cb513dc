import JournalCache.Json.Basic

/-!
# The value of tokens

The reader of tokens ends with a value exactly if it was given the tokens of that value. The tokens
of a value take it from where a value must come to where the value has ended, inside of whatever is
open (`read_tokens`). Conversely each state of the reader stands for the tokens that led to it
(`Reading.taken`), and every step adds its token to them (`taken_step`).
-/

namespace JournalCache

namespace Json

/-! ## From a value to its tokens and back -/

/-- The first token of a value starts a value. -/
theorem tokens_eq_cons (j : Json) : ∃ t ts, j.tokens = t :: ts ∧ t ≠ .closeBracket := by
  cases j with
  | null | bool | number | text => exact ⟨_, _, rfl, nofun⟩
  | list items => exact ⟨.openBracket, _, by rw [tokens]; rfl, nofun⟩
  | object members => exact ⟨.openBrace, _, by rw [tokens]; rfl, nofun⟩

theorem itemTokens_cons (j k : Json) (js : List Json) :
    itemTokens (j :: k :: js) = j.tokens ++ .comma :: itemTokens (k :: js) := by
  rw [itemTokens]
  nofun

theorem memberTokens_cons (k : Option String) (j : Json) (m : Option String × Json)
    (ms : List (Option String × Json)) :
    memberTokens ((k, j) :: m :: ms) =
      .text k :: .colon :: j.tokens ++ .comma :: memberTokens (m :: ms) := by
  rw [memberTokens]
  nofun

/-- A list that was opened goes on with its first item as with any other. -/
theorem foldlM_firstItem (j : Json) (js : List Json) (frames : List Frame) (ts : List Token) :
    (itemTokens (j :: js) ++ ts).foldlM Reading.step (.firstItem frames) =
      (itemTokens (j :: js) ++ ts).foldlM Reading.step (.value (.list [] :: frames)) := by
  obtain ⟨t, us, htokens, ht⟩ := j.tokens_eq_cons
  have hitems : ∃ vs, itemTokens (j :: js) = t :: vs := by
    cases js with
    | nil => exact ⟨us, by rw [itemTokens, htokens]⟩
    | cons k js => exact ⟨_, by rw [itemTokens_cons, htokens]; rfl⟩
  obtain ⟨vs, hvs⟩ := hitems
  rw [hvs, List.cons_append, List.foldlM_cons, List.foldlM_cons]
  congr 1
  cases t with
  | closeBracket => exact absurd rfl ht
  | _ => rfl

/-- An object that was opened goes on with its first member as with any other. -/
theorem foldlM_firstKey (m : Option String × Json) (ms : List (Option String × Json))
    (frames : List Frame) (ts : List Token) :
    (memberTokens (m :: ms) ++ ts).foldlM Reading.step (.firstKey frames) =
      (memberTokens (m :: ms) ++ ts).foldlM Reading.step (.nextKey [] frames) := by
  cases ms with
  | nil => rfl
  | cons n ms =>
      rw [memberTokens_cons]
      rfl

mutual

/-- The tokens of a value are read as the value, inside of whatever is open. -/
theorem read_tokens (j : Json) (frames : List Frame) (ts : List Token) :
    (j.tokens ++ ts).foldlM Reading.step (.value frames) =
      ts.foldlM Reading.step (.ended j frames) :=
  match j with
  | .null => rfl
  | .bool _ => rfl
  | .number _ => rfl
  | .text _ => rfl
  | .list [] => rfl
  | .list (i :: items) => by
    have hitems := read_itemTokens (i :: items) (List.cons_ne_nil _ _) [] frames ts
    rw [tokens, List.append_assoc]
    exact (foldlM_firstItem i items frames (.closeBracket :: ts)).trans hitems
  | .object [] => rfl
  | .object (m :: members) => by
    have hmembers := read_memberTokens (m :: members) (List.cons_ne_nil _ _) [] frames ts
    rw [tokens, List.append_assoc]
    exact (foldlM_firstKey m members frames (.closeBrace :: ts)).trans hmembers

/-- The items of a list are read behind those that were read before. -/
theorem read_itemTokens (js : List Json) (hjs : js ≠ []) (items : List Json)
    (frames : List Frame) (ts : List Token) :
    (itemTokens js ++ .closeBracket :: ts).foldlM Reading.step (.value (.list items :: frames)) =
      ts.foldlM Reading.step (.ended (.list (items.reverse ++ js)) frames) :=
  match js with
  | [] => absurd rfl hjs
  | [j] => by
    rw [itemTokens, read_tokens j, ← List.reverse_cons]
    rfl
  | j :: k :: js => by
    have hrest := read_itemTokens (k :: js) (List.cons_ne_nil _ _) (j :: items) frames ts
    rw [List.reverse_cons, List.append_assoc] at hrest
    rw [itemTokens_cons, List.append_assoc, read_tokens j]
    exact hrest

/-- The members of an object are read behind those that were read before. -/
theorem read_memberTokens (ms : List (Option String × Json)) (hms : ms ≠ [])
    (members : List (Option String × Json)) (frames : List Frame) (ts : List Token) :
    (memberTokens ms ++ .closeBrace :: ts).foldlM Reading.step (.nextKey members frames) =
      ts.foldlM Reading.step (.ended (.object (members.reverse ++ ms)) frames) :=
  match ms with
  | [] => absurd rfl hms
  | [(k, j)] => by
    have hvalue := read_tokens j (.object members k :: frames) (.closeBrace :: ts)
    rw [← List.reverse_cons]
    exact hvalue
  | (k, j) :: m :: ms => by
    have hrest := read_memberTokens (m :: ms) (List.cons_ne_nil _ _) ((k, j) :: members) frames ts
    have hvalue := read_tokens j (.object members k :: frames)
      (.comma :: memberTokens (m :: ms) ++ .closeBrace :: ts)
    rw [List.reverse_cons, List.append_assoc] at hrest
    rw [memberTokens_cons, List.append_assoc]
    exact hvalue.trans hrest

end

/-- Nothing may follow a whole value. -/
theorem ofTokens?_tokens_append (j : Json) (ts : List Token) :
    ofTokens? (j.tokens ++ ts) = if ts = [] then some j else none := by
  rw [ofTokens?, read_tokens j [] ts]
  cases ts with
  | nil => rfl
  | cons t ts => rfl

/-! ## From tokens to their value and back -/

def itemsTaken (items : List Json) : List Token := items.flatMap fun j => j.tokens ++ [.comma]

def membersTaken (members : List (Option String × Json)) : List Token :=
  members.flatMap fun m => .text m.1 :: .colon :: (m.2.tokens ++ [.comma])

theorem itemTokens_concat (items : List Json) (j : Json) :
    itemTokens (items ++ [j]) = itemsTaken items ++ j.tokens := by
  induction items with
  | nil => rw [List.nil_append, itemTokens]; rfl
  | cons i items ih =>
      have hcons : ∃ k ks, items ++ [j] = k :: ks :=
        List.exists_cons_of_ne_nil (List.concat_ne_nil j items)
      obtain ⟨k, ks, hks⟩ := hcons
      rw [hks] at ih
      rw [List.cons_append, hks, itemTokens_cons, ih]
      simp [itemsTaken]

theorem memberTokens_concat (members : List (Option String × Json)) (k : Option String)
    (j : Json) :
    memberTokens (members ++ [(k, j)]) = membersTaken members ++ .text k :: .colon :: j.tokens := by
  induction members with
  | nil => rw [List.nil_append, memberTokens]; rfl
  | cons m members ih =>
      have hcons : ∃ n ns, members ++ [(k, j)] = n :: ns :=
        List.exists_cons_of_ne_nil (List.concat_ne_nil (k, j) members)
      obtain ⟨n, ns, hns⟩ := hcons
      rw [hns] at ih
      rw [List.cons_append, hns, memberTokens_cons, ih]
      simp [membersTaken]

def Frame.taken : Frame → List Token
  | .list items => .openBracket :: itemsTaken items.reverse
  | .object members key => .openBrace :: (membersTaken members.reverse ++ [.text key, .colon])

/-- The tokens that opened frames, of which the innermost is the first. -/
def framesTaken (frames : List Frame) : List Token := frames.reverse.flatMap Frame.taken

theorem framesTaken_cons (f : Frame) (frames : List Frame) :
    framesTaken (f :: frames) = framesTaken frames ++ f.taken := by
  simp [framesTaken]

namespace Reading

/-- The tokens that lead to where the reader stands. -/
def taken : Reading → List Token
  | .value frames => framesTaken frames
  | .firstItem frames => framesTaken frames ++ [.openBracket]
  | .firstKey frames => framesTaken frames ++ [.openBrace]
  | .nextKey members frames => framesTaken frames ++ .openBrace :: membersTaken members.reverse
  | .colon members key frames =>
    framesTaken frames ++ .openBrace :: (membersTaken members.reverse ++ [.text key])
  | .ended v frames => framesTaken frames ++ v.tokens

theorem taken_start {frames : List Frame} {t : Token} {r : Reading} (h : start frames t = some r) :
    r.taken = framesTaken frames ++ [t] := by
  cases t <;> cases h <;> rfl

theorem taken_step {r r' : Reading} {t : Token} (h : r.step t = some r') :
    r'.taken = r.taken ++ [t] := by
  unfold step at h
  split at h
  case h_1 => exact taken_start h
  case h_2 =>
    obtain rfl := Option.some.inj h
    simp [taken, tokens, itemTokens]
  case h_3 =>
    rw [taken_start h, framesTaken_cons]
    rfl
  case h_4 =>
    obtain rfl := Option.some.inj h
    simp [taken, tokens, memberTokens]
  case h_5 =>
    obtain rfl := Option.some.inj h
    simp [taken, membersTaken]
  case h_6 =>
    obtain rfl := Option.some.inj h
    simp [taken]
  case h_7 =>
    obtain rfl := Option.some.inj h
    simp [taken, framesTaken_cons, Frame.taken]
  case h_8 =>
    obtain rfl := Option.some.inj h
    simp [taken, framesTaken_cons, Frame.taken, itemsTaken]
  case h_9 =>
    obtain rfl := Option.some.inj h
    simp [taken, framesTaken_cons, Frame.taken, tokens, itemTokens_concat]
  case h_10 =>
    obtain rfl := Option.some.inj h
    simp [taken, framesTaken_cons, Frame.taken, membersTaken]
  case h_11 =>
    obtain rfl := Option.some.inj h
    simp [taken, framesTaken_cons, Frame.taken, tokens, memberTokens_concat]
  case h_12 => cases h

theorem taken_foldlM {r r' : Reading} {ts : List Token} (h : ts.foldlM step r = some r') :
    r'.taken = r.taken ++ ts := by
  induction ts generalizing r with
  | nil =>
      obtain rfl := Option.some.inj h
      exact (List.append_nil _).symm
  | cons t ts ih =>
      obtain ⟨r₁, hstep, hrest⟩ := Option.bind_eq_some_iff.1 (List.foldlM_cons.symm.trans h)
      rw [ih hrest, taken_step hstep, List.append_assoc]
      rfl

end Reading

/-- The reader ends with a value only behind the tokens of that value. -/
theorem eq_tokens_of_ofTokens? {ts : List Token} {j : Json} (h : ofTokens? ts = some j) :
    ts = j.tokens := by
  obtain ⟨r, hread, hfinish⟩ := Option.bind_eq_some_iff.1 h
  have htaken := Reading.taken_foldlM hread
  unfold Reading.finish at hfinish
  split at hfinish
  · obtain rfl := Option.some.inj hfinish
    exact htaken.symm
  · cases hfinish

end Json

end JournalCache

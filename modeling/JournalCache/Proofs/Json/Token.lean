import JournalCache.Json.Token
import JournalCache.Proofs.Json.Numeral
import JournalCache.Proofs.Json.Spelling

/-!
# All ways to write tokens

A token may be written in several ways, and blanks may stand between tokens
(`Token.Spelling`, `Token.Spellings`). Scanning finds tokens in the texts that they make up, if what
follows a number does not continue it (`scan_append`), and in no other texts (`spellings_of_scan`).
A number that is not well formed is found in no place (`spellings_or_scan_eq_none`).
-/

namespace JournalCache

namespace Json

namespace Token

/-! ## Ways to write tokens -/

/-- How a token may be written, if numbers are written as the numerals that `N` admits. -/
inductive Spelling (N : Numeral → Prop) : Token → List Char → Prop where
  | openBrace : Spelling N .openBrace ['\x7b']
  | closeBrace : Spelling N .closeBrace ['\x7d']
  | openBracket : Spelling N .openBracket ['[']
  | closeBracket : Spelling N .closeBracket [']']
  | comma : Spelling N .comma [',']
  | colon : Spelling N .colon [':']
  | null : Spelling N .null ['n', 'u', 'l', 'l']
  | yes : Spelling N (.bool true) ['t', 'r', 'u', 'e']
  | no : Spelling N (.bool false) ['f', 'a', 'l', 's', 'e']
  | number {n : Numeral} (hn : N n) : Spelling N (.number n.value?) n.text
  | text {s : String} {ws : List (List Char)} (hws : List.Forall₂ CharText s.toList ws) :
      Spelling N (.text (some s)) ('"' :: (ws.flatten ++ ['"']))
  /-- A string of pieces that are no characters, since some half of a pair stands alone. -/
  | unpaired {ps : List Piece} {ws : List (List Char)} (hws : List.Forall₂ PieceText ps ws)
      (hno : ∀ cs vs, List.Forall₂ CharText cs vs → vs.flatten ≠ ws.flatten) :
      Spelling N (.text none) ('"' :: (ws.flatten ++ ['"']))

/-- A text that tokens make up, with blanks before, between and behind them. -/
inductive Spellings (N : Numeral → Prop) : List Token → List Char → Prop where
  | nil {bs : List Char} (hbs : bs.all isBlank) : Spellings N [] bs
  | cons {bs w rest : List Char} {t : Token} {ts : List Token} (hbs : bs.all isBlank)
      (hw : t.Spelling N w) (hrest : Spellings N ts rest) :
      Spellings N (t :: ts) (bs ++ (w ++ rest))

variable {N : Numeral → Prop}

/-! ## One token -/

/-- What follows a token is no part of it. -/
def Fits (t : Token) (r : List Char) : Prop :=
  match t with
  | .number _ => EndsNumber r
  | _ => True

theorem fits_nil (t : Token) : t.Fits [] := by
  cases t with
  | number => exact endsNumber_nil
  | _ => trivial

/-- A token is well written, or it is a number that is not. -/
theorem Spelling.wellFormed_or {t : Token} {w : List Char} (h : t.Spelling (fun _ => True) w) :
    t.Spelling Numeral.WellFormed w ∨ ∃ n : Numeral, ¬ n.WellFormed ∧ w = n.text := by
  cases h with
  | @number n _ =>
      by_cases hn : n.WellFormed
      · exact .inl (.number hn)
      · exact .inr ⟨n, hn, rfl⟩
  | text hws => exact .inl (.text hws)
  | unpaired hws hno => exact .inl (.unpaired hws hno)
  | _ => exact .inl (by constructor)

/-- No other token starts as a number does. -/
theorem next?_eq_number {c : Char} (hc : c = '+' ∨ c = '-' ∨ Decimal.isDigit c) (cs : List Char) :
    next? (c :: cs) = (number? (c :: cs)).map fun q => (.number q.1, q.2) := by
  have hne : ∀ d : Char, (d == '+' || d == '-' || Decimal.isDigit d) = false → c ≠ d := by
    rintro d hd rfl
    rcases hc with rfl | rfl | hc
    · cases hd
    · cases hd
    · rw [hc, Bool.or_true] at hd
      cases hd
  rw [next?.eq_def]
  split
  case h_11 =>
    cases number? (c :: cs) <;> rfl
  all_goals
    next heq => exact absurd (List.cons.inj heq).1 (hne _ (by decide))

theorem isBlank_of_starts {c : Char} (hc : c = '+' ∨ c = '-' ∨ Decimal.isDigit c) :
    isBlank c = false := by
  rw [Bool.eq_false_iff]
  intro hblank
  simp only [isBlank, Bool.or_eq_true, beq_iff_eq] at hblank
  rcases hblank with ((rfl | rfl) | rfl) | rfl <;> rcases hc with hc | hc | hc <;> cases hc

theorem next?_numeral (n : Numeral) (r : List Char) :
    next? (n.text ++ r) = (number? (n.text ++ r)).map fun q => (.number q.1, q.2) := by
  obtain ⟨c, cs, hcs, hc⟩ := n.text_eq_cons
  rw [hcs]
  exact next?_eq_number hc _

theorem next?_string {ps : List Piece} {ws : List (List Char)} (h : List.Forall₂ PieceText ps ws)
    (r : List Char) :
    next? ('"' :: (ws.flatten ++ '"' :: r)) =
      some (.text ((Piece.spell ps).map String.ofList), r) := by
  rw [next?, pieces?_texts h]
  rfl

/-- A token is read, however it is written, if what follows is no part of it. -/
theorem next?_spelling {t : Token} {w r : List Char} (hw : t.Spelling Numeral.WellFormed w)
    (hr : t.Fits r) : next? (w ++ r) = some (t, r) := by
  cases hw with
  | @number n hn => rw [next?_numeral, number?_text hn hr]; rfl
  | @text s ws hws =>
      obtain ⟨ps, vs, hvs, hflatten, hspell⟩ := exists_pieces hws
      have hnext := next?_string hvs r
      rw [hspell, Option.map_some, String.ofList_toList, hflatten] at hnext
      simpa using hnext
  | @unpaired ps ws hws hno =>
      have hnext := next?_string hws r
      rw [(spell_eq_none_iff hws).2 hno, Option.map_none] at hnext
      simpa using hnext
  | _ => rfl

theorem exists_spelling {cs r : List Char} {t : Token} (h : next? cs = some (t, r)) :
    ∃ w, t.Spelling Numeral.WellFormed w ∧ cs = w ++ r := by
  unfold next? at h
  split at h
  case h_10 cs =>
    obtain ⟨⟨ps, r'⟩, hpieces, h⟩ := Option.bind_eq_some_iff.1 h
    obtain ⟨rfl, rfl⟩ := Prod.mk.inj (Option.some.inj h)
    obtain ⟨ws, hws, rfl⟩ := exists_pieceTexts hpieces
    cases hspell : Piece.spell ps with
    | none => exact ⟨_, .unpaired hws ((spell_eq_none_iff hws).1 hspell), by simp⟩
    | some chars =>
        obtain ⟨vs, hvs, hflatten⟩ := exists_charTexts hws hspell
        rw [← String.toList_ofList (l := chars)] at hvs
        exact ⟨_, .text hvs, by simp [hflatten]⟩
  case h_11 =>
    obtain ⟨⟨x, r'⟩, hnumber, h⟩ := Option.bind_eq_some_iff.1 h
    obtain ⟨rfl, rfl⟩ := Prod.mk.inj (Option.some.inj h)
    obtain ⟨n, hn, rfl, rfl⟩ := exists_numeral hnumber
    exact ⟨_, .number hn, rfl⟩
  all_goals
    obtain ⟨rfl, rfl⟩ := Prod.mk.inj (Option.some.inj h)
    exact ⟨_, by constructor, rfl⟩

theorem next?_of_isBlank {c : Char} (h : isBlank c) (cs : List Char) : next? (c :: cs) = none := by
  simp only [isBlank, Bool.or_eq_true, beq_iff_eq] at h
  rcases h with ((rfl | rfl) | rfl) | rfl <;> rfl

/-! ## The tokens of a text -/

theorem scan_of_next? {cs r : List Char} {t : Token} (h : next? cs = some (t, r)) :
    scan cs = (scan r).map (t :: ·) := by
  cases cs with
  | nil => cases h
  | cons c cs =>
      have hblank : ¬ isBlank c := by
        intro hblank
        rw [next?_of_isBlank hblank] at h
        cases h
      rw [scan, if_neg hblank]
      split
      · next heq => rw [h] at heq; cases heq
      · next heq =>
        rw [h] at heq
        obtain ⟨rfl, rfl⟩ := Prod.mk.inj (Option.some.inj heq)
        rfl

theorem scan_of_next?_none {c : Char} {cs : List Char} (hblank : isBlank c = false)
    (h : next? (c :: cs) = none) : scan (c :: cs) = none := by
  rw [scan, if_neg (by simp [hblank])]
  split
  · rfl
  · next heq => rw [h] at heq; cases heq

theorem scan_blanks {bs : List Char} (hbs : bs.all isBlank) (cs : List Char) :
    scan (bs ++ cs) = scan cs := by
  induction bs with
  | nil => rfl
  | cons b bs ih =>
      obtain ⟨hb, hbs⟩ := Bool.and_eq_true_iff.1 (List.all_cons.symm.trans hbs)
      rw [List.cons_append, scan, if_pos hb]
      exact ih hbs

/-- A text without tokens is blank. -/
theorem scan_eq_nil_iff {cs : List Char} : scan cs = some [] ↔ cs.all isBlank := by
  induction cs with
  | nil =>
      rw [scan]
      exact iff_of_true rfl rfl
  | cons c cs ih =>
      rw [scan, List.all_cons]
      by_cases hblank : isBlank c
      · rw [if_pos hblank, hblank, Bool.true_and]
        exact ih
      · rw [if_neg hblank, Bool.eq_false_iff.2 hblank, Bool.false_and]
        refine iff_of_false ?_ Bool.false_ne_true
        split
        · exact Option.some_ne_none _ ∘ Eq.symm
        · next rest _ =>
          rw [Option.map_eq_some_iff]
          rintro ⟨ts, -, hts⟩
          exact List.cons_ne_nil _ _ hts

theorem Spellings.blank {ts : List Token} {cs : List Char} {b : Char} (hb : isBlank b)
    (h : Spellings N ts cs) : Spellings N ts (b :: cs) := by
  cases h with
  | nil hbs => exact .nil (by rw [List.all_cons, hb, hbs]; rfl)
  | @cons bs _ _ _ _ hbs hw hrest =>
      exact @Spellings.cons N (b :: bs) _ _ _ _ (by rw [List.all_cons, hb, hbs]; rfl) hw hrest

/-- Tokens are found in the texts that they make up and in no others. -/
theorem spellings_of_scan {cs : List Char} {ts : List Token} (h : scan cs = some ts) :
    Spellings Numeral.WellFormed ts cs := by
  fun_induction scan cs generalizing ts with
  | case1 =>
      obtain rfl := Option.some.inj h
      exact .nil rfl
  | case2 c r hblank ih => exact (ih h).blank hblank
  | case3 => cases h
  | case4 c r _ t rest hnext ih =>
      obtain ⟨ts, hts, rfl⟩ := Option.map_eq_some_iff.1 h
      obtain ⟨w, hw, hcs⟩ := exists_spelling hnext
      rw [hcs]
      exact @Spellings.cons _ [] _ _ _ _ rfl hw (ih hts)

/-- In a value one token may follow the other: what follows a number does not continue it. -/
def MayPrecede (t u : Token) : Prop :=
  (∃ x, t = .number x) → u = .comma ∨ u = .closeBracket ∨ u = .closeBrace

theorem endsNumber_blanks {bs cs : List Char} (hbs : bs.all isBlank) (hcs : EndsNumber cs) :
    EndsNumber (bs ++ cs) := by
  cases bs with
  | nil => exact hcs
  | cons b bs =>
      have hb : isBlank b := (Bool.and_eq_true_iff.1 (List.all_cons.symm.trans hbs)).1
      apply endsNumber_cons
      simp only [isBlank, Bool.or_eq_true, beq_iff_eq] at hb
      rcases hb with ((rfl | rfl) | rfl) | rfl <;> decide

/-- What tokens of a value make up does not continue the token before them. -/
theorem Spellings.fits {t : Token} {ts : List Token} {cs r : List Char}
    (h : Spellings N ts cs) (hchain : (t :: ts).IsChain MayPrecede)
    (hlast : ts = [] → t.Fits r) : t.Fits (cs ++ r) := by
  cases t with
  | number x =>
      cases h with
      | nil hbs => exact endsNumber_blanks hbs (hlast rfl)
      | @cons bs w rest u us hbs hw hrest =>
          rw [List.append_assoc]
          apply endsNumber_blanks hbs
          rcases (List.isChain_cons_cons.1 hchain).1 ⟨x, rfl⟩ with rfl | rfl | rfl <;>
            cases hw <;> exact endsNumber_cons (by decide)
  | _ => trivial

/-- Tokens of a value are found in what they make up, in front of what does not continue the last of
them. -/
theorem scan_append {ts : List Token} {cs r : List Char}
    (h : Spellings Numeral.WellFormed ts cs) (hchain : ts.IsChain MayPrecede)
    (hlast : ∀ t ∈ ts.getLast?, t.Fits r) : scan (cs ++ r) = (scan r).map (ts ++ ·) := by
  induction h with
  | nil hbs =>
      rw [scan_blanks hbs]
      cases scan r <;> rfl
  | @cons bs w rest t ts hbs hw hrest ih =>
      have hfits : t.Fits (rest ++ r) := by
        refine hrest.fits hchain ?_
        rintro rfl
        exact hlast t rfl
      have htail : scan (rest ++ r) = (scan r).map (ts ++ ·) := by
        refine ih hchain.of_cons fun u hu => hlast u ?_
        cases ts with
        | nil => cases hu
        | cons v vs => rwa [List.getLast?_cons_cons]
      rw [List.append_assoc, scan_blanks hbs, List.append_assoc,
        scan_of_next? (next?_spelling hw hfits), htail, Option.map_map]
      rfl

/-- A text with a number that is not well formed has no tokens. -/
theorem spellings_or_scan_eq_none {ts : List Token} {cs : List Char}
    (h : Spellings (fun _ => True) ts cs) (hchain : ts.IsChain MayPrecede) :
    Spellings Numeral.WellFormed ts cs ∨ scan cs = none := by
  induction h with
  | nil hbs => exact .inl (.nil hbs)
  | @cons bs w rest t ts hbs hw hrest ih =>
      have hfits : t.Fits rest := by
        have hfits := hrest.fits (r := []) hchain fun _ => fits_nil t
        rwa [List.append_nil] at hfits
      rcases hw.wellFormed_or with hw | ⟨n, hn, rfl⟩
      · rcases ih hchain.of_cons with hrest | hnone
        · exact .inl (.cons hbs hw hrest)
        · rw [scan_blanks hbs, scan_of_next? (next?_spelling hw hfits), hnone]
          exact .inr rfl
      · obtain ⟨c, cs, hcs, hc⟩ := n.text_eq_cons
        have hnext : next? (n.text ++ rest) = none := by
          rw [next?_numeral, number?_of_not_wellFormed hn]
          rfl
        rw [scan_blanks hbs]
        rw [hcs] at hnext ⊢
        exact .inr (scan_of_next?_none (isBlank_of_starts hc) hnext)

/-- What starts with a number starts with that or another number, whatever follows. -/
theorem scan_append_of_number {x : Option Int} {ts : List Token} {cs : List Char}
    (h : Spellings N (.number x :: ts) cs) (r : List Char) :
    ∃ y us, scan (cs ++ r) = none ∨ scan (cs ++ r) = some (.number y :: us) := by
  cases h with | @cons bs w rest _ _ hbs hw _ =>
  cases hw with | @number n _ =>
  rw [List.append_assoc, scan_blanks hbs, List.append_assoc]
  cases hnumber : number? (n.text ++ (rest ++ r)) with
  | none =>
      have hnext := next?_numeral n (rest ++ r)
      obtain ⟨c, cs, hcs, hc⟩ := n.text_eq_cons
      rw [hnumber, hcs] at hnext
      rw [hcs]
      exact ⟨none, [], .inl (scan_of_next?_none (isBlank_of_starts hc) hnext)⟩
  | some q =>
      have hnext := next?_numeral n (rest ++ r)
      rw [hnumber] at hnext
      rw [scan_of_next? hnext]
      cases scan q.2 with
      | none => exact ⟨none, [], .inl rfl⟩
      | some us => exact ⟨q.1, us, .inr rfl⟩

end Token

end Json

end JournalCache

import JournalCache.Proofs.Text.Blank
import JournalCache.Proofs.Text.Numeral
import JournalCache.Time.Timestamp
import Mathlib.Data.List.Basic

/-!
# The texts that name what a clock shows

`Spells` says how a reading may be written, piece by piece: a year, a month and a day, a time of
day, a fraction of a second and a zone, and what may stand between them. Each reader takes exactly
the piece that it is for off the front of a text (`Reads`): what it takes spells what it finds, and
it takes the whole of a piece, unless the text goes on with something that could belong to it. So a
text is read as a reading exactly if it spells it (`reading?_eq_some_iff`).
-/

namespace JournalCache

namespace Timestamp

open Decimal (Writes)
open Text (AllBlank StartsVisible)

/-! ## The pieces of a timestamp -/

/-- Blanks, perhaps none, and behind them something that `P` holds of. -/
inductive Behind (P : List Char → Prop) : List Char → Prop where
  | mk {b w : List Char} (hb : AllBlank b) (hw : P w) : Behind P (b ++ w)

/-- A year: behind a sign any number of digits, without one at most four. -/
inductive SpellsYear : Int → List Char → Prop where
  | plain {ds : List Char} {n : Nat} (hds : Writes ds n) (hlength : ds.length ≤ 4) :
      SpellsYear n ds
  | plus {ds : List Char} {n : Nat} (hds : Writes ds n) : SpellsYear n ('+' :: ds)
  | minus {ds : List Char} {n : Nat} (hds : Writes ds n) : SpellsYear (-n) ('-' :: ds)

/-- A month, a day, an hour, a minute or a second: one digit or two. -/
def SpellsPart (n : Nat) (ds : List Char) : Prop := Writes ds n ∧ ds.length ≤ 2

/-- One of the characters between the date and the time of day. -/
def IsSeparator (c : Char) : Prop := c = 'T' ∨ c = 't' ∨ c = ' '

/-- The nanoseconds of a second: none, or a dot and digits. The first nine digits count, with zeros
for those that are missing. -/
inductive SpellsFraction : Nat → List Char → Prop where
  | none : SpellsFraction 0 []
  | digits {ds : List Char} {n : Nat} (hne : ds ≠ []) (hds : ∀ d ∈ ds, d.isDigit)
      (hn : Writes ((ds ++ List.replicate 9 '0').take 9) n) : SpellsFraction n ('.' :: ds)

/-- The hours and minutes of an offset, in minutes: two digits and two digits, which any colons and
blanks may part. -/
inductive SpellsOffset : Nat → List Char → Prop where
  | mk {hs ms gap : List Char} {h m : Nat} (hhs : Writes hs h ∧ hs.length = 2 ∧ h < 24)
      (hgap : ∀ c ∈ gap, c = ':' ∨ Text.isBlank c) (hms : Writes ms m ∧ ms.length = 2 ∧ m < 60) :
      SpellsOffset (h * 60 + m) (hs ++ gap ++ ms)

/-- A zone, as the minutes by which it is ahead of UTC. There are two characters for minus. -/
inductive SpellsZone : Int → List Char → Prop where
  | z {c : Char} (hc : c = 'z' ∨ c = 'Z') : SpellsZone 0 [c]
  | utc {u t c : Char} (hu : u = 'u' ∨ u = 'U') (ht : t = 't' ∨ t = 'T') (hc : c = 'c' ∨ c = 'C') :
      SpellsZone 0 [u, t, c]
  | plus {w : List Char} {n : Nat} (hw : SpellsOffset n w) : SpellsZone n ('+' :: w)
  | minus {w : List Char} {n : Nat} {c : Char} (hc : c = '-' ∨ c = '\u2212')
      (hw : SpellsOffset n w) : SpellsZone (-n) (c :: w)

/-- The texts that name what a clock shows: the date, the time of day and the zone. Blanks may stand
before each piece, but not before the separator and the fraction, and at the end. -/
inductive Spells : ClockReading → List Char → Prop where
  | mk {year ahead : Int} {month day hour minute second nanosecond : Nat} {separator : Char}
      {ys hyphen ms hyphen' ds hs colon mins colon' ss fs zs blanks : List Char}
      (hyear : Behind (SpellsYear year) ys)
      (hhyphen : Behind (· = ['-']) hyphen)
      (hmonth : Behind (SpellsPart month) ms)
      (hhyphen' : Behind (· = ['-']) hyphen')
      (hday : Behind (SpellsPart day) ds)
      (hseparator : IsSeparator separator)
      (hhour : Behind (SpellsPart hour) hs)
      (hcolon : Behind (· = [':']) colon)
      (hminute : Behind (SpellsPart minute) mins)
      (hcolon' : Behind (· = [':']) colon')
      (hsecond : Behind (SpellsPart second) ss)
      (hfraction : SpellsFraction nanosecond fs)
      (hzone : Behind (SpellsZone ahead) zs)
      (hblanks : AllBlank blanks) :
      Spells ⟨⟨year, month, day⟩, hour, minute, second, nanosecond, ahead⟩
        (ys ++ hyphen ++ ms ++ hyphen' ++ ds ++ separator :: hs ++ colon ++ mins ++ colon' ++ ss
          ++ fs ++ zs ++ blanks)

/-! ## Readers of pieces -/

/-- The reader takes exactly what `P` says off the front of a text. It takes all of it if `Ends`
holds of what follows. -/
structure Reads {α : Type} (read : List Char → Option (α × List Char)) (P : α → List Char → Prop)
    (Ends : List Char → Prop) : Prop where
  sound {cs r : List Char} {a : α} : read cs = some (a, r) → ∃ w, P a w ∧ cs = w ++ r
  complete {w r : List Char} {a : α} : P a w → Ends r → read (w ++ r) = some (a, r)

namespace Reads

variable {α β : Type} {read : List Char → Option (α × List Char)} {P : α → List Char → Prop}
variable {Q : β → List Char → Prop} {Ends : List Char → Prop}

theorem map (h : Reads read P Ends) (f : α → β) (hPQ : ∀ b w, Q b w ↔ ∃ a, P a w ∧ f a = b) :
    Reads (fun cs => (read cs).map fun (a, r) => (f a, r)) Q Ends where
  sound hmap := by
    obtain ⟨⟨a, r⟩, hread, heq⟩ := Option.map_eq_some_iff.1 hmap
    obtain ⟨hb, rfl⟩ := Prod.mk.inj heq
    obtain ⟨w, hw, hcs⟩ := h.sound hread
    exact ⟨w, (hPQ _ _).2 ⟨a, hw, hb⟩, hcs⟩
  complete hb hr := by
    obtain ⟨a, hw, rfl⟩ := (hPQ _ _).1 hb
    rw [h.complete hw hr]
    rfl

/-- A limit that no piece of the text exceeds is none. -/
theorem unlimited {read : Nat → List Char → Option (α × List Char)}
    (h : ∀ limit, Reads (read limit) (fun a w => P a w ∧ w.length ≤ limit) Ends) :
    Reads (fun cs => read cs.length cs) P Ends where
  sound hread := by
    obtain ⟨w, ⟨hw, -⟩, hcs⟩ := (h _).sound hread
    exact ⟨w, hw, hcs⟩
  complete hw hr :=
    (h _).complete ⟨hw, by rw [List.length_append]; exact Nat.le_add_right _ _⟩ hr

end Reads

def EndsDigits (cs : List Char) : Prop := ∀ c ∈ cs.head?, Decimal.isDigit c = false

def EndsFraction (cs : List Char) : Prop :=
  ∀ c ∈ cs.head?, Decimal.isDigit c = false ∧ c ≠ '.'

theorem EndsFraction.endsDigits {cs : List Char} (h : EndsFraction cs) : EndsDigits cs :=
  fun c hc => (h c hc).1

theorem head?_cons_append {c : Char} {w : List Char} (h : w.head? = some c) (r : List Char) :
    (w ++ r).head? = some c := by
  rw [List.head?_append, h]
  rfl

/-! ### Blanks -/

theorem isBlank_of_isDigit {c : Char} (h : Decimal.isDigit c) : Text.isBlank c = false := by
  simp only [Decimal.isDigit, Bool.and_eq_true, decide_eq_true_eq] at h
  have hlow : 48 ≤ c.toNat := h.1
  have hhigh : c.toNat ≤ 57 := h.2
  simp only [Text.isBlank, Bool.or_eq_false_iff, Bool.and_eq_false_iff, decide_eq_false_iff_not,
    beq_eq_false_iff_ne]
  omega

/-- A piece that starts with no blank is read behind blanks. -/
theorem Reads.behind {α : Type} {read : List Char → Option (α × List Char)}
    {P : α → List Char → Prop} {Ends : List Char → Prop} (h : Reads read P Ends)
    (hvisible : ∀ {a w}, P a w → ∃ c, w.head? = some c ∧ Text.isBlank c = false) :
    Reads (fun cs => read (Text.skipBlanks cs)) (fun a => Behind (P a)) Ends where
  sound {cs r a} hread := by
    obtain ⟨w, hw, hcs⟩ := h.sound hread
    obtain ⟨b, hb, hskip⟩ := Text.exists_skipBlanks cs
    exact ⟨b ++ w, .mk hb hw, by rw [List.append_assoc, ← hcs, ← hskip]⟩
  complete := by
    rintro _ r a ⟨hb, hw⟩ hr
    obtain ⟨c, hc, hblank⟩ := hvisible hw
    have hstarts : StartsVisible (_ ++ r) := fun d hd => by
      rw [head?_cons_append hc] at hd
      exact Option.some.inj hd ▸ hblank
    rw [List.append_assoc, Text.skipBlanks_append hb hstarts, h.complete hw hr]

theorem mark?_eq_some_iff {c : Char} (hc : Text.isBlank c = false) {cs r : List Char} :
    mark? c cs = some r ↔ ∃ w, Behind (· = [c]) w ∧ cs = w ++ r := by
  rw [mark?]
  constructor
  · intro h
    obtain ⟨b, hb, hskip⟩ := Text.exists_skipBlanks cs
    split at h
    · next d r' heq =>
      rw [heq] at hskip
      split at h
      · next hd =>
        obtain rfl := Option.some.inj h
        exact ⟨b ++ [c], .mk hb rfl, by rw [hskip, hd, List.append_assoc]; rfl⟩
      · cases h
    · cases h
  · rintro ⟨_, ⟨hb, rfl⟩, rfl⟩
    have hstarts : StartsVisible (c :: r) := fun d hd => Option.some.inj hd ▸ hc
    rw [List.append_assoc, List.singleton_append, Text.skipBlanks_append hb hstarts]
    exact if_pos rfl

/-! ### Numbers -/

theorem EndsDigits.takeWhile_take {cs : List Char} (h : EndsDigits cs) (n : Nat) :
    (cs.take n).takeWhile Decimal.isDigit = [] := by
  rcases n with _ | n
  · rfl
  · cases cs with
    | nil => rfl
    | cons c cs => exact List.takeWhile_cons_of_neg (by simp [h c rfl])

def AreDigits (ds : List Char) : Prop := ds ≠ [] ∧ ∀ d ∈ ds, Decimal.isDigit d

/-- Up to so many digits are read as they stand. -/
theorem reads_digitRun (limit : Nat) :
    Reads (digitRun? limit) (fun es ds => (AreDigits ds ∧ es = ds) ∧ ds.length ≤ limit)
      EndsDigits where
  sound {cs r ds} h := by
    simp only [digitRun?] at h
    have hprefix := (List.takeWhile_prefix Decimal.isDigit).trans (List.take_prefix limit cs)
    split at h
    · cases h
    · next hne =>
      obtain ⟨rfl, rfl⟩ := Prod.mk.inj (Option.some.inj h)
      refine ⟨_, ⟨⟨⟨by simpa using hne, List.all_eq_true.1 List.all_takeWhile⟩, rfl⟩, ?_⟩, ?_⟩
      · exact ((List.takeWhile_prefix _).length_le).trans (List.length_take_le _ _)
      · exact (List.prefix_iff_eq_append.1 hprefix).symm
  complete := by
    rintro _ r ds ⟨⟨⟨hne, hds⟩, rfl⟩, hle⟩ hr
    have hrun : ((ds ++ r).take limit).takeWhile Decimal.isDigit = ds := by
      rw [List.take_append, List.take_of_length_le hle, List.takeWhile_append_of_pos hds,
        hr.takeWhile_take, List.append_nil]
    rw [digitRun?, hrun, if_neg (by simpa using hne), List.drop_left]

theorem reads_unsigned (limit : Nat) :
    Reads (unsigned? limit) (fun n ds => Writes ds n ∧ ds.length ≤ limit) EndsDigits :=
  (reads_digitRun limit).map Decimal.value fun n ds => by
    rw [Decimal.writes_iff]
    constructor
    · rintro ⟨⟨hne, hds, hn⟩, hle⟩
      exact ⟨ds, ⟨⟨⟨hne, hds⟩, rfl⟩, hle⟩, hn⟩
    · rintro ⟨_, ⟨⟨⟨hne, hds⟩, rfl⟩, hle⟩, hn⟩
      exact ⟨⟨hne, hds, hn⟩, hle⟩

theorem exists_head_of_writes {ds : List Char} {n : Nat} (h : Writes ds n) :
    ∃ c, ds.head? = some c ∧ Decimal.isDigit c := by
  cases ds with
  | nil => exact absurd rfl h.ne_nil
  | cons d ds => exact ⟨d, rfl, h.isDigit d List.mem_cons_self⟩

theorem reads_part : Reads part? (fun n => Behind (SpellsPart n)) EndsDigits :=
  (reads_unsigned 2).behind fun h => by
    obtain ⟨c, hc, hdigit⟩ := exists_head_of_writes h.1
    exact ⟨c, hc, isBlank_of_isDigit hdigit⟩

/-! ### Years -/

theorem signedYear?_of_isDigit {c : Char} (h : Decimal.isDigit c) {cs : List Char}
    (hcs : cs.head? = some c) :
    signedYear? cs = (unsigned? 4 cs).map fun (n, r) => ((n : Int), r) := by
  rw [signedYear?]
  · rintro r rfl
    obtain rfl := Option.some.inj hcs
    exact absurd h (by decide)
  · rintro r rfl
    obtain rfl := Option.some.inj hcs
    exact absurd h (by decide)

/-- Behind a sign a year is read with all its digits. -/
theorem reads_number (f : Nat → Int) :
    Reads (fun cs => (unsigned? cs.length cs).map fun (n, r) => (f n, r))
      (fun y ds => ∃ n, Writes ds n ∧ f n = y) EndsDigits :=
  (Reads.unlimited reads_unsigned).map f fun _ _ => Iff.rfl

/-- Without a sign it has at most four. -/
theorem reads_plainYear :
    Reads (fun cs => (unsigned? 4 cs).map fun (n, r) => ((n : Int), r))
      (fun y ds => ∃ n : Nat, (Writes ds n ∧ ds.length ≤ 4) ∧ (n : Int) = y) EndsDigits :=
  (reads_unsigned 4).map (fun n : Nat => (n : Int)) fun _ _ => Iff.rfl

theorem reads_signedYear : Reads signedYear? SpellsYear EndsDigits where
  sound {cs r y} h := by
    rw [signedYear?.eq_def] at h
    split at h
    · obtain ⟨ds, ⟨n, hds, rfl⟩, rfl⟩ := (reads_number fun n => -(n : Int)).sound h
      exact ⟨_, .minus hds, rfl⟩
    · obtain ⟨ds, ⟨n, hds, rfl⟩, rfl⟩ := (reads_number fun n => (n : Int)).sound h
      exact ⟨_, .plus hds, rfl⟩
    · obtain ⟨ds, ⟨n, ⟨hds, hle⟩, rfl⟩, rfl⟩ := reads_plainYear.sound h
      exact ⟨_, .plain hds hle, rfl⟩
  complete {w r y} hw hr := by
    cases hw with
    | plain hds hle =>
        obtain ⟨c, hc, hdigit⟩ := exists_head_of_writes hds
        rw [signedYear?_of_isDigit hdigit (head?_cons_append hc r)]
        exact reads_plainYear.complete ⟨_, ⟨hds, hle⟩, rfl⟩ hr
    | plus hds => exact (reads_number fun n => (n : Int)).complete ⟨_, hds, rfl⟩ hr
    | minus hds => exact (reads_number fun n => -(n : Int)).complete ⟨_, hds, rfl⟩ hr

theorem reads_year : Reads year? (fun y => Behind (SpellsYear y)) EndsDigits :=
  reads_signedYear.behind fun h => by
    cases h with
    | plain hds _ =>
        obtain ⟨c, hc, hdigit⟩ := exists_head_of_writes hds
        exact ⟨c, hc, isBlank_of_isDigit hdigit⟩
    | plus _ => exact ⟨_, rfl, by decide⟩
    | minus _ => exact ⟨_, rfl, by decide⟩

/-! ### Separators and fractions -/

theorem separator?_eq_some_iff {cs r : List Char} :
    separator? cs = some r ↔ ∃ c, IsSeparator c ∧ cs = c :: r := by
  cases cs with
  | nil => exact iff_of_false nofun nofun
  | cons d cs =>
      rw [separator?]
      split
      · next hd =>
        rw [Option.some.injEq]
        constructor
        · rintro rfl
          exact ⟨d, hd, rfl⟩
        · rintro ⟨c, -, heq⟩
          exact (List.cons.inj heq).2
      · next hd =>
        refine iff_of_false nofun ?_
        rintro ⟨c, hc, heq⟩
        exact hd ((List.cons.inj heq).1 ▸ hc)

theorem nanoseconds_eq (ds : List Char) :
    nanoseconds ds = Decimal.value ((ds ++ List.replicate 9 '0').take 9) := by
  rw [nanoseconds, ← Decimal.value_append_replicate, List.take_append, List.take_replicate,
    List.length_take]
  congr 3
  omega

/-- The first nine digits of a fraction, with zeros behind them, write its nanoseconds. -/
theorem writes_nanoseconds_iff {ds : List Char} (hds : AreDigits ds) {n : Nat} :
    Writes ((ds ++ List.replicate 9 '0').take 9) n ↔ nanoseconds ds = n := by
  rw [Decimal.writes_iff, nanoseconds_eq]
  refine ⟨fun h => h.2.2, fun h => ⟨?_, fun d hd => ?_, h⟩⟩
  · refine List.ne_nil_of_length_pos ?_
    rw [List.length_take, List.length_append, List.length_replicate]
    omega
  · rcases List.mem_append.1 (List.mem_of_mem_take hd) with hd | hd
    · exact hds.2 d hd
    · rw [(List.mem_replicate.1 hd).2]
      rfl

theorem fraction?_of_ne {cs : List Char} (h : ∀ r, cs ≠ '.' :: r) :
    fraction? cs = some (0, cs) := by
  rw [fraction?]
  exact h

theorem reads_digits :
    Reads (fun cs => (digitRun? cs.length cs).map fun (ds, r) => (nanoseconds ds, r))
      (fun n ds => AreDigits ds ∧ nanoseconds ds = n) EndsDigits :=
  (Reads.unlimited reads_digitRun).map nanoseconds fun n ds => by
    constructor
    · rintro ⟨hds, hn⟩
      exact ⟨ds, ⟨hds, rfl⟩, hn⟩
    · rintro ⟨_, ⟨hds, rfl⟩, hn⟩
      exact ⟨hds, hn⟩

theorem reads_fraction : Reads fraction? SpellsFraction EndsFraction where
  sound {cs r n} h := by
    by_cases hdot : ∃ cs', cs = '.' :: cs'
    · obtain ⟨cs, rfl⟩ := hdot
      obtain ⟨ds, ⟨hds, hn⟩, rfl⟩ := reads_digits.sound h
      exact ⟨_, .digits hds.1 hds.2 ((writes_nanoseconds_iff hds).2 hn), rfl⟩
    · rw [fraction?_of_ne (not_exists.1 hdot)] at h
      obtain ⟨rfl, rfl⟩ := Prod.mk.inj (Option.some.inj h)
      exact ⟨[], .none, rfl⟩
  complete {w r n} hw hr := by
    cases hw with
    | none =>
        refine fraction?_of_ne ?_
        rintro r' rfl
        exact (hr '.' rfl).2 rfl
    | @digits ds n hne hds hn =>
        exact reads_digits.complete ⟨⟨hne, hds⟩, (writes_nanoseconds_iff ⟨hne, hds⟩).1 hn⟩
          hr.endsDigits

/-! ### Zones -/

theorem isLetter_iff {lower upper c : Char} : isLetter lower upper c ↔ c = lower ∨ c = upper := by
  rw [isLetter, Bool.or_eq_true, beq_iff_eq, beq_iff_eq]

theorem reads_pair (bound : Nat) :
    Reads (pair? bound) (fun n ds => Writes ds n ∧ ds.length = 2 ∧ n < bound) fun _ => True where
  sound {cs r n} h := by
    rw [pair?.eq_def] at h
    split at h
    · next a b r' =>
      split at h
      · next hab =>
        obtain ⟨rfl, rfl⟩ := Prod.mk.inj (Option.some.inj h)
        simp only [Bool.and_eq_true, decide_eq_true_eq] at hab
        obtain ⟨⟨ha, hb⟩, hlt⟩ := hab
        refine ⟨[a, b], ⟨Decimal.writes_iff.2 ⟨nofun, ?_, rfl⟩, rfl, hlt⟩, rfl⟩
        simp [ha, hb]
      · cases h
    · cases h
  complete := by
    rintro w r n ⟨hw, hlength, hlt⟩ -
    obtain ⟨a, b, rfl⟩ := List.length_eq_two.1 hlength
    obtain ⟨-, hdigits, rfl⟩ := Decimal.writes_iff.1 hw
    have ha := hdigits a List.mem_cons_self
    have hb := hdigits b (List.mem_cons_of_mem _ List.mem_cons_self)
    exact if_pos (by simp [ha, hb, hlt])

theorem exists_skipColons (cs : List Char) :
    ∃ gap, (∀ c ∈ gap, c = ':' ∨ Text.isBlank c) ∧ cs = gap ++ skipColons cs := by
  refine ⟨cs.takeWhile fun c => c == ':' || Text.isBlank c, fun c hc => ?_,
    List.takeWhile_append_dropWhile.symm⟩
  have hall := List.all_eq_true.1 List.all_takeWhile c hc
  simpa using hall

theorem skipColons_append {gap w : List Char} {c : Char}
    (hgap : ∀ c ∈ gap, c = ':' ∨ Text.isBlank c) (hw : w.head? = some c)
    (hc : Decimal.isDigit c) : skipColons (gap ++ w) = w := by
  rw [skipColons, List.dropWhile_append_of_pos fun d hd => by simpa using hgap d hd]
  cases w with
  | nil => rfl
  | cons d w =>
      obtain rfl := Option.some.inj hw
      have hcolon : d ≠ ':' := fun h => absurd (h ▸ hc) (by decide)
      exact List.dropWhile_cons_of_neg (by simp [hcolon, isBlank_of_isDigit hc])

theorem reads_offset : Reads offset? SpellsOffset fun _ => True where
  sound {cs r n} h := by
    obtain ⟨⟨hours, cs'⟩, hhours, h⟩ := Option.bind_eq_some_iff.1 h
    obtain ⟨⟨minutes, r'⟩, hminutes, h⟩ := Option.bind_eq_some_iff.1 h
    obtain ⟨rfl, rfl⟩ := Prod.mk.inj (Option.some.inj h)
    obtain ⟨hs, hhs, rfl⟩ := (reads_pair 24).sound hhours
    obtain ⟨ms, hms, hskip⟩ := (reads_pair 60).sound hminutes
    obtain ⟨gap, hgap, hcs⟩ := exists_skipColons cs'
    refine ⟨_, .mk hhs hgap hms, ?_⟩
    rw [List.append_assoc, List.append_assoc, ← hskip, ← hcs]
  complete := by
    rintro _ r n ⟨hhs, hgap, hms⟩ -
    obtain ⟨c, hc, hdigit⟩ := exists_head_of_writes hms.1
    simp only [List.append_assoc, offset?, (reads_pair 24).complete hhs trivial,
      Option.bind_eq_bind, Option.bind_some, skipColons_append hgap (head?_cons_append hc r) hdigit,
      (reads_pair 60).complete hms trivial]
    rfl

/-- Behind a sign stands an offset. -/
theorem reads_shift (f : Nat → Int) :
    Reads (fun cs => (offset? cs).map fun (n, r) => (f n, r))
      (fun a w => ∃ n, SpellsOffset n w ∧ f n = a) fun _ => True :=
  reads_offset.map f fun _ _ => Iff.rfl

theorem reads_zone : Reads zone? SpellsZone fun _ => True where
  sound {cs r n} h := by
    rw [zone?.eq_def] at h
    split at h
    · obtain ⟨w, ⟨n, hw, rfl⟩, rfl⟩ := (reads_shift fun n => (n : Int)).sound h
      exact ⟨_, .plus hw, rfl⟩
    · obtain ⟨w, ⟨n, hw, rfl⟩, rfl⟩ := (reads_shift fun n => -(n : Int)).sound h
      exact ⟨_, .minus (.inl rfl) hw, rfl⟩
    · obtain ⟨w, ⟨n, hw, rfl⟩, rfl⟩ := (reads_shift fun n => -(n : Int)).sound h
      exact ⟨_, .minus (.inr rfl) hw, rfl⟩
    · split at h
      · next hz =>
        obtain ⟨rfl, rfl⟩ := Prod.mk.inj (Option.some.inj h)
        exact ⟨_, .z (isLetter_iff.1 hz), rfl⟩
      · split at h
        · split at h
          · next hutc =>
            obtain ⟨rfl, rfl⟩ := Prod.mk.inj (Option.some.inj h)
            simp only [Bool.and_eq_true, isLetter_iff] at hutc
            exact ⟨_, .utc hutc.1.1 hutc.1.2 hutc.2, rfl⟩
          · cases h
        · cases h
    · cases h
  complete := by
    rintro w r n hw -
    cases hw with
    | z hc => rcases hc with rfl | rfl <;> rfl
    | utc hu ht hc =>
        rcases hu with rfl | rfl <;> rcases ht with rfl | rfl <;> rcases hc with rfl | rfl <;> rfl
    | plus hw => exact (reads_shift fun n => (n : Int)).complete ⟨_, hw, rfl⟩ trivial
    | minus hc hw =>
        rcases hc with rfl | rfl
        · exact (reads_shift fun n => -(n : Int)).complete ⟨_, hw, rfl⟩ trivial
        · exact (reads_shift fun n => -(n : Int)).complete ⟨_, hw, rfl⟩ trivial

/-- A zone starts with none of the characters that could stand before it. -/
theorem SpellsZone.exists_head {n : Int} {w : List Char} (h : SpellsZone n w) :
    ∃ c, w.head? = some c ∧ Text.isBlank c = false ∧ Decimal.isDigit c = false ∧ c ≠ '.' := by
  cases h with
  | z hc => exact ⟨_, rfl, by rcases hc with rfl | rfl <;> decide⟩
  | utc hu _ _ => exact ⟨_, rfl, by rcases hu with rfl | rfl <;> decide⟩
  | plus _ => exact ⟨_, rfl, by decide⟩
  | minus hc _ => exact ⟨_, rfl, by rcases hc with rfl | rfl <;> decide⟩

theorem reads_zone_behind :
    Reads (fun cs => zone? (Text.skipBlanks cs)) (fun n => Behind (SpellsZone n)) fun _ => True :=
  reads_zone.behind fun h => by
    obtain ⟨c, hc, hblank, -⟩ := h.exists_head
    exact ⟨c, hc, hblank⟩

/-! ## Whole timestamps -/

/-- A piece behind blanks starts with a blank or as the piece does. -/
theorem Behind.mem_head? {P : List Char → Prop} (hP : ∀ v, P v → v ≠ []) {w : List Char}
    (h : Behind P w) {r : List Char} {c : Char} (hc : c ∈ (w ++ r).head?) :
    Text.isBlank c ∨ ∃ v, P v ∧ c ∈ v.head? := by
  cases h with
  | @mk b v hb hv =>
      cases b with
      | cons d b =>
          obtain rfl := Option.some.inj hc
          exact .inl (hb d List.mem_cons_self)
      | nil =>
          cases v with
          | nil => exact absurd rfl (hP _ hv)
          | cons d v => exact .inr ⟨d :: v, hv, hc⟩

theorem endsDigits_mark {c : Char} (hc : Decimal.isDigit c = false) {w : List Char}
    (h : Behind (· = [c]) w) (r : List Char) : EndsDigits (w ++ r) := by
  intro d hd
  rcases h.mem_head? (by rintro _ rfl; exact nofun) hd with hblank | ⟨_, rfl, hd⟩
  · exact Bool.eq_false_iff.2 fun h => by rw [isBlank_of_isDigit h] at hblank; cases hblank
  · exact Option.some.inj hd ▸ hc

theorem endsFraction_zone {n : Int} {w : List Char} (h : Behind (SpellsZone n) w)
    (r : List Char) : EndsFraction (w ++ r) := by
  have hne : ∀ v, SpellsZone n v → v ≠ [] := by
    rintro v hv rfl
    obtain ⟨c, hc, -⟩ := hv.exists_head
    cases hc
  intro d hd
  rcases h.mem_head? hne hd with hblank | ⟨v, hv, hd⟩
  · refine ⟨Bool.eq_false_iff.2 fun h => ?_, ?_⟩
    · rw [isBlank_of_isDigit h] at hblank
      cases hblank
    · rintro rfl
      exact absurd hblank (by decide)
  · obtain ⟨c, hc, -, hends⟩ := hv.exists_head
    rw [hc] at hd
    exact Option.some.inj hd ▸ hends

theorem endsDigits_fraction {n : Nat} {w r : List Char} (h : SpellsFraction n w)
    (hr : EndsFraction r) : EndsDigits (w ++ r) := by
  cases h with
  | none => exact hr.endsDigits
  | digits _ _ _ => exact fun d hd => Option.some.inj hd ▸ by decide

theorem endsDigits_separator {c : Char} (h : IsSeparator c) (r : List Char) :
    EndsDigits (c :: r) := by
  intro d hd
  obtain rfl := Option.some.inj hd
  rcases h with rfl | rfl | rfl <;> decide

theorem isEmpty_skipBlanks_iff {cs : List Char} : (Text.skipBlanks cs).isEmpty ↔ AllBlank cs := by
  rw [List.isEmpty_iff, Text.skipBlanks_eq_iff]
  constructor
  · rintro ⟨-, b, hb, rfl⟩
    rwa [List.append_nil]
  · exact fun h => ⟨nofun, cs, h, (List.append_nil cs).symm⟩

theorem spells_of_reading? {cs : List Char} {r : ClockReading} (h : reading? cs = some r) :
    Spells r cs := by
  -- what each reader found and left, and then what it took
  obtain ⟨⟨year, cs₁⟩, ryear, h⟩ := Option.bind_eq_some_iff.1 h
  obtain ⟨cs₂, rhyphen, h⟩ := Option.bind_eq_some_iff.1 h
  obtain ⟨⟨month, cs₃⟩, rmonth, h⟩ := Option.bind_eq_some_iff.1 h
  obtain ⟨cs₄, rhyphen', h⟩ := Option.bind_eq_some_iff.1 h
  obtain ⟨⟨day, cs₅⟩, rday, h⟩ := Option.bind_eq_some_iff.1 h
  obtain ⟨cs₆, rseparator, h⟩ := Option.bind_eq_some_iff.1 h
  obtain ⟨⟨hour, cs₇⟩, rhour, h⟩ := Option.bind_eq_some_iff.1 h
  obtain ⟨cs₈, rcolon, h⟩ := Option.bind_eq_some_iff.1 h
  obtain ⟨⟨minute, cs₉⟩, rminute, h⟩ := Option.bind_eq_some_iff.1 h
  obtain ⟨cs₁₀, rcolon', h⟩ := Option.bind_eq_some_iff.1 h
  obtain ⟨⟨second, cs₁₁⟩, rsecond, h⟩ := Option.bind_eq_some_iff.1 h
  obtain ⟨⟨nanosecond, cs₁₂⟩, rfraction, h⟩ := Option.bind_eq_some_iff.1 h
  obtain ⟨⟨ahead, blanks⟩, rzone, hend⟩ := Option.bind_eq_some_iff.1 h
  obtain ⟨ys, hyear, rfl⟩ := reads_year.sound ryear
  obtain ⟨hyphen, hhyphen, rfl⟩ := (mark?_eq_some_iff (by decide)).1 rhyphen
  obtain ⟨ms, hmonth, rfl⟩ := reads_part.sound rmonth
  obtain ⟨hyphen', hhyphen', rfl⟩ := (mark?_eq_some_iff (by decide)).1 rhyphen'
  obtain ⟨ds, hday, rfl⟩ := reads_part.sound rday
  obtain ⟨separator, hseparator, rfl⟩ := separator?_eq_some_iff.1 rseparator
  obtain ⟨hs, hhour, rfl⟩ := reads_part.sound rhour
  obtain ⟨colon, hcolon, rfl⟩ := (mark?_eq_some_iff (by decide)).1 rcolon
  obtain ⟨mins, hminute, rfl⟩ := reads_part.sound rminute
  obtain ⟨colon', hcolon', rfl⟩ := (mark?_eq_some_iff (by decide)).1 rcolon'
  obtain ⟨ss, hsecond, rfl⟩ := reads_part.sound rsecond
  obtain ⟨fs, hfraction, rfl⟩ := reads_fraction.sound rfraction
  obtain ⟨zs, hzone, rfl⟩ := reads_zone_behind.sound rzone
  obtain ⟨hblanks, hr⟩ := Option.ite_none_right_eq_some.1 hend
  obtain rfl := Option.some.inj hr
  have hall := Spells.mk hyear hhyphen hmonth hhyphen' hday hseparator hhour hcolon hminute
    hcolon' hsecond hfraction hzone (isEmpty_skipBlanks_iff.1 hblanks)
  simpa only [List.append_assoc, List.cons_append] using hall

theorem reading?_of_spells {cs : List Char} {r : ClockReading} (h : Spells r cs) :
    reading? cs = some r := by
  cases h with
  | mk hyear hhyphen hmonth hhyphen' hday hseparator hhour hcolon hminute hcolon' hsecond hfraction
      hzone hblanks =>
    have hends := fun r => endsFraction_zone hzone r
    have hmark : ∀ {c : Char} {w : List Char} (_ : Text.isBlank c = false)
        (_ : Behind (· = [c]) w) (r : List Char), mark? c (w ++ r) = some r :=
      fun hc hw r => (mark?_eq_some_iff hc).2 ⟨_, hw, rfl⟩
    simp only [List.append_assoc, List.cons_append]
    -- no piece is followed by anything that could belong to it
    refine Option.bind_eq_some_iff.2
      ⟨_, reads_year.complete hyear (endsDigits_mark (by decide) hhyphen _), ?_⟩
    refine Option.bind_eq_some_iff.2 ⟨_, hmark (by decide) hhyphen _, ?_⟩
    refine Option.bind_eq_some_iff.2
      ⟨_, reads_part.complete hmonth (endsDigits_mark (by decide) hhyphen' _), ?_⟩
    refine Option.bind_eq_some_iff.2 ⟨_, hmark (by decide) hhyphen' _, ?_⟩
    refine Option.bind_eq_some_iff.2
      ⟨_, reads_part.complete hday (endsDigits_separator hseparator _), ?_⟩
    refine Option.bind_eq_some_iff.2 ⟨_, separator?_eq_some_iff.2 ⟨_, hseparator, rfl⟩, ?_⟩
    refine Option.bind_eq_some_iff.2
      ⟨_, reads_part.complete hhour (endsDigits_mark (by decide) hcolon _), ?_⟩
    refine Option.bind_eq_some_iff.2 ⟨_, hmark (by decide) hcolon _, ?_⟩
    refine Option.bind_eq_some_iff.2
      ⟨_, reads_part.complete hminute (endsDigits_mark (by decide) hcolon' _), ?_⟩
    refine Option.bind_eq_some_iff.2 ⟨_, hmark (by decide) hcolon' _, ?_⟩
    refine Option.bind_eq_some_iff.2
      ⟨_, reads_part.complete hsecond (endsDigits_fraction hfraction (hends _)), ?_⟩
    refine Option.bind_eq_some_iff.2 ⟨_, reads_fraction.complete hfraction (hends _), ?_⟩
    refine Option.bind_eq_some_iff.2 ⟨_, reads_zone_behind.complete hzone trivial, ?_⟩
    exact if_pos (isEmpty_skipBlanks_iff.2 hblanks)

/-- A text is read as what a clock shows exactly if it names it. -/
theorem reading?_eq_some_iff {cs : List Char} {r : ClockReading} :
    reading? cs = some r ↔ Spells r cs :=
  ⟨spells_of_reading?, reading?_of_spells⟩

end Timestamp

end JournalCache

import JournalCache.Proofs.Text.Blank
import JournalCache.Proofs.Text.Lowercase
import JournalCache.Proofs.Text.Numeral
import JournalCache.Settings.Environment
import JournalCache.Site

/-!
# What the environment can ask for

Each setting follows from its own variable. A duration is given by a numeral that fits in 64 bits
and by nothing else (`duration?_eq_some_iff`); a flag is on for two words that may have blanks
around them (`flag_eq_true_iff`). So a limit that nobody asked for never comes out of a text that is
not a numeral, and the only settings that are refused are those with a numeral of value zero: they
are refused by every site, whatever its journal would have said.
-/

namespace JournalCache

namespace Environment

variable {value : Option ByteArray} {s : String} {d : Duration} {n : Nat}

/-! ## Texts -/

def Holds (value : Option ByteArray) (s : String) : Prop := value = some s.toUTF8

theorem text?_eq_some_iff : text? value = some s ↔ Holds value s := by
  rw [text?, Holds, Option.bind_eq_some_iff]
  constructor
  · rintro ⟨bytes, rfl, h⟩
    rw [String.fromUTF8?] at h
    split at h
    · cases h
      rfl
    · cases h
  · rintro rfl
    exact ⟨_, rfl, dif_pos s.isValidUTF8⟩

theorem Holds.unique {t : String} (hs : Holds value s) (ht : Holds value t) : s = t :=
  String.toByteArray_inj.1 (Option.some.inj (hs.symm.trans ht))

/-! ## Durations -/

/-- The variable holds a numeral: digits, with one plus sign in front or none. -/
def HoldsNumeral (value : Option ByteArray) (n : Nat) : Prop :=
  ∃ s ds, Holds value s ∧ Decimal.Writes ds n ∧ (s.toList = ds ∨ s.toList = '+' :: ds)

theorem holdsNumeral_iff :
    HoldsNumeral value n ↔ ∃ s, Holds value s ∧ Decimal.unsigned? s.toList = some n := by
  simp only [HoldsNumeral, Decimal.unsigned?_eq_some_iff, exists_and_left]

theorem HoldsNumeral.unique {m : Nat} (hm : HoldsNumeral value m) (hn : HoldsNumeral value n) :
    m = n := by
  obtain ⟨s, hs, hm⟩ := holdsNumeral_iff.1 hm
  obtain ⟨t, ht, hn⟩ := holdsNumeral_iff.1 hn
  rw [hs.unique ht, hn] at hm
  exact (Option.some.inj hm).symm

/-- The duration that a variable asks for: a number of milliseconds, if it holds a numeral that is
not too large, else the standard one. -/
def AsksFor (value : Option ByteArray) (standard d : Duration) : Prop :=
  (∃ n ≤ 18446744073709551615, HoldsNumeral value n ∧ d = .ofMilliseconds n) ∨
    (¬ ∃ n ≤ 18446744073709551615, HoldsNumeral value n) ∧ d = standard

theorem duration?_eq_some_iff :
    duration? s = some d ↔ ∃ n ≤ 18446744073709551615,
      (∃ ds, Decimal.Writes ds n ∧ (s.toList = ds ∨ s.toList = '+' :: ds)) ∧
        d = .ofMilliseconds n := by
  simp only [duration?, ← Decimal.unsigned?_eq_some_iff]
  cases Decimal.unsigned? s.toList with
  | none => simp
  | some m =>
      have hlt : m < UInt64.size ↔ m ≤ 18446744073709551615 := Nat.lt_succ_iff
      simp only [hlt]
      split
      · next h => simp [h, eq_comm]
      · next h => simp [h]

theorem bind_duration?_eq_some_iff :
    (text? value).bind duration? = some d ↔
      ∃ n ≤ 18446744073709551615, HoldsNumeral value n ∧ d = .ofMilliseconds n := by
  simp only [Option.bind_eq_some_iff, text?_eq_some_iff, duration?_eq_some_iff, HoldsNumeral]
  constructor
  · rintro ⟨s, hs, n, hn, ⟨ds, hds⟩, hd⟩
    exact ⟨n, hn, ⟨s, ds, hs, hds⟩, hd⟩
  · rintro ⟨n, hn, ⟨s, ds, hs, hds⟩, hd⟩
    exact ⟨s, hs, n, hn, ⟨ds, hds⟩, hd⟩

theorem asksFor_getD (value : Option ByteArray) (standard : Duration) :
    AsksFor value standard (((text? value).bind duration?).getD standard) := by
  cases h : (text? value).bind duration? with
  | some d => exact .inl (bind_duration?_eq_some_iff.1 h)
  | none =>
      refine .inr ⟨?_, rfl⟩
      rintro ⟨n, hn, hvalue⟩
      have hsome := bind_duration?_eq_some_iff.2 ⟨n, hn, hvalue, rfl⟩
      rw [h] at hsome
      cases hsome

/-! ## Flags -/

theorem lowerLetter_eq_toLower (c : Char) : lowerLetter c = c.toLower := by
  rw [lowerLetter]
  split
  · next h => exact (Text.toLower_of_capital h).symm
  · next h => exact (Text.toLower_of_not_capital h).symm

/-- The text without the blanks around it is one of the two words for a flag that is on. -/
def SaysOn (s : String) : Prop :=
  ∃ t : String, Text.IsTrimmed s.toList t.toList ∧ (t = "1" ∨ Text.EqIgnoringCase t "true")

theorem flag_eq_true_iff : flag s = true ↔ SaysOn s := by
  have hlower : lowerLetter = Char.toLower := funext lowerLetter_eq_toLower
  have hone : ∀ t : String, t = "1" ↔ t.toList = ['1'] := fun t => String.toList_inj.symm
  have htrue : ∀ t : String, Text.EqIgnoringCase t "true" ↔
      t.toList.map Char.toLower = ['t', 'r', 'u', 'e'] := fun t => Text.eqIgnoringCase_iff
  simp only [flag, SaysOn, Bool.or_eq_true, beq_iff_eq, hlower, ← Text.trimBlanks_eq_iff, hone,
    htrue]
  constructor
  · intro h
    exact ⟨String.ofList (Text.trimBlanks s.toList), String.toList_ofList.symm,
      by rw [String.toList_ofList]; exact h.symm⟩
  · rintro ⟨t, ht, h⟩
    rw [ht]
    exact h.symm

/-! ## Settings that are refused -/

/-- The settings are refused with this fault: a duration is given by a numeral of value zero, and if
both are, the wait of queries is named. -/
def IsRefused (e : Environment) (f : Fault) : Prop :=
  HoldsNumeral e.fetchWait 0 ∧
      f = .invalidValue "max_fetch_wait" "0ns" "max_fetch_wait must be positive" ∨
    ¬ HoldsNumeral e.fetchWait 0 ∧ HoldsNumeral e.closeWait 0 ∧
      f = .invalidValue "close_timeout" "0ns" "close_timeout must be positive"

/-- Only a numeral of value zero asks for no time at all. -/
theorem AsksFor.eq_zero_iff {standard : Duration} (h : AsksFor value standard d)
    (hstandard : standard.nanoseconds ≠ 0) : d.nanoseconds = 0 ↔ HoldsNumeral value 0 := by
  rcases h with ⟨n, hn, hvalue, rfl⟩ | ⟨hnone, rfl⟩
  · have hzero : n * 1000000 = 0 ↔ n = 0 := by omega
    refine hzero.trans ⟨?_, fun h => hvalue.unique h⟩
    rintro rfl
    exact hvalue
  · exact iff_of_false hstandard fun hzero => hnone ⟨0, Nat.zero_le _, hzero⟩

theorem text_zero : (Duration.mk 0).text = "0ns" := by
  have hdecimal : Duration.decimal 0 0 = ['0'] := by
    simp [Duration.decimal, Decimal.digits_zero]
  simp [Duration.text, hdecimal]

theorem validate_eq_error_iff (settings : Settings) (f : Fault) :
    settings.validate = .error f ↔
      settings.fetchWait.nanoseconds = 0 ∧ f = Settings.zeroDuration "max_fetch_wait" ∨
        settings.fetchWait.nanoseconds ≠ 0 ∧ settings.closeWait.nanoseconds = 0 ∧
          f = Settings.zeroDuration "close_timeout" := by
  rw [Settings.validate]
  split
  · next h => simp [h, eq_comm]
  · next h =>
    split
    · next hclose => simp [h, hclose, eq_comm]
    · next hclose => simp [h, hclose]

theorem isRefused_iff (e : Environment) (f : Fault) :
    e.settings.validate = .error f ↔ e.IsRefused f := by
  have hfetch : e.settings.fetchWait.nanoseconds = 0 ↔ HoldsNumeral e.fetchWait 0 :=
    (asksFor_getD e.fetchWait Settings.standard.fetchWait).eq_zero_iff (by decide)
  have hclose : e.settings.closeWait.nanoseconds = 0 ↔ HoldsNumeral e.closeWait 0 :=
    (asksFor_getD e.closeWait Settings.standard.closeWait).eq_zero_iff (by decide)
  rw [validate_eq_error_iff, Ne, hfetch, hclose, Settings.zeroDuration, Settings.zeroDuration,
    text_zero]
  rfl

/-- A cache is refused for its settings before the journal is asked for anything, so whatever the
journal would say. -/
theorem start_eq_error_iff (site : Site) (settings : Settings) (isQuiet : Bool)
    (field text reason : String) :
    site.start settings isQuiet = .error (.invalidValue field text reason) ↔
      settings.validate = .error (.invalidValue field text reason) := by
  unfold Site.start
  cases hvalid : settings.validate with
  | error f =>
      change (Except.error f : Except Fault Site) = _ ↔ _
      rw [Except.error.injEq, Except.error.injEq]
  | ok =>
      refine iff_of_false ?_ nofun
      change (site.journal.journal.subscribe site.members.length >>= _) ≠ _
      rw [Journal.subscribe]
      split <;> nofun

/-! ## All settings -/

/-- What the environment makes of the settings of a cache. -/
structure Configures (e : Environment) : Prop where
  fetchWait : AsksFor e.fetchWait (.ofMilliseconds 60000) e.settings.fetchWait
  closeWait : AsksFor e.closeWait (.ofMilliseconds 5000) e.settings.closeWait
  /-- Queues are registered if the variable is not set or holds no text. -/
  registers : (¬ ∃ s, Holds e.registersQueues s) → e.settings.registersQueues = true
  /-- Else they are registered exactly if the text says so. -/
  registers_iff : ∀ s, Holds e.registersQueues s → (e.settings.registersQueues = true ↔ SaysOn s)
  /-- The settings are valid unless a duration is given by a numeral of value zero. -/
  validates : ∀ f, e.settings.validate = .error f ↔ e.IsRefused f
  /-- No site starts a cache with settings that are not valid, whatever state its journal is in, and
  none refuses others for what they are. -/
  starts : ∀ (site : Site) (isQuiet : Bool) (field text reason : String),
    site.start e.settings isQuiet = .error (.invalidValue field text reason) ↔
      e.IsRefused (.invalidValue field text reason)

theorem configures (e : Environment) : e.Configures where
  fetchWait := asksFor_getD e.fetchWait _
  closeWait := asksFor_getD e.closeWait _
  registers h := by
    have hnone : text? e.registersQueues = none :=
      Option.eq_none_iff_forall_ne_some.2 fun s hs => h ⟨s, text?_eq_some_iff.1 hs⟩
    rw [settings, hnone]
    rfl
  registers_iff s hs := by
    rw [settings, text?_eq_some_iff.2 hs]
    exact flag_eq_true_iff
  validates := isRefused_iff e
  starts site isQuiet field text reason :=
    (start_eq_error_iff site _ isQuiet field text reason).trans (isRefused_iff e _)

end Environment

end JournalCache

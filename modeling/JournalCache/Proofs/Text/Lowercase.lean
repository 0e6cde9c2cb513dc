import JournalCache.Text.Lowercase

/-!
# Which texts have ASCII words as their lower case

The lower case of an ASCII text is that text with its capitals made small, letter by letter
(`lowerFrom_of_ascii`). Every other character leaves a trace in the lower case of a text: a
character outside of ASCII, or the `k` that the Kelvin sign becomes (`exists_mem_lowerFrom`). So the
texts whose lower case is a given word of ASCII without `k` are the spellings of that word that
differ in the case of ASCII letters (`lower_eq_iff`), although the lower case of a text may be
longer than the text and a sigma is lowered according to what stands around it.
-/

namespace JournalCache

namespace Text

/-- The two texts are the same but for the case of the letters A to Z, which are the only ones that
`String.toLower` changes. -/
def EqIgnoringCase (s t : String) : Prop := s.toLower = t.toLower

theorem eqIgnoringCase_iff {s t : String} :
    EqIgnoringCase s t ↔ s.toList.map Char.toLower = t.toList.map Char.toLower := by
  have htoList : ∀ u : String, u.toLower.toList = u.toList.map Char.toLower := fun u =>
    String.toList_map
  rw [EqIgnoringCase, ← String.toList_inj, htoList, htoList]

/-! ## The runs -/

/-- The capitals of ASCII. -/
def asciiRun : CaseRun := ⟨0x41, 0x5A, 1, 0x61⟩

def kelvinRun : CaseRun := ⟨0x212A, 0x212A, 1, 0x6B⟩

/-- The run lies outside of ASCII, and so do its lower cases, which are code points of
characters. -/
def CaseRun.IsForeign (r : CaseRun) : Prop :=
  128 ≤ r.first ∧ 128 ≤ r.image ∧
    (r.lower r.last < 0xD800 ∨ 0xDFFF < r.image ∧ r.lower r.last < 0x110000)

instance (r : CaseRun) : Decidable r.IsForeign := inferInstanceAs (Decidable (_ ∧ _))

theorem caseRuns_cases {r : CaseRun} (h : r ∈ caseRuns) :
    r = asciiRun ∨ r = kelvinRun ∨ r.IsForeign :=
  (by decide +kernel : ∀ r ∈ caseRuns, r = asciiRun ∨ r = kelvinRun ∨ r.IsForeign) r h

theorem CaseRun.bounds {r : CaseRun} {n : Nat} (h : r.holds n) : r.first ≤ n ∧ n ≤ r.last := by
  simp only [CaseRun.holds, Bool.and_eq_true, decide_eq_true_eq] at h
  exact h.1

/-- The code point of a lower case is one of a character. -/
theorem CaseRun.IsForeign.toNat_ofNat {r : CaseRun} (hr : r.IsForeign) {n : Nat} (h : r.holds n) :
    128 ≤ (Char.ofNat (r.lower n)).toNat := by
  obtain ⟨hfirst, himage, hvalid⟩ := hr
  obtain ⟨hle, hge⟩ := CaseRun.bounds h
  simp only [CaseRun.lower] at hvalid ⊢
  have hchar : (r.image + (n - r.first)).isValidChar := by
    simp only [Nat.isValidChar]
    omega
  rw [Char.ofNat, dif_pos hchar]
  exact Nat.le_add_right_of_le himage

/-! ## Single characters -/

theorem toLower_of_capital {c : Char} (h : 65 ≤ c.toNat ∧ c.toNat ≤ 90) :
    c.toLower = Char.ofNat (c.toNat + 32) := by
  have hsmall : ∀ n < 26, (Char.ofNat (65 + n)).toLower = Char.ofNat (65 + n + 32) := by decide
  have hc := hsmall (c.toNat - 65) (by omega)
  rwa [Nat.add_sub_cancel' h.1, Char.ofNat_toNat] at hc

theorem toLower_of_not_capital {c : Char} (h : ¬ (65 ≤ c.toNat ∧ c.toNat ≤ 90)) :
    c.toLower = c := dif_neg h

/-- The lower case of a character is found in its run, or it is the character itself. -/
theorem lowerChar_cases {c : Char} (h : c ≠ '\u0130') :
    (∃ r ∈ caseRuns, r.holds c.toNat ∧ lowerChar c = [Char.ofNat (r.lower c.toNat)]) ∨
      (∀ r ∈ caseRuns, ¬ r.holds c.toNat) ∧ lowerChar c = [c] := by
  rw [lowerChar, if_neg h]
  cases hfind : caseRuns.find? fun r => r.holds c.toNat with
  | some r =>
      have hholds := List.find?_some hfind
      exact .inl ⟨r, List.mem_of_find?_eq_some hfind, hholds, rfl⟩
  | none => exact .inr ⟨List.find?_eq_none.1 hfind, rfl⟩

/-- A character of ASCII has the lower case that it has among the letters of ASCII. -/
theorem lowerChar_of_ascii {c : Char} (h : c.toNat < 128) : lowerChar c = [c.toLower] := by
  have hdot : c ≠ '\u0130' := by
    rintro rfl
    exact absurd h (by decide)
  rcases lowerChar_cases hdot with ⟨r, hr, hholds, hlower⟩ | ⟨hnone, hlower⟩
  · have hbounds := CaseRun.bounds hholds
    rcases caseRuns_cases hr with rfl | rfl | hforeign
    · have hcode : asciiRun.lower c.toNat = c.toNat + 32 := by
        simp only [CaseRun.lower, asciiRun] at hbounds ⊢
        omega
      rw [hlower, hcode, toLower_of_capital hbounds]
    · exact absurd h (Nat.not_lt.2 (Nat.le_trans (by decide) hbounds.1))
    · exact absurd h (Nat.not_lt.2 (Nat.le_trans hforeign.1 hbounds.1))
  · have hno : ¬ (65 ≤ c.toNat ∧ c.toNat ≤ 90) := by
      intro hcapital
      exact hnone asciiRun List.mem_cons_self
        (by simp [CaseRun.holds, asciiRun, hcapital, Nat.mod_one])
    rw [hlower, toLower_of_not_capital hno]

/-- Every other character leaves a trace in its lower case. -/
theorem exists_mem_lowerChar {c : Char} (h : 128 ≤ c.toNat) :
    ∃ d ∈ lowerChar c, 128 ≤ d.toNat ∨ d = 'k' := by
  by_cases hdot : c = '\u0130'
  · exact ⟨'\u0307', by simp [lowerChar, hdot], .inl (by decide)⟩
  rcases lowerChar_cases hdot with ⟨r, hr, hholds, hlower⟩ | ⟨-, hlower⟩
  · refine ⟨_, hlower ▸ List.mem_singleton_self _, ?_⟩
    have hbounds := CaseRun.bounds hholds
    rcases caseRuns_cases hr with rfl | rfl | hforeign
    · exact absurd (Nat.le_trans h hbounds.2) (by decide)
    · have hcode : c.toNat = 0x212A := Nat.le_antisymm hbounds.2 hbounds.1
      rw [hcode]
      exact .inr rfl
    · exact .inl (hforeign.toNat_ofNat hholds)
  · exact ⟨c, hlower ▸ List.mem_singleton_self c, .inl h⟩

/-! ## Texts -/

variable {cs w : List Char} {c : Char}

theorem lowerFrom_of_ascii (before : List Char) (h : ∀ c ∈ cs, c.toNat < 128) :
    lowerFrom before cs = cs.map Char.toLower := by
  induction cs generalizing before with
  | nil => rfl
  | cons c cs ih =>
      have hc := h c List.mem_cons_self
      have hsigma : c ≠ '\u03A3' := by
        rintro rfl
        exact absurd hc (by decide)
      rw [lowerFrom, if_neg hsigma, lowerChar_of_ascii hc,
        ih (c :: before) fun d hd => h d (List.mem_cons_of_mem c hd)]
      rfl

theorem lowerSigma_not_ascii (before after : List Char) :
    128 ≤ (lowerSigma before after).toNat := by
  rw [lowerSigma]
  split <;> decide

/-- A character outside of ASCII leaves a trace in the lower case of a text, wherever it stands. -/
theorem exists_mem_lowerFrom (before : List Char) (hc : c ∈ cs) (h : 128 ≤ c.toNat) :
    ∃ d ∈ lowerFrom before cs, 128 ≤ d.toNat ∨ d = 'k' := by
  induction cs generalizing before with
  | nil => cases hc
  | cons e cs ih =>
      rw [lowerFrom]
      rcases List.mem_cons.1 hc with rfl | hc
      · split
        · exact ⟨_, List.mem_cons_self, .inl (lowerSigma_not_ascii before cs)⟩
        · obtain ⟨d, hd, htrace⟩ := exists_mem_lowerChar h
          exact ⟨d, List.mem_append_left _ hd, htrace⟩
      · obtain ⟨d, hd, htrace⟩ := ih (e :: before) hc
        split
        · exact ⟨d, List.mem_cons_of_mem _ hd, htrace⟩
        · exact ⟨d, List.mem_append_right _ hd, htrace⟩

/-- The texts that have a word of ASCII without `k` as their lower case are those of which only the
letters of ASCII have to be made small. -/
theorem lower_eq_iff (hw : ∀ c ∈ w, c.toNat < 128 ∧ c ≠ 'k') :
    lower cs = w ↔ cs.map Char.toLower = w := by
  have hascii : lower cs = w ∨ cs.map Char.toLower = w → ∀ c ∈ cs, c.toNat < 128 := by
    intro h c hc
    refine Nat.not_le.1 fun hforeign => ?_
    rcases h with rfl | rfl
    · obtain ⟨d, hd, htrace⟩ := exists_mem_lowerFrom [] hc hforeign
      obtain ⟨hd128, hdk⟩ := hw d hd
      rcases htrace with htrace | htrace
      · exact Nat.not_lt.2 htrace hd128
      · exact hdk htrace
    · have hlow := (hw _ (List.mem_map_of_mem hc)).1
      rw [toLower_of_not_capital (by omega)] at hlow
      exact Nat.not_lt.2 hforeign hlow
  constructor
  · intro h
    exact (lowerFrom_of_ascii [] (hascii (.inl h))).symm.trans h
  · intro h
    exact (lowerFrom_of_ascii [] (hascii (.inr h))).trans h

end Text

end JournalCache

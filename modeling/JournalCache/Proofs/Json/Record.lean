import JournalCache.Proofs.Json.Form
import Mathlib.Data.List.Perm.Basic

/-!
# Which values are taken for a record

A value is taken for a record if it is a list of values of the fields in their order, or an object
that has one member for each field and any others of other names, in any order (`Forms`). These are
all: every fault in a value, at any depth, makes that it is refused (`Faulty`). `ReadsRecord` says
so of values and, through the texts that a value has, of texts. It holds of every type whose reader
takes a value for a record exactly if it takes the value of each field (`JsonRecord`).
-/

namespace JournalCache

theorem mapM_eq_some_iff {α β : Type} {f : α → Option β} {as : List α} {bs : List β} :
    as.mapM f = some bs ↔ List.Forall₂ (fun a b => f a = some b) as bs := by
  refine ⟨fun h => ?_, mapM_eq_some_of_forall₂⟩
  induction as generalizing bs with
  | nil =>
      obtain rfl := Option.some.inj h
      exact .nil
  | cons a as ih =>
      rw [List.mapM_cons] at h
      obtain ⟨b, hb, h⟩ := Option.bind_eq_some_iff.1 h
      obtain ⟨bs', hbs, h⟩ := Option.bind_eq_some_iff.1 h
      obtain rfl := Option.some.inj h
      exact .cons hb (ih hbs)

/-! ## The members of an object -/

namespace Json

variable {members others : List (Option String × Json)} {names : List String} {name : String}
variable {values items : List Json} {v : Json}

def called (name : String) (members : List (Option String × Json)) :
    List (Option String × Json) :=
  members.filter fun m => m.1 == some name

theorem mem_called {m : Option String × Json} :
    m ∈ called name members ↔ m ∈ members ∧ m.1 = some name := by
  rw [called, List.mem_filter, beq_iff_eq]

theorem memberValue?_eq_some_iff :
    memberValue? members name = some v ↔ called name members = [(some name, v)] := by
  have hname : ∀ {m}, called name members = [m] → m.1 = some name := fun hm =>
    (mem_called.1 (hm ▸ List.mem_singleton_self _)).2
  rw [memberValue?, ← called]
  split
  · next m hm =>
    rw [hm, List.cons_eq_cons, Option.some.injEq, Prod.ext_iff]
    exact ⟨fun hv => ⟨⟨hname hm, hv⟩, rfl⟩, fun hv => hv.1.2⟩
  · next hne => exact iff_of_false (Option.some_ne_none _).symm fun hm => hne _ hm

/-- All members have names, and none of these. -/
def AllOther (names : List String) (members : List (Option String × Json)) : Prop :=
  ∀ m ∈ members, ∃ name, m.1 = some name ∧ name ∉ names

theorem AllOther.called_eq_nil (h : AllOther names others) (hname : name ∈ names) :
    called name others = [] := by
  rw [called, List.filter_eq_nil_iff]
  intro m hm heq
  obtain ⟨other, hother, hnot⟩ := h m hm
  rw [hother, beq_iff_eq, Option.some.injEq] at heq
  exact hnot (heq ▸ hname)

/-- If each name has one member, these are all members with such names. -/
theorem perm_filter_names (hnodup : names.Nodup)
    (h : List.Forall₂ (fun name v => called name members = [(some name, v)]) names values) :
    ((names.map some).zip values).Perm (members.filter fun m => m.1 ∈ names.map some) := by
  induction h with
  | nil =>
      rw [List.filter_eq_nil_iff.2 fun m _ => by simp]
      exact .nil
  | @cons name v names values hname _ ih =>
      obtain ⟨hnot, hnodup⟩ := List.nodup_cons.1 hnodup
      have hfirst : (members.filter fun m => m.1 ∈ (name :: names).map some).filter
          (fun m => m.1 == some name) = [(some name, v)] := by
        rw [List.filter_filter, ← hname, called]
        refine List.filter_congr fun m _ => ?_
        by_cases hm : m.1 = some name <;> simp [hm]
      have hrest : (members.filter fun m => m.1 ∈ (name :: names).map some).filter
          (fun m => !(m.1 == some name)) = members.filter fun m => m.1 ∈ names.map some := by
        rw [List.filter_filter]
        refine List.filter_congr fun m _ => ?_
        by_cases hm : m.1 = some name
        · simp [hm, hnot]
        · simp [hm]
      have hall := List.filter_append_perm (fun m => m.1 == some name)
        (members.filter fun m => m.1 ∈ (name :: names).map some)
      rw [hfirst, hrest] at hall
      exact ((ih hnodup).cons _).trans hall

theorem fieldValues?_object_eq_some_iff :
    (object members).fieldValues? names = some values ↔ (∀ m ∈ members, m.1.isSome) ∧
      List.Forall₂ (fun name v => called name members = [(some name, v)]) names values := by
  have hall : members.all (fun m => m.1.isSome) = true ↔ ∀ m ∈ members, m.1.isSome :=
    List.all_eq_true
  simp only [fieldValues?, ← hall, ← memberValue?_eq_some_iff]
  split
  · next h => rw [mapM_eq_some_iff, and_iff_right h]
  · next h => exact iff_of_false (Option.some_ne_none _).symm fun h' => h h'.1

/-- The values of a record are found in the objects that have a member for each of them and any
others of other names, and in no others. -/
theorem fieldValues?_object_eq_some_iff_perm (hnodup : names.Nodup) :
    (object members).fieldValues? names = some values ↔ names.length = values.length ∧
      ∃ others, AllOther names others ∧
        members.Perm ((names.map some).zip values ++ others) := by
  rw [fieldValues?_object_eq_some_iff]
  constructor
  · rintro ⟨hkeys, hcalled⟩
    refine ⟨hcalled.length_eq, members.filter fun m => !(m.1 ∈ names.map some), ?_, ?_⟩
    · intro m hm
      obtain ⟨hm, hnot⟩ := List.mem_filter.1 hm
      obtain ⟨name, hname⟩ := Option.isSome_iff_exists.1 (hkeys m hm)
      refine ⟨name, hname, fun hmem => ?_⟩
      rw [hname, Bool.not_eq_true', decide_eq_false_iff_not] at hnot
      exact hnot (List.mem_map_of_mem hmem)
    · refine (List.filter_append_perm (fun m => m.1 ∈ names.map some) members).symm.trans ?_
      exact (perm_filter_names hnodup hcalled).symm.append_right _
  · rintro ⟨hlength, others, hothers, hperm⟩
    refine ⟨fun m hm => ?_, ?_⟩
    · rcases List.mem_append.1 (hperm.subset hm) with hm | hm
      · obtain ⟨name, -, hname⟩ := List.mem_map.1 (List.of_mem_zip hm).1
        rw [← hname]
        rfl
      · obtain ⟨name, hname, -⟩ := hothers m hm
        rw [hname]
        rfl
    · refine List.forall₂_iff_zip.2 ⟨hlength, fun {name v} hmem => ?_⟩
      have hone := memberValue?_eq_some_iff.1
        (List.forall₂_zip (memberValue?_record hnodup hlength) hmem)
      have hcalled := hperm.filter fun m => m.1 == some name
      rw [List.filter_append, ← called, ← called, ← called, hone,
        hothers.called_eq_nil (List.of_mem_zip hmem).1] at hcalled
      exact List.perm_singleton.1 hcalled

theorem fieldValues?_list_eq_some_iff :
    (list items).fieldValues? names = some values ↔
      names.length = items.length ∧ items = values := by
  rw [fieldValues?]
  split
  · next h => rw [Option.some.injEq, and_iff_right h.symm]
  · next h => exact iff_of_false (Option.some_ne_none _).symm fun h' => h h'.1.symm

end Json

/-! ## Records -/

/-- A type whose reader refuses `null`, with the numbers that stand for its elements. -/
class NumberForm (α : Type) [JsonForm α] where
  /-- The number stands for an element. -/
  InRange : Int → Prop
  ofJson?_null : (ofJson? .null : Option α) = none
  isSome_ofJson?_number (x : Option Int) :
    (ofJson? (.number x) : Option α).isSome ↔ ∃ n, x = some n ∧ InRange n

/-- No number stands for an element. -/
@[reducible]
def NumberForm.ofNone {α : Type} [JsonForm α] (hnull : (ofJson? .null : Option α) = none)
    (hnumber : ∀ x, (ofJson? (.number x) : Option α) = none) : NumberForm α where
  InRange _ := False
  ofJson?_null := hnull
  isSome_ofJson?_number x := by
    rw [hnumber]
    exact iff_of_false nofun fun ⟨_, _, hn⟩ => hn

structure Field (α : Type) where
  name : String
  {type : Type}
  [form : JsonForm type]
  [numberForm : NumberForm type]
  get : α → type

namespace Field

variable {α : Type}

/-- The value stands for what the record has in the field. -/
def Holds (f : Field α) (a : α) (v : Json) : Prop := f.form.ofJson? v = some (f.get a)

/-- The value stands for nothing that the field could have. -/
def Refuses (f : Field α) (v : Json) : Prop := f.form.ofJson? v = none

end Field

/-- A type whose reader takes a value for a record exactly if it takes the value of each field. -/
class JsonRecord (α : Type) [JsonForm α] where
  /-- The fields in the order in which they are declared. -/
  fields : List (Field α)
  nodup : (fields.map Field.name).Nodup
  ofJson?_eq_some_iff (j : Json) (a : α) : ofJson? j = some a ↔
    ∃ values, j.fieldValues? (fields.map Field.name) = some values ∧
      List.Forall₂ (fun f v => f.Holds a v) fields values

namespace JsonRecord

variable {α : Type} [JsonForm α] [JsonRecord α]

variable (α) in
def names : List String := (fields (α := α)).map Field.name

/-- The values that stand for a record. -/
inductive Forms (a : α) : Json → Prop where
  /-- An object with one member for each field, in any order, and any others of other names. -/
  | object {members others : List (Option String × Json)} {values : List Json}
      (hvalues : List.Forall₂ (fun f v => f.Holds a v) fields values)
      (hothers : Json.AllOther (names α) others)
      (hmembers : members.Perm (((names α).map some).zip values ++ others)) :
      Forms a (.object members)
  /-- The list of the values of the fields in their order. -/
  | list {values : List Json} (hvalues : List.Forall₂ (fun f v => f.Holds a v) fields values) :
      Forms a (.list values)

/-- In the value of a record, `v` stands where the value of the field belongs. -/
inductive Places (f : Field α) (v : Json) : Json → Prop where
  | member {members : List (Option String × Json)} (h : (some f.name, v) ∈ members) :
      Places f v (.object members)
  | item {items : List Json} (h : (f, v) ∈ (fields (α := α)).zip items) : Places f v (.list items)

variable (α) in
/-- The values that have a fault. -/
inductive Faulty : Json → Prop where
  | missing {members : List (Option String × Json)} {f : Field α} (hf : f ∈ fields)
      (h : ∀ m ∈ members, m.1 ≠ some f.name) : Faulty (.object members)
  | repeated {members : List (Option String × Json)} {f : Field α} (hf : f ∈ fields)
      (h : 1 < members.countP fun m => m.1 == some f.name) : Faulty (.object members)
  | null {j : Json} {f : Field α} (hf : f ∈ fields) (hplace : Places f .null j) : Faulty j
  /-- More or fewer items than fields. -/
  | length {items : List Json} (h : items.length ≠ (names α).length) : Faulty (.list items)
  /-- A number that is not whole or out of range. -/
  | number {j : Json} {f : Field α} {x : Option Int} (hf : f ∈ fields)
      (hplace : Places f (.number x) j) (h : ∀ n, x = some n → ¬ f.numberForm.InRange n) : Faulty j
  /-- A value that the field refuses, as for a fault of its own. -/
  | refused {j v : Json} {f : Field α} (hf : f ∈ fields) (hplace : Places f v j)
      (h : f.Refuses v) : Faulty j

/-! ## Values -/

variable {j v : Json} {f : Field α} {a : α} {members : List (Option String × Json)}

theorem forms_iff : ofJson? j = some a ↔ Forms a j := by
  rw [ofJson?_eq_some_iff]
  constructor
  · rintro ⟨values, hvalues, hholds⟩
    cases j with
    | list items =>
        obtain ⟨-, rfl⟩ := Json.fieldValues?_list_eq_some_iff.1 hvalues
        exact .list hholds
    | object members =>
        obtain ⟨-, others, hothers, hperm⟩ :=
          (Json.fieldValues?_object_eq_some_iff_perm nodup).1 hvalues
        exact .object hholds hothers hperm
    | _ => cases hvalues
  · have hlength : ∀ {values}, List.Forall₂ (fun f v => f.Holds a v) fields values →
        (names α).length = values.length :=
      fun hvalues => (List.length_map Field.name).trans hvalues.length_eq
    rintro (⟨hvalues, hothers, hmembers⟩ | hvalues)
    · exact ⟨_, (Json.fieldValues?_object_eq_some_iff_perm nodup).2
        ⟨hlength hvalues, _, hothers, hmembers⟩, hvalues⟩
    · exact ⟨_, Json.fieldValues?_list_eq_some_iff.2 ⟨hlength hvalues, rfl⟩, hvalues⟩

/-- In an object that stands for a record each field has one member, with its value. -/
theorem exists_called (h : ofJson? (.object members) = some a) (hf : f ∈ fields) :
    ∃ v, Json.called f.name members = [(some f.name, v)] ∧ f.Holds a v := by
  obtain ⟨values, hvalues, hholds⟩ := (ofJson?_eq_some_iff _ _).1 h
  have hcalled := List.forall₂_map_left_iff.1 (Json.fieldValues?_object_eq_some_iff.1 hvalues).2
  rw [← List.map_fst_zip (Nat.le_of_eq hholds.length_eq)] at hf
  obtain ⟨⟨f, v⟩, hmem, rfl⟩ := List.mem_map.1 hf
  exact ⟨v, List.forall₂_zip hcalled hmem, List.forall₂_zip hholds hmem⟩

/-- What stands in the place of a field stands for what the record has in it. -/
theorem Places.holds (hplace : Places f v j) (h : ofJson? j = some a) (hf : f ∈ fields) :
    f.Holds a v := by
  cases hplace with
  | member hmem =>
      obtain ⟨v', hcalled, hholds⟩ := exists_called h hf
      have hmem := Json.mem_called.2 ⟨hmem, rfl⟩
      rw [hcalled, List.mem_singleton] at hmem
      rwa [(Prod.mk.inj hmem).2]
  | item hmem =>
      obtain ⟨values, hvalues, hholds⟩ := (ofJson?_eq_some_iff _ _).1 h
      obtain ⟨-, rfl⟩ := Json.fieldValues?_list_eq_some_iff.1 hvalues
      exact List.forall₂_zip hholds hmem

/-- Each field of a record that is taken has a value. -/
theorem exists_places (h : ofJson? j = some a) (hf : f ∈ fields) :
    ∃ v, Places f v j ∧ f.Holds a v := by
  cases forms_iff.1 h with
  | object _ _ _ =>
      obtain ⟨v, hcalled, hv⟩ := exists_called h hf
      exact ⟨v, .member (Json.mem_called.1 (hcalled ▸ List.mem_singleton_self _)).1, hv⟩
  | list hvalues =>
      rw [← List.map_fst_zip (Nat.le_of_eq hvalues.length_eq)] at hf
      obtain ⟨⟨f, v⟩, hmem, rfl⟩ := List.mem_map.1 hf
      exact ⟨v, .item hmem, List.forall₂_zip hvalues hmem⟩

theorem places_object_iff : Places f v (.object members) ↔ (some f.name, v) ∈ members :=
  ⟨fun h => by cases h with | member h => exact h, .member⟩

theorem Places.ofJson?_eq_none (hplace : Places f v j) (hf : f ∈ fields) (h : f.Refuses v) :
    (ofJson? j : Option α) = none := by
  rw [Option.eq_none_iff_forall_ne_some]
  intro a ha
  have hholds := hplace.holds ha hf
  rw [Field.Holds, h] at hholds
  cases hholds

theorem Faulty.ofJson?_eq_none (h : Faulty α j) : (ofJson? j : Option α) = none := by
  cases h with
  | @missing members f hf hmissing =>
      rw [Option.eq_none_iff_forall_ne_some]
      intro a ha
      obtain ⟨v, hcalled, -⟩ := exists_called ha hf
      obtain ⟨hmem, hname⟩ := Json.mem_called.1 (hcalled ▸ List.mem_singleton_self _)
      exact hmissing _ hmem hname
  | @repeated members f hf hrepeated =>
      rw [Option.eq_none_iff_forall_ne_some]
      intro a ha
      obtain ⟨v, hcalled, -⟩ := exists_called ha hf
      rw [List.countP_eq_length_filter, ← Json.called, hcalled] at hrepeated
      exact Nat.lt_irrefl 1 hrepeated
  | @null _ f hf hplace => exact hplace.ofJson?_eq_none hf f.numberForm.ofJson?_null
  | length hlength =>
      rw [Option.eq_none_iff_forall_ne_some]
      intro a ha
      obtain ⟨values, hvalues, -⟩ := (ofJson?_eq_some_iff _ _).1 ha
      exact hlength (Json.fieldValues?_list_eq_some_iff.1 hvalues).1.symm
  | @number _ f x hf hplace hx =>
      refine hplace.ofJson?_eq_none hf (Option.not_isSome_iff_eq_none.1 fun hsome => ?_)
      obtain ⟨n, hxn, hn⟩ := (f.numberForm.isSome_ofJson?_number x).1 hsome
      exact hx n hxn hn
  | refused hf hplace hrefuses => exact hplace.ofJson?_eq_none hf hrefuses

theorem ofJson?_number (x : Option Int) : (ofJson? (.number x) : Option α) = none := by
  rw [Option.eq_none_iff_forall_ne_some]
  intro a ha
  cases forms_iff.1 ha

theorem ofJson?_null : (ofJson? .null : Option α) = none := by
  rw [Option.eq_none_iff_forall_ne_some]
  intro a ha
  cases forms_iff.1 ha

end JsonRecord

/-! ## Texts -/

/-- What a reader of records takes and what it refuses. -/
structure ReadsRecord (α : Type) [JsonForm α] [JsonRecord α] : Prop where
  /-- A value is taken for a record exactly if it is one of its forms. -/
  takes : ∀ (j : Json) (a : α), ofJson? j = some a ↔ JsonRecord.Forms a j
  /-- A value with a fault is refused. -/
  refuses : ∀ j : Json, JsonRecord.Faulty α j → (ofJson? j : Option α) = none
  /-- A text is taken for a record exactly if it is a text of such a value, with any blanks and any
  spelling of strings. -/
  decodes : ∀ (s : String) (a : α), decode? s = some a ↔ ∃ j : Json, j.Spells s ∧ ofJson? j = some a
  /-- A text of a value that is refused is refused, also if there are numbers in it that are written
  as JSON has no numbers. -/
  declines : ∀ (j : Json) (s : String), (ofJson? j : Option α) = none → j.SpellsLoosely s →
    (decode? s : Option α) = none
  /-- Behind a value nothing but blanks may follow. -/
  ends : ∀ (j : Json) (s rest : String), j.Spells s → ¬ rest.toList.all Json.Token.isBlank →
    (decode? (s ++ rest) : Option α) = none

section

variable {α : Type} [JsonForm α]

theorem decode?_eq_some_iff {s : String} {a : α} :
    decode? s = some a ↔ ∃ j : Json, j.Spells s ∧ ofJson? j = some a := by
  refine Option.bind_eq_some_iff.trans ?_
  simp only [Json.parse?_eq_some_iff]

/-- A text of a value is taken for what the value is taken for. -/
theorem decode?_of_spells {j : Json} {s : String} (h : j.Spells s) :
    (decode? s : Option α) = ofJson? j := by
  rw [decode?, Json.parse?_eq_some_iff.2 h]
  rfl

theorem decode?_of_spellsLoosely {j : Json} {s : String} (hj : (ofJson? j : Option α) = none)
    (h : j.SpellsLoosely s) : (decode? s : Option α) = none := by
  rcases h.spells_or with hs | hnone
  · rw [decode?_of_spells hs, hj]
  · rw [decode?, hnone]
    rfl

theorem decode?_append_eq_none [JsonRecord α] {j : Json} {s rest : String} (hs : j.Spells s)
    (hrest : ¬ rest.toList.all Json.Token.isBlank) : (decode? (s ++ rest) : Option α) = none := by
  have hparse : j.Fits rest.toList → (decode? (s ++ rest) : Option α) = none := fun hfits => by
    rw [decode?, Json.parse?_append hs hfits, if_neg hrest]
    rfl
  cases j with
  | number x =>
      cases hp : Json.parse? (s ++ rest) with
      | none =>
          rw [decode?, hp]
          rfl
      | some j =>
          obtain ⟨y, rfl⟩ := Json.eq_number_of_parse?_append hs hp
          rw [decode?, hp]
          exact JsonRecord.ofJson?_number y
  | _ => exact hparse trivial

theorem JsonRecord.reads [JsonRecord α] : ReadsRecord α where
  takes _ _ := forms_iff
  refuses _ h := h.ofJson?_eq_none
  decodes _ _ := decode?_eq_some_iff
  declines _ _ := decode?_of_spellsLoosely
  ends _ _ _ := decode?_append_eq_none

end

end JournalCache

import JournalCache.Json.Form
import JournalCache.Proofs.Json.Written
import Mathlib.Data.List.Forall2
import Mathlib.Data.List.Nodup

/-!
# Types whose elements are read back

A JSON form is lawful if each element is read back from its value (`LawfulJsonForm`). Strings, lists
and numbers have lawful forms, and the fields of a record are found again under their names
(`fieldValues?_record`). The text of an element is then read back too, and whatever follows it is
not lost (`decode?_append`).
-/

namespace JournalCache

/-- A JSON form that reads back every element. -/
class LawfulJsonForm (α : Type) [JsonForm α] : Prop where
  ofJson?_toJson (a : α) : ofJson? (toJson a) = some a

export LawfulJsonForm (ofJson?_toJson)

attribute [simp] ofJson?_toJson

/-! ## Strings, lists and numbers -/

instance : LawfulJsonForm String := ⟨fun _ => rfl⟩

theorem mapM_eq_some_of_forall₂ {α β : Type} {f : α → Option β} {as : List α} {bs : List β}
    (h : List.Forall₂ (fun a b => f a = some b) as bs) : as.mapM f = some bs := by
  induction h with
  | nil => rfl
  | cons ha _ ih =>
      rw [List.mapM_cons, ha, ih]
      rfl

instance {α : Type} [JsonForm α] [LawfulJsonForm α] : LawfulJsonForm (List α) where
  ofJson?_toJson as := by
    refine mapM_eq_some_of_forall₂ (List.forall₂_map_left_iff.2 ?_)
    exact List.forall₂_same.2 fun a _ => ofJson?_toJson a

instance : LawfulJsonForm UInt64 where
  ofJson?_toJson n := by
    have hlt : (n.toNat : Int) < UInt64.size := Int.ofNat_lt.2 n.toNat_lt_size
    refine (if_pos ⟨Int.natCast_nonneg _, hlt⟩).trans ?_
    rw [Int.toNat_natCast, UInt64.ofNat_toNat]

instance : LawfulJsonForm Int32 where
  ofJson?_toJson n := by
    refine (if_pos ⟨n.minValue_le_toInt, n.toInt_le⟩).trans ?_
    rw [Int32.ofInt_toInt]

/-! ## Records -/

namespace Json

variable {members : List (Option String × Json)} {name : String}

/-- Members of other names are passed over. -/
theorem memberValue?_cons_of_ne {m : Option String × Json} (h : m.1 ≠ some name) :
    memberValue? (m :: members) name = memberValue? members name := by
  rw [memberValue?, List.filter_cons_of_neg (by simpa using h), memberValue?]

theorem memberValue?_cons_self {j : Json} (h : some name ∉ members.map Prod.fst) :
    memberValue? ((some name, j) :: members) name = some j := by
  have hrest : members.filter (fun m => m.1 == some name) = [] := by
    rw [List.filter_eq_nil_iff]
    intro m hm heq
    exact h (List.mem_map.2 ⟨m, hm, eq_of_beq heq⟩)
  rw [memberValue?, List.filter_cons, if_pos (beq_self_eq_true _), hrest]

theorem memberValue?_of_mem {j : Json} (hnodup : (members.map Prod.fst).Nodup)
    (h : (some name, j) ∈ members) : memberValue? members name = some j := by
  induction members with
  | nil => cases h
  | cons m ms ih =>
      obtain ⟨hm, hms⟩ := List.nodup_cons.1 hnodup
      rcases List.mem_cons.1 h with rfl | h
      · exact memberValue?_cons_self hm
      · have hne : m.1 ≠ some name := fun heq => hm (List.mem_map.2 ⟨_, h, heq.symm⟩)
        rw [memberValue?_cons_of_ne hne]
        exact ih hms h

theorem map_fst_record {names : List String} {values : List Json}
    (hlength : names.length = values.length) :
    ((names.map some).zip values).map Prod.fst = names.map some :=
  List.map_fst_zip (Nat.le_of_eq ((List.length_map some).trans hlength))

/-- Each field of a record has its value as the only one. -/
theorem memberValue?_record {names : List String} {values : List Json} (hnodup : names.Nodup)
    (hlength : names.length = values.length) :
    List.Forall₂ (fun name j => memberValue? ((names.map some).zip values) name = some j)
      names values := by
  refine List.forall₂_iff_zip.2 ⟨hlength, fun {name j} hmem => ?_⟩
  refine memberValue?_of_mem ?_ ?_
  · rw [map_fst_record hlength]
    exact List.Nodup.map (fun _ _ => Option.some.inj) hnodup
  · rw [List.zip_map_left]
    exact List.mem_map_of_mem (f := Prod.map some id) hmem

/-- The values of the fields of a record are found under their names. -/
theorem fieldValues?_record {names : List String} {values : List Json} (hnodup : names.Nodup)
    (hlength : names.length = values.length) :
    (record names values).fieldValues? names = some values := by
  have hsome : ((names.map some).zip values).all (fun m => m.1.isSome) = true := by
    rw [List.all_eq_true]
    intro m hm
    have hkey : m.1 ∈ names.map some := map_fst_record hlength ▸ List.mem_map_of_mem hm
    obtain ⟨name, -, hname⟩ := List.mem_map.1 hkey
    rw [← hname]
    rfl
  rw [record, fieldValues?, if_pos hsome]
  exact mapM_eq_some_of_forall₂ (memberValue?_record hnodup hlength)

/-- What is read of a record is read of the values of its fields. -/
theorem bind_fieldValues?_record {α : Type} {names : List String} {values : List Json}
    (hnodup : names.Nodup) (hlength : names.length = values.length) (f : List Json → Option α) :
    ((record names values).fieldValues? names).bind f = f values := by
  rw [fieldValues?_record hnodup hlength, Option.bind_some]

end Json

/-! ## Texts -/

section

variable {α : Type} [JsonForm α] [LawfulJsonForm α]

/-- An element is read back from its text, and behind it only blanks may follow. -/
theorem decode?_append {a : α} {rest : String} (h : (toJson a).Fits rest.toList) :
    decode? (encode a ++ rest) =
      if rest.toList.all Json.Token.isBlank then some a else none := by
  rw [decode?, encode, Json.parse?_append (Json.spells_print _) h]
  split
  · exact ofJson?_toJson a
  · rfl

theorem decode?_encode (a : α) : decode? (encode a) = some a := by
  have hdecode : decode? (encode a ++ "") = _ := decode?_append (Json.fits_nil _)
  rw [String.append_empty] at hdecode
  exact hdecode

theorem encode_injective : Function.Injective (encode : α → String) := by
  intro a b hab
  have ha := decode?_encode a
  rw [hab, decode?_encode b] at ha
  exact (Option.some.inj ha).symm

end

end JournalCache

import JournalCache.Package.Codec
import JournalCache.Proofs.Json.Form
import JournalCache.Proofs.Time.Timestamp

/-!
# Every message survives its text

The JSON forms of instants, requests, placements, packages, messages and items are lawful, each
because the forms of its parts are. Readers take much more than writers make; `recode?` brings every
text that is taken into the one form that is made. `RoundTrips` says that an element and its text
determine each other and that this form is canonical.
-/

namespace JournalCache

/-! ## The forms -/

theorem Instant.toJson_eq (t : Instant) : toJson t = toJson (Timestamp.print t) := rfl

theorem Instant.ofJson?_eq (j : Json) :
    (ofJson? j : Option Instant) = (ofJson? j : Option String).bind Timestamp.read? := rfl

instance : LawfulJsonForm Instant where
  ofJson?_toJson t := by
    rw [Instant.toJson_eq, Instant.ofJson?_eq, ofJson?_toJson, Option.bind_some]
    exact Timestamp.read?_print t

instance : LawfulJsonForm Request where
  ofJson?_toJson r := by cases r <;> rfl

theorem Placement.fieldNames_nodup : Placement.fieldNames.Nodup := by decide

instance : LawfulJsonForm Placement where
  ofJson?_toJson p := by
    refine (Json.bind_fieldValues?_record Placement.fieldNames_nodup rfl _).trans ?_
    simp only [Option.bind_some, Option.bind_eq_bind, ofJson?_toJson, Option.pure_def]

theorem Package.fieldNames_nodup : Package.fieldNames.Nodup := by decide

instance : LawfulJsonForm Package where
  ofJson?_toJson p := by
    refine (Json.bind_fieldValues?_record Package.fieldNames_nodup rfl _).trans ?_
    simp only [Option.bind_some, Option.bind_eq_bind, ofJson?_toJson, Option.pure_def]

theorem Message.fieldNames_nodup : Message.fieldNames.Nodup := by decide

instance : LawfulJsonForm Message where
  ofJson?_toJson m := by
    refine (Json.bind_fieldValues?_record Message.fieldNames_nodup rfl _).trans ?_
    simp only [Option.bind_some, Option.bind_eq_bind, ofJson?_toJson, Option.pure_def]

theorem Item.fieldNames_nodup : Item.fieldNames.Nodup := by decide

instance : LawfulJsonForm Item where
  ofJson?_toJson i := by
    refine (Json.bind_fieldValues?_record Item.fieldNames_nodup rfl _).trans ?_
    simp only [Option.bind_some, Option.bind_eq_bind, ofJson?_toJson, Option.pure_def]

/-! ## Texts and elements -/

/-- A text that is taken, written again. -/
def recode? (α : Type) [JsonForm α] (s : String) : Option String :=
  (decode? s : Option α).map encode

/-- The elements of a type and their texts determine each other. -/
structure RoundTrips (α : Type) [JsonForm α] : Prop where
  /-- The text of an element is read back as the element. -/
  decodes : ∀ a : α, decode? (encode a) = some a
  /-- Reading leaves nothing over: if anything but blanks follows, the text is refused. -/
  ends : ∀ (a : α) (rest : String),
    decode? (encode a ++ rest) = if rest.toList.all Json.Token.isBlank then some a else none
  /-- Two elements never have the same text. -/
  distinct : Function.Injective (encode : α → String)
  /-- A text that is taken for an element, however it is written, is written again as a text that is
  taken for the same element and that stays as it is when it is written once more. -/
  canonical : ∀ (s : String) (a : α), decode? s = some a →
    ∃ t, recode? α s = some t ∧ decode? t = some a ∧ recode? α t = some t
  /-- Texts that are taken for the same element, and no others, are written again as the same. -/
  unique : ∀ s t : String, recode? α s = recode? α t ↔ (decode? s : Option α) = decode? t

/-- It is enough that every element is read back from its value, if no number stands for one. -/
theorem RoundTrips.of_fits {α : Type} [JsonForm α] [LawfulJsonForm α]
    (h : ∀ (a : α) (r : List Char), (toJson a).Fits r) : RoundTrips α where
  decodes := decode?_encode
  ends a rest := decode?_append (h a _)
  distinct := encode_injective
  canonical s a hs := by
    have hrecode : ∀ t, (decode? t : Option α) = some a → recode? α t = some (encode a) :=
      fun t ht => congrArg (Option.map encode) ht
    exact ⟨encode a, hrecode s hs, decode?_encode a, hrecode _ (decode?_encode a)⟩
  unique s t := ⟨fun hst => Option.map_injective encode_injective hst, congrArg (Option.map encode)⟩

/-- Whatever strings, numbers and instants they hold: leap seconds, fractions of a second and years
outside of 0 to 9999 too. -/
theorem messages_roundTrip :
    RoundTrips Request ∧ RoundTrips Placement ∧ RoundTrips Package ∧ RoundTrips Message ∧
      RoundTrips Item :=
  ⟨.of_fits fun _ _ => trivial, .of_fits fun _ _ => trivial, .of_fits fun _ _ => trivial,
    .of_fits fun _ _ => trivial, .of_fits fun _ _ => trivial⟩

end JournalCache

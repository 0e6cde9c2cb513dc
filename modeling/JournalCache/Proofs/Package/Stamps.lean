import JournalCache.Proofs.Package.Acceptance
import JournalCache.Proofs.Time.Timestamp

/-!
# The timestamps of messages and items

A placement, the message that it belongs to and an item have an instant, and a timestamp for it in
their JSON (`Stamped`). Whatever the zone, the fraction and the digits of the timestamp that was
read, the instant is the one that it names, and the timestamp that is written names it in UTC
(`KeepsInstants`).
-/

namespace JournalCache

/-! ## Values with a timestamp -/

/-- A type whose elements have an instant and whose values have a timestamp for it. -/
class Stamped (α : Type) [JsonForm α] where
  instant : α → Instant
  /-- The element, but with this instant. -/
  withInstant : α → Instant → α
  /-- In a value of the type, `s` stands where the timestamp belongs. -/
  Stamps : String → Json → Prop
  exists_stamps {j : Json} {a : α} : ofJson? j = some a → ∃ s, Stamps s j
  read?_eq {j : Json} {a : α} {s : String} :
    ofJson? j = some a → Stamps s j → Timestamp.read? s = some (instant a)
  stamps_toJson_iff {a : α} {s : String} :
    Stamps s (toJson a) ↔ s = Timestamp.print (instant a)
  /-- Any timestamp may stand where that of an element stands. -/
  exists_stamped (a : α) {s : String} {t : Instant} : Timestamp.read? s = some t →
    ∃ j, Stamps s j ∧ ofJson? j = some (withInstant a t)

theorem Instant.ofJson?_eq_some_iff {v : Json} {t : Instant} :
    ofJson? v = some t ↔ ∃ s, v = .text (some s) ∧ Timestamp.read? s = some t := by
  rw [Instant.ofJson?_eq]
  constructor
  · intro h
    obtain ⟨s, hs, hread⟩ := Option.bind_eq_some_iff.1 h
    cases v with
    | text x => exact ⟨s, congrArg Json.text hs, hread⟩
    | _ => cases hs
  · rintro ⟨s, rfl, hread⟩
    exact hread

namespace JsonRecord

variable {α : Type} [JsonForm α] [JsonRecord α] {j : Json} {a : α}
variable {name : String} {get : α → Instant} {s : String}

theorem exists_places_instant (h : ofJson? j = some a) (hf : ⟨name, get⟩ ∈ fields (α := α)) :
    ∃ s, Places ⟨name, get⟩ (.text (some s)) j := by
  obtain ⟨v, hplace, hv⟩ := exists_places h hf
  obtain ⟨s, rfl, -⟩ := Instant.ofJson?_eq_some_iff.1 hv
  exact ⟨s, hplace⟩

theorem Places.read?_eq (h : ofJson? j = some a) (hf : ⟨name, get⟩ ∈ fields (α := α))
    (hplace : Places ⟨name, get⟩ (.text (some s)) j) : Timestamp.read? s = some (get a) :=
  hplace.holds h hf

end JsonRecord

instance : Stamped Placement where
  instant := Placement.created
  withInstant p t := { p with created := t }
  Stamps s := JsonRecord.Places ⟨"created_time", Placement.created⟩ (.text (some s))
  exists_stamps h := JsonRecord.exists_places_instant h (by simp [JsonRecord.fields])
  read?_eq h := JsonRecord.Places.read?_eq h (by simp [JsonRecord.fields])
  stamps_toJson_iff {p s} := by
    refine JsonRecord.places_object_iff.trans ?_
    simp [Placement.fieldNames, toJson]
  exists_stamped p {s t} h := by
    refine ⟨.record Placement.fieldNames
      [toJson p.topic, toJson p.partition, toJson p.offset, .text (some s)],
      .member (by simp [Placement.fieldNames]), ?_⟩
    have ht : (ofJson? (.text (some s)) : Option Instant) = some t := h
    refine (Json.bind_fieldValues?_record Placement.fieldNames_nodup rfl _).trans ?_
    simp only [Option.bind_some, Option.bind_eq_bind, ofJson?_toJson, ht, Option.pure_def]

/-- The timestamp of a message is that of its placement. -/
instance : Stamped Message where
  instant m := m.placement.created
  withInstant m t := { m with placement := Stamped.withInstant m.placement t }
  Stamps s j := ∃ info, JsonRecord.Places ⟨"info", Message.placement⟩ info j ∧
    Stamped.Stamps Placement s info
  exists_stamps h := by
    obtain ⟨info, hplace, hinfo⟩ := JsonRecord.exists_places h
      (f := ⟨"info", Message.placement⟩) (by simp [JsonRecord.fields])
    obtain ⟨s, hs⟩ := Stamped.exists_stamps (α := Placement) hinfo
    exact ⟨s, info, hplace, hs⟩
  read?_eq {j m s} h := by
    rintro ⟨info, hplace, hs⟩
    have hinfo := hplace.holds h (by simp [JsonRecord.fields])
    exact Stamped.read?_eq (α := Placement) hinfo hs
  stamps_toJson_iff {m s} := by
    have hinfo : ∀ info, JsonRecord.Places ⟨"info", Message.placement⟩ info (toJson m) ↔
        info = toJson m.placement := fun info => by
      refine JsonRecord.places_object_iff.trans ?_
      simp [Message.fieldNames]
    simp only [hinfo, exists_eq_left]
    exact Stamped.stamps_toJson_iff
  exists_stamped m {s t} h := by
    obtain ⟨info, hs, hinfo⟩ := Stamped.exists_stamped m.placement h
    refine ⟨.record Message.fieldNames [info, toJson m.package],
      ⟨info, .member (by simp [Message.fieldNames]), hs⟩, ?_⟩
    refine (Json.bind_fieldValues?_record Message.fieldNames_nodup rfl _).trans ?_
    simp only [Option.bind_some, Option.bind_eq_bind, ofJson?_toJson, hinfo, Option.pure_def]

instance : Stamped Item where
  instant := Item.created
  withInstant i t := { i with created := t }
  Stamps s := JsonRecord.Places ⟨"created_at", Item.created⟩ (.text (some s))
  exists_stamps h := JsonRecord.exists_places_instant h (by simp [JsonRecord.fields])
  read?_eq h := JsonRecord.Places.read?_eq h (by simp [JsonRecord.fields])
  stamps_toJson_iff {i s} := by
    refine JsonRecord.places_object_iff.trans ?_
    simp [Item.fieldNames, toJson]
  exists_stamped i {s t} h := by
    refine ⟨.record Item.fieldNames
      [toJson i.packageId, toJson i.offset, toJson i.request, toJson i.kind, toJson i.paths,
        toJson i.deepPaths, toJson i.user, toJson i.length, .text (some s)],
      .member (by simp [Item.fieldNames]), ?_⟩
    have ht : (ofJson? (.text (some s)) : Option Instant) = some t := h
    refine (Json.bind_fieldValues?_record Item.fieldNames_nodup rfl _).trans ?_
    simp only [Option.bind_some, Option.bind_eq_bind, ofJson?_toJson, ht, Option.pure_def]

/-! ## Texts with a timestamp -/

/-- In the text of a value of the type, `s` stands where the timestamp belongs. -/
def ShowsStamp (α : Type) [JsonForm α] [Stamped α] (s text : String) : Prop :=
  ∃ j : Json, j.Spells text ∧ Stamped.Stamps α s j

/-- The text is taken for `a`, and its timestamp names what a clock shows as `r`. -/
def TakenAt {α : Type} [JsonForm α] [Stamped α] (text : String) (a : α) (r : ClockReading) : Prop :=
  decode? text = some a ∧ ∃ s, ShowsStamp α s text ∧ Timestamp.Spells r s.toList

variable {α β : Type} [JsonForm α] [JsonForm β] [Stamped α] [Stamped β]
variable {text s : String} {a : α} {r : ClockReading}

theorem Stamped.exists_showsStamp (h : decode? text = some a) : ∃ s, ShowsStamp α s text := by
  obtain ⟨j, hj, ha⟩ := decode?_eq_some_iff.1 h
  obtain ⟨s, hs⟩ := exists_stamps ha
  exact ⟨s, j, hj, hs⟩

/-- The timestamp of a text that is taken is read as the instant of what it is taken for. -/
theorem ShowsStamp.read?_eq (hs : ShowsStamp α s text) (h : decode? text = some a) :
    Timestamp.read? s = some (Stamped.instant a) := by
  obtain ⟨j, hj, hs⟩ := hs
  rw [decode?_of_spells hj] at h
  exact Stamped.read?_eq h hs

theorem TakenAt.denotes (h : TakenAt text a r) : r.Denotes (Stamped.instant a) := by
  obtain ⟨ha, s, hs, hr⟩ := h
  obtain ⟨r', hr', hdenotes⟩ := Timestamp.read?_eq_some_iff.1 (hs.read?_eq ha)
  rw [← Timestamp.reading?_eq_some_iff] at hr hr'
  obtain rfl := Option.some.inj (hr.symm.trans hr')
  exact hdenotes

/-- What is written shows one timestamp, that of the instant. -/
theorem showsStamp_encode_iff :
    ShowsStamp α s (encode a) ↔ s = Timestamp.print (Stamped.instant a) := by
  have hself := (toJson a).spells_print
  constructor
  · rintro ⟨j, hj, hs⟩
    obtain rfl : j = toJson a :=
      Option.some.inj ((Json.parse?_eq_some_iff.2 hj).symm.trans (Json.parse?_eq_some_iff.2 hself))
    exact Stamped.stamps_toJson_iff.1 hs
  · exact fun h => ⟨toJson a, hself, Stamped.stamps_toJson_iff.2 h⟩

/-- What becomes of the timestamp of a text that is taken, in what is written of what `make` makes
of it. -/
structure KeepsInstants (α β : Type) [JsonForm α] [JsonForm β] [Stamped α] [Stamped β]
    (make : α → β) : Prop where
  /-- In every text that is taken stands a timestamp. -/
  reads : ∀ (text : String) (a : α), decode? text = some a → ∃ r, TakenAt text a r
  /-- It names what some clock shows at the instant that is taken. -/
  denotes : ∀ (text : String) (a : α) (r : ClockReading),
    TakenAt text a r → r.Denotes (Stamped.instant a)
  /-- Every timestamp that names what a clock shows at some instant is taken for the instant,
  whatever else there is. -/
  takes : ∀ (a : α) (s : String) (r : ClockReading) (t : Instant),
    Timestamp.Spells r s.toList → r.Denotes t →
      ∃ text, ShowsStamp α s text ∧ TakenAt text (Stamped.withInstant a t) r
  /-- A text is refused if what stands there is no timestamp, or one of a day that is in no
  calendar. -/
  refuses : ∀ text s : String, ShowsStamp α s text →
    (∀ r, Timestamp.Spells r s.toList → ¬ r.date.Exists) → (decode? text : Option α) = none
  /-- What is written has the canonical timestamp of what a clock of UTC shows at the instant. -/
  writes : ∀ a : α, ∃ w u, ShowsStamp β w (encode (make a)) ∧ Timestamp.Canonical u w.toList ∧
    u.Denotes (Stamped.instant a)
  /-- Of two texts that are taken the same timestamp is written exactly if the clocks that their
  timestamps name show these at the same instant. -/
  unique : ∀ (text text' : String) (a b : α) (r r' : ClockReading) (w w' : String),
    TakenAt text a r → TakenAt text' b r' → ShowsStamp β w (encode (make a)) →
    ShowsStamp β w' (encode (make b)) → (w = w' ↔ r.Concurs r')

theorem keepsInstants {make : α → β} (hmake : ∀ a, Stamped.instant (make a) = Stamped.instant a) :
    KeepsInstants α β make where
  reads text a ha := by
    obtain ⟨s, hs⟩ := Stamped.exists_showsStamp ha
    obtain ⟨r, hr, -⟩ := Timestamp.read?_eq_some_iff.1 (hs.read?_eq ha)
    exact ⟨r, ha, s, hs, hr⟩
  denotes _ _ _ := TakenAt.denotes
  takes a s r t hr ht := by
    obtain ⟨j, hs, hj⟩ := Stamped.exists_stamped a (Timestamp.read?_eq_some_iff.2 ⟨r, hr, ht⟩)
    have hshows : ShowsStamp α s j.print := ⟨j, j.spells_print, hs⟩
    exact ⟨j.print, hshows, (decode?_of_spells j.spells_print).trans hj, s, hshows, hr⟩
  refuses text s hs hnone := by
    rw [Option.eq_none_iff_forall_ne_some]
    intro a ha
    obtain ⟨r, hr, hdenotes⟩ := Timestamp.read?_eq_some_iff.1 (hs.read?_eq ha)
    exact hnone r hr hdenotes.exists_reading.1
  writes a := by
    refine ⟨_, (Stamped.instant a).reading, showsStamp_encode_iff.2 rfl, ?_,
      Instant.reading_denotes _⟩
    rw [hmake, Timestamp.print, String.toList_ofList]
    exact Timestamp.canonical_written _
  unique text text' a b r r' w w' ha hb hw hw' := by
    rw [showsStamp_encode_iff.1 hw, showsStamp_encode_iff.1 hw', Timestamp.print_inj, hmake, hmake,
      ClockReading.concurs_iff ha.denotes hb.denotes]

/-- A value is read as an instant exactly if it is a text that names what a clock shows at it.
Placements, messages and items keep their instants when they are read and written, and so do
messages of which items are made. -/
theorem timestamps_normalised :
    (∀ (v : Json) (t : Instant), ofJson? v = some t ↔
      ∃ s r, v = .text (some s) ∧ Timestamp.Spells r s.toList ∧ r.Denotes t) ∧
    KeepsInstants Placement Placement id ∧ KeepsInstants Message Message id ∧
      KeepsInstants Item Item id ∧ KeepsInstants Message Item Item.ofMessage := by
  refine ⟨fun v t => ?_, keepsInstants fun _ => rfl, keepsInstants fun _ => rfl,
    keepsInstants fun _ => rfl, keepsInstants fun _ => rfl⟩
  rw [Instant.ofJson?_eq_some_iff]
  simp only [Timestamp.read?_eq_some_iff, exists_and_left]

end JournalCache

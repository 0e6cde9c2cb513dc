import JournalCache.Proofs.Json.Record
import JournalCache.Proofs.Package.Codec

/-!
# What is taken for a message

Placements, packages, messages and items are read as records of their fields. So exactly the values
with one member for each field, or with the list of their values, are taken, and what stands in a
message for its placement and for its package is again any of their values.
-/

namespace JournalCache

/-! ## Numbers -/

instance : NumberForm String := .ofNone rfl fun _ => rfl

instance {α : Type} [JsonForm α] : NumberForm (List α) := .ofNone rfl fun _ => rfl

instance : NumberForm Instant := .ofNone rfl fun _ => rfl

instance : NumberForm Request := .ofNone rfl fun _ => rfl

instance {α : Type} [JsonForm α] [JsonRecord α] : NumberForm α :=
  .ofNone JsonRecord.ofJson?_null JsonRecord.ofJson?_number

instance : NumberForm UInt64 where
  InRange n := 0 ≤ n ∧ n ≤ 18446744073709551615
  ofJson?_null := rfl
  isSome_ofJson?_number x := by
    cases x with
    | none => exact iff_of_false nofun nofun
    | some n =>
        have hlast : n < 18446744073709551616 ↔ n ≤ 18446744073709551615 := by omega
        simp [ofJson?, hlast]

instance : NumberForm Int32 where
  InRange n := -2147483648 ≤ n ∧ n ≤ 2147483647
  ofJson?_null := rfl
  isSome_ofJson?_number x := by
    cases x with
    | none => exact iff_of_false nofun nofun
    | some n =>
        have hmin : Int32.minValue.toInt = -2147483648 := by decide
        have hmax : Int32.maxValue.toInt = 2147483647 := by decide
        simp [ofJson?, hmin, hmax]

/-! ## Records -/

instance : JsonRecord Placement where
  fields :=
    [⟨"topic", Placement.topic⟩, ⟨"partition", Placement.partition⟩, ⟨"offset", Placement.offset⟩,
      ⟨"created_time", Placement.created⟩]
  nodup := Placement.fieldNames_nodup
  ofJson?_eq_some_iff j a := by
    refine Option.bind_eq_some_iff.trans (exists_congr fun values => and_congr_right fun _ => ?_)
    rcases values with _ | ⟨_, _ | ⟨_, _ | ⟨_, _ | ⟨_, _ | _⟩⟩⟩⟩
    all_goals cases a; simp [Field.Holds, Option.bind_eq_some_iff]

instance : JsonRecord Package where
  fields :=
    [⟨"pub_agent_name", Package.agent⟩, ⟨"req_type", Package.request⟩, ⟨"package_id", Package.id⟩,
      ⟨"pkg_type", Package.kind⟩, ⟨"paths", Package.paths⟩, ⟨"deep_paths", Package.deepPaths⟩,
      ⟨"user_id", Package.user⟩, ⟨"pkg_length", Package.length⟩]
  nodup := Package.fieldNames_nodup
  ofJson?_eq_some_iff j a := by
    refine Option.bind_eq_some_iff.trans (exists_congr fun values => and_congr_right fun _ => ?_)
    rcases values with _ | ⟨_, _ | ⟨_, _ | ⟨_, _ | ⟨_, _ | ⟨_, _ | ⟨_, _ | ⟨_, _ | ⟨_, _ | _⟩⟩⟩⟩⟩⟩⟩⟩
    all_goals cases a; simp [Field.Holds, Option.bind_eq_some_iff]

instance : JsonRecord Message where
  fields := [⟨"info", Message.placement⟩, ⟨"message", Message.package⟩]
  nodup := Message.fieldNames_nodup
  ofJson?_eq_some_iff j a := by
    refine Option.bind_eq_some_iff.trans (exists_congr fun values => and_congr_right fun _ => ?_)
    rcases values with _ | ⟨_, _ | ⟨_, _ | _⟩⟩
    all_goals cases a; simp [Field.Holds, Option.bind_eq_some_iff]

instance : JsonRecord Item where
  fields :=
    [⟨"package_id", Item.packageId⟩, ⟨"offset", Item.offset⟩, ⟨"req_type", Item.request⟩,
      ⟨"pkg_type", Item.kind⟩, ⟨"paths", Item.paths⟩, ⟨"deep_paths", Item.deepPaths⟩,
      ⟨"user_id", Item.user⟩, ⟨"pkg_length", Item.length⟩, ⟨"created_at", Item.created⟩]
  nodup := Item.fieldNames_nodup
  ofJson?_eq_some_iff j a := by
    refine Option.bind_eq_some_iff.trans (exists_congr fun values => and_congr_right fun _ => ?_)
    rcases values with
      _ | ⟨_, _ | ⟨_, _ | ⟨_, _ | ⟨_, _ | ⟨_, _ | ⟨_, _ | ⟨_, _ | ⟨_, _ | ⟨_, _ | _⟩⟩⟩⟩⟩⟩⟩⟩⟩
    all_goals cases a; simp [Field.Holds, Option.bind_eq_some_iff]

/-- What stands for the placement and the package of a message may be any of their forms, and it is
refused for any fault of theirs. -/
theorem messages_read :
    ReadsRecord Placement ∧ ReadsRecord Package ∧ ReadsRecord Message ∧ ReadsRecord Item :=
  ⟨JsonRecord.reads, JsonRecord.reads, JsonRecord.reads, JsonRecord.reads⟩

end JournalCache

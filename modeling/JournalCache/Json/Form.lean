import JournalCache.Json.Record
import JournalCache.Json.Written

/-!
# Types with a JSON form

A type with a JSON form has a value that stands for each of its elements (`toJson`) and a reader of
such values (`ofJson?`), and so a text for each element (`encode`) and a reader of texts
(`decode?`). A reader may take more values than the writer makes.
-/

namespace JournalCache

/-- A way to write the elements of a type as JSON values and to read them back. -/
class JsonForm (α : Type) where
  /-- The value that stands for an element. -/
  toJson : α → Json
  /-- The element that a value stands for. -/
  ofJson? : Json → Option α

export JsonForm (toJson ofJson?)

def encode {α : Type} [JsonForm α] (a : α) : String := (toJson a).print

def decode? {α : Type} [JsonForm α] (s : String) : Option α := do
  let j ← Json.parse? s
  ofJson? j

instance : JsonForm String where
  toJson s := .text (some s)
  ofJson?
    | .text s => s
    | _ => none

instance {α : Type} [JsonForm α] : JsonForm (List α) where
  toJson as := .list (as.map toJson)
  ofJson?
    | .list items => items.mapM ofJson?
    | _ => none

instance : JsonForm UInt64 where
  toJson n := .number (some n.toNat)
  ofJson?
    | .number (some n) => if 0 ≤ n ∧ n < UInt64.size then some (UInt64.ofNat n.toNat) else none
    | _ => none

instance : JsonForm Int32 where
  toJson n := .number (some n.toInt)
  ofJson?
    | .number (some n) =>
      if Int32.minValue.toInt ≤ n ∧ n ≤ Int32.maxValue.toInt then some (Int32.ofInt n) else none
    | _ => none

end JournalCache

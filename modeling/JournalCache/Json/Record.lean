import JournalCache.Json.Basic

/-!
# Records in JSON

A record is written as an object with one member per field, or as the list of the values of its
fields in their order. In an object the members may come in any order and members of other names
are ignored, but every field must have exactly one member. `fieldValues?` reads both forms into the
values of the fields in their order.
-/

namespace JournalCache

namespace Json

/-- The value of the only member with this name. -/
def memberValue? (members : List (Option String × Json)) (name : String) : Option Json :=
  match members.filter fun m => m.1 == some name with
  | [m] => some m.2
  | _ => none

/-- The values of the fields with these names, in their order. -/
def fieldValues? (names : List String) : Json → Option (List Json)
  | .list items => if items.length = names.length then some items else none
  | .object members =>
    if members.all fun m => m.1.isSome then names.mapM (memberValue? members) else none
  | _ => none

def record (names : List String) (values : List Json) : Json :=
  .object ((names.map some).zip values)

end Json

end JournalCache

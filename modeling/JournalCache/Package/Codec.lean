import JournalCache.Json.Form
import JournalCache.Package.Message
import JournalCache.Time.Timestamp

/-!
# The JSON form of messages

A request is written as its word, a timestamp as a string, every other type as an object with its
fields in a fixed order. The readers take more: members in any order and with others between them,
a record as the list of its values, a request as an object whose one member is `null`, and any way
to write a string or a timestamp.
-/

namespace JournalCache

instance : JsonForm Instant where
  toJson t := toJson (Timestamp.print t)
  ofJson? j := do
    let s : String ← ofJson? j
    Timestamp.read? s

instance : JsonForm Request where
  toJson r := toJson r.word
  ofJson?
    | .text (some s) => Request.ofWord? s
    | .object [(some s, .null)] => Request.ofWord? s
    | _ => none

def Placement.fieldNames : List String := ["topic", "partition", "offset", "created_time"]

instance : JsonForm Placement where
  toJson p :=
    .record Placement.fieldNames
      [toJson p.topic, toJson p.partition, toJson p.offset, toJson p.created]
  ofJson? j := do
    match ← j.fieldValues? Placement.fieldNames with
    | [topic, partition, offset, created] =>
      pure
        { topic := ← ofJson? topic
          partition := ← ofJson? partition
          offset := ← ofJson? offset
          created := ← ofJson? created }
    | _ => none

def Package.fieldNames : List String :=
  ["pub_agent_name", "req_type", "package_id", "pkg_type", "paths", "deep_paths", "user_id",
    "pkg_length"]

instance : JsonForm Package where
  toJson p :=
    .record Package.fieldNames
      [toJson p.agent, toJson p.request, toJson p.id, toJson p.kind, toJson p.paths,
        toJson p.deepPaths, toJson p.user, toJson p.length]
  ofJson? j := do
    match ← j.fieldValues? Package.fieldNames with
    | [agent, request, id, kind, paths, deepPaths, user, length] =>
      pure
        { agent := ← ofJson? agent
          request := ← ofJson? request
          id := ← ofJson? id
          kind := ← ofJson? kind
          paths := ← ofJson? paths
          deepPaths := ← ofJson? deepPaths
          user := ← ofJson? user
          length := ← ofJson? length }
    | _ => none

def Message.fieldNames : List String := ["info", "message"]

instance : JsonForm Message where
  toJson m := .record Message.fieldNames [toJson m.placement, toJson m.package]
  ofJson? j := do
    match ← j.fieldValues? Message.fieldNames with
    | [placement, package] =>
      pure { placement := ← ofJson? placement, package := ← ofJson? package }
    | _ => none

def Item.fieldNames : List String :=
  ["package_id", "offset", "req_type", "pkg_type", "paths", "deep_paths", "user_id", "pkg_length",
    "created_at"]

instance : JsonForm Item where
  toJson i :=
    .record Item.fieldNames
      [toJson i.packageId, toJson i.offset, toJson i.request, toJson i.kind, toJson i.paths,
        toJson i.deepPaths, toJson i.user, toJson i.length, toJson i.created]
  ofJson? j := do
    match ← j.fieldValues? Item.fieldNames with
    | [packageId, offset, request, kind, paths, deepPaths, user, length, created] =>
      pure
        { packageId := ← ofJson? packageId
          offset := ← ofJson? offset
          request := ← ofJson? request
          kind := ← ofJson? kind
          paths := ← ofJson? paths
          deepPaths := ← ofJson? deepPaths
          user := ← ofJson? user
          length := ← ofJson? length
          created := ← ofJson? created }
    | _ => none

end JournalCache

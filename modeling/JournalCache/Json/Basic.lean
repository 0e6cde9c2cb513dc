import JournalCache.Json.Token

/-!
# JSON values

A `Json` value is what a JSON text denotes: members keep their order and repetitions, numbers and
strings keep what their tokens keep. `Json.tokens` lists the tokens of a value. `Json.ofTokens?`
reads a value back with a machine that takes one token at a time over a stack of the lists and
objects it is inside of, so it needs no bound on the depth.
-/

namespace JournalCache

/-- What a JSON text denotes. -/
inductive Json where
  | null
  | bool (value : Bool)
  /-- A number, with its value if it is written as a whole number. -/
  | number (whole : Option Int)
  /-- A string, with its characters if it spells any. -/
  | text (content : Option String)
  | list (items : List Json)
  /-- The members in the order in which they are written. -/
  | object (members : List (Option String × Json))

namespace Json

mutual

def tokens : Json → List Token
  | .null => [.null]
  | .bool b => [.bool b]
  | .number n => [.number n]
  | .text s => [.text s]
  | .list items => .openBracket :: itemTokens items ++ [.closeBracket]
  | .object members => .openBrace :: memberTokens members ++ [.closeBrace]

/-- The tokens of the items of a list, with commas between them. -/
def itemTokens : List Json → List Token
  | [] => []
  | [j] => j.tokens
  | j :: js => j.tokens ++ .comma :: itemTokens js

/-- The tokens of the members of an object, with commas between them. -/
def memberTokens : List (Option String × Json) → List Token
  | [] => []
  | [(k, j)] => .text k :: .colon :: j.tokens
  | (k, j) :: ms => .text k :: .colon :: j.tokens ++ .comma :: memberTokens ms

end

/-- A list or object that is being read, with what was read of it, latest first. -/
inductive Frame where
  | list (items : List Json)
  /-- An object whose member under `key` is being read. -/
  | object (members : List (Option String × Json)) (key : Option String)

/-- Where a reader stands, inside of which frames, innermost first. -/
inductive Reading where
  /-- A value must come. -/
  | value (frames : List Frame)
  /-- A list was opened: a value or the closing bracket must come. -/
  | firstItem (frames : List Frame)
  /-- An object was opened: a key or the closing brace must come. -/
  | firstKey (frames : List Frame)
  /-- A key must come. -/
  | nextKey (members : List (Option String × Json)) (frames : List Frame)
  /-- A colon must come. -/
  | colon (members : List (Option String × Json)) (key : Option String) (frames : List Frame)
  /-- A value has ended. -/
  | ended (value : Json) (frames : List Frame)

namespace Reading

def start (frames : List Frame) : Token → Option Reading
  | .null => some (.ended .null frames)
  | .bool b => some (.ended (.bool b) frames)
  | .number n => some (.ended (.number n) frames)
  | .text s => some (.ended (.text s) frames)
  | .openBracket => some (.firstItem frames)
  | .openBrace => some (.firstKey frames)
  | _ => none

def step : Reading → Token → Option Reading
  | .value frames, t => start frames t
  | .firstItem frames, .closeBracket => some (.ended (.list []) frames)
  | .firstItem frames, t => start (.list [] :: frames) t
  | .firstKey frames, .closeBrace => some (.ended (.object []) frames)
  | .firstKey frames, .text k => some (.colon [] k frames)
  | .nextKey members frames, .text k => some (.colon members k frames)
  | .colon members k frames, .colon => some (.value (.object members k :: frames))
  | .ended v (.list items :: frames), .comma => some (.value (.list (v :: items) :: frames))
  | .ended v (.list items :: frames), .closeBracket =>
    some (.ended (.list (v :: items).reverse) frames)
  | .ended v (.object members k :: frames), .comma => some (.nextKey ((k, v) :: members) frames)
  | .ended v (.object members k :: frames), .closeBrace =>
    some (.ended (.object ((k, v) :: members).reverse) frames)
  | _, _ => none

/-- The value read, if nothing is open and nothing is missing. -/
def finish : Reading → Option Json
  | .ended v [] => some v
  | _ => none

end Reading

def ofTokens? (ts : List Token) : Option Json := do
  let r ← ts.foldlM Reading.step (.value [])
  r.finish

def read? (cs : List Char) : Option Json := do
  let ts ← Token.scan cs
  ofTokens? ts

end Json

end JournalCache

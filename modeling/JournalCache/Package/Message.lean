import JournalCache.Offset
import JournalCache.Package.Request
import JournalCache.Text.Numeral
import JournalCache.Time.Instant

/-!
# Messages of the journal

An agent publishes packages. The journal stores a package as a message: the package together with
the place that the journal gave it. Somebody who follows the tail of the journal is sent messages,
and markers that carry a place and nothing else. What a queue shows of a message is an item.
-/

namespace JournalCache

structure Placement where
  topic : String
  partition : Int32
  offset : Offset
  created : Instant
  deriving DecidableEq

structure Package where
  /-- The agent that published it. -/
  agent : String
  request : Request
  id : String
  kind : String
  paths : List String
  deepPaths : List String
  user : String
  length : UInt64
  deriving DecidableEq

/-- A package of which nothing else is known. -/
def Package.bare (agent : String) (request : Request) (id : String) : Package :=
  { agent, request, id, kind := "", paths := [], deepPaths := [], user := "", length := 0 }

structure Message where
  placement : Placement
  package : Package
  deriving DecidableEq

namespace Message

def offset (m : Message) : Offset := m.placement.offset

def agent (m : Message) : String := m.package.agent

/-- Whether the message is kept out of the queues. -/
def isTest (m : Message) : Bool := m.package.request.isTest

end Message

/-- What the tail of the journal delivers. -/
inductive Delivery where
  /-- A place at which nothing has to be stored. -/
  | marker (placement : Placement)
  | message (message : Message)
  deriving DecidableEq

namespace Delivery

def offset : Delivery → Offset
  | .marker p => p.offset
  | .message m => m.offset

def isMarker : Delivery → Bool
  | .marker _ => true
  | .message _ => false

end Delivery

/-- What a queue shows of a message. -/
structure Item where
  packageId : String
  offset : Offset
  request : Request
  kind : String
  paths : List String
  deepPaths : List String
  user : String
  length : UInt64
  created : Instant
  deriving DecidableEq

namespace Item

def ofMessage (m : Message) : Item :=
  { packageId := m.package.id
    offset := m.offset
    request := m.package.request
    kind := m.package.kind
    paths := m.package.paths
    deepPaths := m.package.deepPaths
    user := m.package.user
    length := m.package.length
    created := m.placement.created }

def name (i : Item) : String := "package-" ++ Decimal.text i.offset.toNat

end Item

end JournalCache

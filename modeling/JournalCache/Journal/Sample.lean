import JournalCache.Package.Message
import JournalCache.Text.Numeral

/-!
# Sample records

Records to try a cache with. Everything about them follows from the agent and the offset, except
the time of their creation.
-/

namespace JournalCache

namespace Sample

def topic : String := "aemdistribution_package"

def placement (created : Instant) (offset : Offset) : Placement :=
  { topic, partition := 0, offset, created }

def message (created : Instant) (offset : Offset) (agent : String) (request : Request) : Message :=
  let n := Decimal.text offset.toNat
  { placement := placement created offset
    package :=
      { Package.bare agent request ("pkg-" ++ n) with
        kind := "journal_distribution"
        paths := ["/content/" ++ agent ++ "/" ++ n]
        user := "admin" } }

def marker (created : Instant) (offset : Offset) : Delivery := .marker (placement created offset)

/-- Packages of an agent that add content, one at each offset. -/
def messages (created : Instant) (agent : String) (offsets : List Offset) : List Message :=
  offsets.map fun o => message created o agent .add

end Sample

end JournalCache

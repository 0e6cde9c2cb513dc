import JournalCache.AgentTable
import JournalCache.Coverage

/-!
# Merging messages into what a cache holds

A cache holds a table of queues and the marks of what it covers. A batch of messages is merged agent
by agent, in the order in which the agents first appear: the agent's messages go into its queue, and
then a listener is told of them. Test messages are left out. Only when all agents are done is the
lowest mark lowered to the first message of the batch, so whoever finds an offset covered finds its
items too. What the listener finds when it is told is part of the notice.
-/

namespace JournalCache

structure Holdings where
  table : AgentTable
  coverage : Coverage
  deriving Inhabited

/-- What a listener is told, and what the cache held at that moment. -/
structure Notice where
  agent : String
  messages : List Message
  holdings : Holdings

/-- What a cache reports to: the registry of its queues, and the listener, with all it was told. -/
structure Outlet where
  registry : Registry
  notices : List Notice

namespace Outlet

def empty : Outlet := ⟨.empty, []⟩

instance : Inhabited Outlet := ⟨empty⟩

end Outlet

/-- The groups of a batch while it is read. -/
structure Grouping where
  /-- Each agent with its messages so far, in the order of the agents' first appearance. -/
  groups : List (String × List Message)
  /-- Where the group of an agent stands. -/
  places : SortedMap String Nat

namespace Grouping

def empty : Grouping := ⟨[], .empty⟩

/-- The place of an agent's group, which is opened behind the others if there is none. -/
def place (g : Grouping) (agent : String) : Grouping × Nat :=
  match g.places.get? agent with
  | some k => (g, k)
  | none =>
    let k := g.groups.length
    ({ groups := g.groups ++ [(agent, [])], places := g.places.insert agent k }, k)

/-- Puts a message into the group of its agent. -/
def add (g : Grouping) (m : Message) : Grouping :=
  let (g, k) := g.place m.agent
  { g with groups := g.groups.modify k fun group => (group.1, group.2 ++ [m]) }

end Grouping

namespace Message

/-- The messages that go into queues. -/
def shown (batch : List Message) : List Message := batch.filter fun m => !m.isTest

/-- The messages of a batch that are no tests by agent, in the order of the agents' first
appearance. -/
def grouped (batch : List Message) : List (String × List Message) :=
  ((shown batch).foldl Grouping.add .empty).groups

/-- The queue that messages leave in an empty one. -/
def staged (batch : List Message) : Queue Item :=
  .ofList (batch.map fun m => (m.offset, Item.ofMessage m))

end Message

/-- What became of the messages of a batch. -/
structure MergeCount where
  /-- Messages put into queues. -/
  merged : Nat
  /-- Test messages left out. -/
  filtered : Nat
  /-- Agents the listener was told of. -/
  agents : Nat
  deriving DecidableEq, Repr

def MergeCount.ofBatch (batch : List Message) : MergeCount :=
  let groups := Message.grouped batch
  let merged := groups.foldr (fun g n => g.2.length + n) 0
  { merged, filtered := batch.length - merged, agents := groups.length }

namespace Holdings

def empty (number : Nat) (registers : Bool) : Holdings := ⟨.empty number registers, .unseeded⟩

/-- Puts the messages of one agent into its queue and tells the listener. -/
def mergeGroup (s : Holdings × Outlet) (group : String × List Message) : Holdings × Outlet :=
  let (h, o) := s
  let (table, registry) := h.table.ensure o.registry group.1
  let h := { h with table := table.put group.1 (Message.staged group.2) }
  (h, { registry, notices := o.notices ++ [⟨group.1, group.2, h⟩] })

/-- Lowers the lowest mark to the first message of a batch. -/
def lowerTo (h : Holdings) (batch : List Message) : Holdings :=
  match batch with
  | [] => h
  | m :: _ => { h with coverage := h.coverage.lower m.offset }

def merge (h : Holdings) (o : Outlet) (batch : List Message) : Holdings × Outlet :=
  let (h, o) := (Message.grouped batch).foldl mergeGroup (h, o)
  (h.lowerTo batch, o)

/-- Handles one record of the tail: a marker lowers the lowest mark, a message is merged and raises
the highest mark. -/
def ingest (h : Holdings) (o : Outlet) : Delivery → Holdings × Outlet
  | .marker p => ({ h with coverage := h.coverage.lower p.offset }, o)
  | .message m =>
    let (h, o) := h.merge o [m]
    ({ h with coverage := h.coverage.raise m.offset }, o)

end Holdings

end JournalCache

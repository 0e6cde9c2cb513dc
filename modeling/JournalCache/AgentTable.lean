import JournalCache.Package.Message
import JournalCache.Queue
import JournalCache.Registry
import JournalCache.Text.Quoted

/-!
# The table of queues by agent

A table holds one queue per agent. A queue is made when it is first asked for and is never taken
out. If the table registers queues, a new queue is registered once, when it is made; should the
registry refuse it, it stays unregistered. Releasing the registrations ends all registering: each
registration is released once, in the order of the agents' names, and later queues are not
registered.
-/

namespace JournalCache

/-- The queues of all agents, and their registrations. -/
structure AgentTable where
  /-- Tells the table from others that use the same registry. -/
  number : Nat
  queues : SortedMap String (Queue Item)
  /-- Whether new queues are registered. -/
  registers : Bool
  /-- The registrations that were made and not yet released. -/
  registrations : SortedMap String Listing
  /-- Whether the registrations were released. -/
  isReleased : Bool

namespace AgentTable

def empty (number : Nat) (registers : Bool) : AgentTable :=
  { number, registers, queues := .empty, registrations := .empty, isReleased := false }

instance : Inhabited AgentTable := ⟨empty 0 true⟩

def queue? (t : AgentTable) (agent : String) : Option (Queue Item) := t.queues.get? agent

def queue (t : AgentTable) (agent : String) : Queue Item := (t.queue? agent).getD .empty

/-- Takes the registration of an agent out and releases it. A failure is ignored. -/
def releaseOne (t : AgentTable) (r : Registry) (agent : String) : AgentTable × Registry :=
  if t.registrations.contains agent then
    ({ t with registrations := t.registrations.erase agent }, (r.release agent).1)
  else (t, r)

/-- Registers the queue of an agent, unless the registrations were released or the registry
refuses. -/
def register (t : AgentTable) (r : Registry) (agent : String) : AgentTable × Registry :=
  if t.isReleased then (t, r)
  else
    let listing := ⟨agent, t.number⟩
    match r.register listing with
    | .error _ => (t, r)
    | .ok r =>
      let t := { t with registrations := t.registrations.insert agent listing }
      -- A second look, in case of a release in between. As registering is one step, there is none.
      if t.isReleased then t.releaseOne r agent else (t, r)

/-- Makes the queue of an agent if there is none, and registers it. -/
def ensure (t : AgentTable) (r : Registry) (agent : String) : AgentTable × Registry :=
  if t.queues.contains agent then (t, r)
  else
    let t := { t with queues := t.queues.insert agent .empty }
    if t.registers then t.register r agent else (t, r)

/-- Overwrites items of an agent that has a queue. -/
def put (t : AgentTable) (agent : String) (staged : Queue Item) : AgentTable :=
  { t with queues := t.queues.insert agent ((t.queue agent).putStaged staged) }

/-- Releases every registration in the order of the agents' names. -/
def release (t : AgentTable) (r : Registry) : AgentTable × Registry :=
  t.registrations.keys.foldl (fun s agent => s.1.releaseOne s.2 agent)
    ({ t with isReleased := true }, r)

def agents (t : AgentTable) : List String := t.queues.keys

def size (t : AgentTable) : Nat := t.queues.size

def total (t : AgentTable) : Nat := t.queues.values.foldr (fun q n => q.size + n) 0

def describe (t : AgentTable) : String :=
  "AgentQueues \x7b agents: " ++ Text.quotedList t.agents ++ ", register_queues: "
    ++ Text.flag t.registers ++ ", .. \x7d"

end AgentTable

end JournalCache

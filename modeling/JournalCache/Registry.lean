import JournalCache.Fault

/-!
# The registry of queues

The queue of an agent can be registered so that others may look at it. The registry lists every
registration in the order in which it was made and keeps the names that were released in the order
of their release; a released registration stays listed. It can be told to refuse registrations, and
to report a failure for releases, which it records all the same.
-/

namespace JournalCache

/-- A registered queue: the agent it belongs to and the number of the table that holds it. -/
structure Listing where
  agent : String
  table : Nat
  deriving DecidableEq, Repr

structure Registry where
  /-- The registered queues, in the order of registration. -/
  listings : List Listing
  /-- The agents whose registration was released, in the order of release. -/
  released : List String
  /-- Whether registrations are refused. -/
  refusesQueues : Bool
  /-- Whether a release reports a failure. -/
  failsReleases : Bool
  deriving DecidableEq, Repr

namespace Registry

def empty : Registry := ⟨[], [], false, false⟩

instance : Inhabited Registry := ⟨empty⟩

def register (r : Registry) (l : Listing) : Except Fault Registry :=
  if r.refusesQueues then .error (.registerFailed l.agent "injected failure")
  else .ok { r with listings := r.listings ++ [l] }

/-- Releases the registration of an agent, and tells whether that failed. -/
def release (r : Registry) (agent : String) : Registry × Except Fault Unit :=
  ({ r with released := r.released ++ [agent] },
    if r.failsReleases then .error (.unregisterFailed agent "injected failure") else .ok ())

def agents (r : Registry) : List String := r.listings.map (·.agent)

def listing? (r : Registry) (agent : String) : Option Listing :=
  r.listings.find? fun l => l.agent == agent

end Registry

end JournalCache

import ReleaseGate.Audit.Chain
import ReleaseGate.Policy.Engine

/-!
# Audit trails

A trail is a chain that grows at its end. All holders of a trail share it. If a writer crashes while
it holds the trail, the trail is closed for good: what is stored stays, and nothing is added,
exported or vouched for any more.

* `Trail.append`, `Trail.exportLog`: the next event, and the chain so far.
* `Trail.verify`: whether the trail is open and its events are a chain.
* `Trail.recorder`: a hook that appends every pass of an engine.
-/

namespace ReleaseGate

/-- A chain that grows at its end. -/
structure Trail where
  id : String
  events : List AuditEvent
  lastHash : String
  /-- A writer crashed while it held the trail. -/
  crashed : Bool

namespace Trail

/-- A trail without events. -/
def new (id : String) : Trail := ⟨id, [], genesisHash, false⟩

/-- What every use of a closed trail comes to. -/
def crashFault : Fault := .auditWrite .crashedWriter

/-- The event that comes next. -/
def nextEvent (trail : Trail) (record : EvaluationRecord) : AuditEvent :=
  .make trail.id (UInt64.ofNat trail.events.length) record trail.lastHash

/-- The trail with one more event. -/
def append (trail : Trail) (record : EvaluationRecord) : Except Fault Trail :=
  if trail.crashed then .error crashFault
  else
    let event := trail.nextEvent record
    .ok { trail with events := trail.events ++ [event], lastHash := event.thisHash }

/-- The trail after a writer crashed in it, before its event was stored. -/
def crash (trail : Trail) : Trail := { trail with crashed := true }

/-- How many events there are. -/
def size (trail : Trail) : Nat := trail.events.length

/-- The hash of the last event; empty if there is none. -/
def terminalHash (trail : Trail) : String := (trail.events.getLast?.map (·.thisHash)).getD ""

/-- The chain so far. -/
def exportLog (trail : Trail) (now : Instant) : Except Fault AuditLog :=
  if trail.crashed then .error crashFault
  else .ok ⟨trail.id, trail.events, now, trail.terminalHash⟩

/-- Whether the trail is open and its events are a chain. -/
def verify (trail : Trail) : Bool := !trail.crashed && verifyChain trail.events

/-- A trail in a log line. -/
def logText (trail : Trail) : String :=
  "AuditTrail \x7b trail_id: " ++ logQuote trail.id ++ ", events: " ++ toString trail.size ++ " \x7d"

/-- Where the surroundings of an engine keep a trail, and where they take stamps from. -/
structure Access (σ : Type) where
  get : σ → Trail
  set : Trail → σ → σ
  stamp : StateM σ Stamp

/-- A hook that appends every pass to a trail; it fails if the trail is closed. -/
def recorder {σ : Type} (access : Access σ) : Hook σ :=
  .postEvaluate fun ctx verdicts => do
    let stamp ← access.stamp
    let surroundings ← get
    match (access.get surroundings).append (.ofPass stamp ctx verdicts) with
    | .ok trail =>
      set (access.set trail surroundings)
      return .returned ()
    | .error fault => return .failed fault

end Trail

end ReleaseGate

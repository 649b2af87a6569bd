import ReleaseGate.Policy.Verdict
import ReleaseGate.Audit.Uuid
import ReleaseGate.Json.Writer

/-!
# Evaluation records

A record says what one pass of the engine came to: the context, the verdicts on it, and whether the
action was allowed.

* `EvaluationRecord.ofPass`: the record of a pass, given a fresh identifier and the time.
* `EvaluationRecord.content`, `EvaluationRecord.read?`: a record as a record of a document.
-/

namespace ReleaseGate

/-- A fresh identifier and the present time. -/
structure Stamp where
  id : Uuid
  time : Instant
  deriving DecidableEq

/-- What one pass came to. -/
structure EvaluationRecord where
  evaluationId : Uuid
  context : Context
  verdicts : List Verdict
  allowed : Bool
  timestamp : Instant

/-- An identifier in a document. -/
def Uuid.readNode? (node : Json.Node) : Option Uuid := (Document.text? node).bind Uuid.read?

namespace EvaluationRecord

/-- The record of a pass; it is allowed if no verdict is a denial. -/
def ofPass (stamp : Stamp) (context : Context) (verdicts : List Verdict) : EvaluationRecord where
  evaluationId := stamp.id
  context
  verdicts
  allowed := !verdicts.any Verdict.isDeny
  timestamp := stamp.time

/-- A record as a record of a document. -/
def content (r : EvaluationRecord) : Content :=
  .record [("evaluation_id", .text r.evaluationId.text), ("context", r.context.content),
    ("results", .list (r.verdicts.map Verdict.content)), ("allowed", .flag r.allowed),
    ("timestamp", .text r.timestamp.text)]

/-- The compact JSON of a record. -/
def json (r : EvaluationRecord) : String := Json.compactText r.content

/-- The keys of a record. -/
def keys : List String := ["evaluation_id", "context", "results", "allowed", "timestamp"]

/-- The record in a document. -/
def read? (node : Json.Node) : Option EvaluationRecord := do
  let fields ← Document.record? keys node
  let evaluationId ← fields.required "evaluation_id" Uuid.readNode?
  let context ← fields.required "context" Context.read?
  let verdicts ← fields.required "results" (Document.list? Verdict.read?)
  let allowed ← fields.required "allowed" Document.flag?
  let timestamp ← fields.required "timestamp" Instant.readNode?
  return { evaluationId, context, verdicts, allowed, timestamp }

end EvaluationRecord

end ReleaseGate

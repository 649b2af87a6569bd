import ReleaseGate.Facts
import ReleaseGate.Validation

/-!
# Contexts

A context is a request for a decision: who wants to do what to which resource, and what is known
about it.

* `Context.check`: a context needs an action and a resource.
* `Context.withFact`: a context with one more fact in its metadata.
* `Context.content`, `Context.read?`: a context as a record. Metadata, score and validation level
  may be absent.
-/

namespace ReleaseGate

/-- The validation level of a request that names none. -/
def noValidation : String := "none"

/-- A request for a decision. -/
structure Context where
  /-- Who acts. -/
  actor : String
  /-- What they want to do. -/
  action : String
  /-- What they want to do it to. -/
  resource : String
  timestamp : Instant
  metadata : Facts := .empty
  /-- The latest score of the system. -/
  currentScore : Binary64 := 0
  /-- The highest validation level reached, as a tag of any kind. -/
  validationLevel : String := noValidation

namespace Context

/-- A context needs an action and a resource; the action is checked first. -/
def check (ctx : Context) : Except Fault Unit :=
  if isBlankText ctx.action then .error (.invalidInput (.blankContextField "action"))
  else if isBlankText ctx.resource then .error (.invalidInput (.blankContextField "resource"))
  else .ok ()

/-- A context with one more fact in its metadata. -/
def withFact (ctx : Context) (fact : Fact) : Context :=
  { ctx with metadata := ctx.metadata.note fact }

/-- Whether the metadata hold a true value under a key. -/
def flag (ctx : Context) (key : String) : Bool := ctx.metadata.holds key

/-- The fields before the timestamp. -/
def request (ctx : Context) : List (String × Content) :=
  [("actor", .text ctx.actor), ("action", .text ctx.action), ("resource", .text ctx.resource)]

/-- The fields after the timestamp. -/
def circumstances (ctx : Context) : List (String × Content) :=
  [("metadata", ctx.metadata.content), ("current_score", .real ctx.currentScore),
    ("validation_level", .text ctx.validationLevel)]

/-- A context as a record. -/
def content (ctx : Context) : Content :=
  .record (ctx.request ++ ("timestamp", .text ctx.timestamp.text) :: ctx.circumstances)

/-- The keys of a context's record. -/
def keys : List String :=
  ["actor", "action", "resource", "timestamp", "metadata", "current_score", "validation_level"]

/-- The context of a record. -/
def read? (node : Json.Node) : Option Context := do
  let fields ← Document.record? keys node
  let actor ← fields.required "actor" Document.text?
  let action ← fields.required "action" Document.text?
  let resource ← fields.required "resource" Document.text?
  let timestamp ← fields.required "timestamp" Instant.readNode?
  let metadata ← fields.optional "metadata" .empty Facts.read?
  let currentScore ← fields.optional "current_score" 0 Document.real?
  let validationLevel ← fields.optional "validation_level" noValidation Document.text?
  return { actor, action, resource, timestamp, metadata, currentScore, validationLevel }

end Context

end ReleaseGate

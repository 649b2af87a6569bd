import ReleaseGate.Policy.Context

/-!
# Verdicts

A verdict is one policy's decision on a context; an outcome is what all verdicts on it come to.
Only a denial blocks.

* `Outcome.ofVerdicts`: allowed if no verdict is a denial.
* `Outcome.denials`, `Outcome.requiresEscalation`: who denied, and whether a person has to decide.
-/

namespace ReleaseGate

/-- What a policy decides. -/
inductive Decision where
  /-- The action may go ahead. -/
  | allow
  /-- The action is blocked. -/
  | deny
  /-- A person has to look at it first; it is not blocked. -/
  | defer
  /-- The action may go ahead and is flagged for the audit trail. -/
  | audit
  deriving DecidableEq

namespace Decision

/-- All decisions. -/
def all : List Decision := [allow, deny, defer, audit]

/-- The tag of a decision. -/
def tag : Decision → String
  | allow => "allow"
  | deny => "deny"
  | defer => "defer"
  | audit => "audit"

/-- The decision of a tag. -/
def ofTag? (tag : String) : Option Decision := all.find? fun decision => decision.tag = tag

/-- The decision that a node names. -/
def read? {ν : Type} [Document ν] (node : ν) : Option Decision :=
  (Document.tag? node).bind ofTag?

end Decision

/-- What a policy is about. -/
inductive Category where
  | governance
  | architecture
  | implementation
  | security
  | compliance
  | operational
  deriving DecidableEq

namespace Category

/-- All categories. -/
def all : List Category :=
  [governance, architecture, implementation, security, compliance, operational]

/-- The tag of a category. -/
def tag : Category → String
  | governance => "governance"
  | architecture => "architecture"
  | implementation => "implementation"
  | security => "security"
  | compliance => "compliance"
  | operational => "operational"

/-- The name of a category, as in headings. -/
def title : Category → String
  | governance => "Governance"
  | architecture => "Architecture"
  | implementation => "Implementation"
  | security => "Security"
  | compliance => "Compliance"
  | operational => "Operational"

/-- The category of a tag. -/
def ofTag? (tag : String) : Option Category := all.find? fun category => category.tag = tag

/-- The category that a node names. -/
def read? {ν : Type} [Document ν] (node : ν) : Option Category :=
  (Document.tag? node).bind ofTag?

end Category

/-- One policy's decision on one context. -/
structure Verdict where
  decision : Decision
  policyId : String
  reason : String
  evidence : Facts := .empty
  /-- The decision needs more authority than a policy has. -/
  requiresEscalation : Bool := false

namespace Verdict

/-- A verdict with one more fact in its evidence. -/
def withFact (v : Verdict) (fact : Fact) : Verdict := { v with evidence := v.evidence.note fact }

/-- Whether the verdict blocks. -/
def isDeny (v : Verdict) : Bool := v.decision = .deny

/-- A verdict as a record. -/
def content (v : Verdict) : Content :=
  .record [("decision", .text v.decision.tag), ("policy_id", .text v.policyId),
    ("reason", .text v.reason), ("evidence", v.evidence.content),
    ("requires_escalation", .flag v.requiresEscalation)]

/-- The keys of a verdict's record. -/
def keys : List String := ["decision", "policy_id", "reason", "evidence", "requires_escalation"]

/-- The verdict of a record; evidence and escalation may be absent. -/
def read? (node : Json.Node) : Option Verdict := do
  let fields ← Document.record? keys node
  let decision ← fields.required "decision" Decision.read?
  let policyId ← fields.required "policy_id" Document.text?
  let reason ← fields.required "reason" Document.text?
  let evidence ← fields.optional "evidence" .empty Facts.read?
  let requiresEscalation ← fields.optional "requires_escalation" false Document.flag?
  return { decision, policyId, reason, evidence, requiresEscalation }

end Verdict

/-- What the verdicts on a context come to. -/
structure Outcome where
  allowed : Bool
  verdicts : List Verdict

namespace Outcome

/-- Allowed if no verdict is a denial. -/
def ofVerdicts (verdicts : List Verdict) : Outcome := ⟨!verdicts.any Verdict.isDeny, verdicts⟩

/-- The denials, in order. -/
def denials (o : Outcome) : List Verdict := o.verdicts.filter Verdict.isDeny

/-- Whether any verdict asks for more authority. -/
def requiresEscalation (o : Outcome) : Bool := o.verdicts.any (·.requiresEscalation)

/-- An outcome as a record. -/
def content (o : Outcome) : Content :=
  .record [("allowed", .flag o.allowed), ("results", .list (o.verdicts.map Verdict.content))]

/-- The outcome of a record. -/
def read? (node : Json.Node) : Option Outcome := do
  let fields ← Document.record? ["allowed", "results"] node
  let allowed ← fields.required "allowed" Document.flag?
  let verdicts ← fields.required "results" (Document.list? Verdict.read?)
  return { allowed, verdicts }

end Outcome

end ReleaseGate

import ReleaseGate.Policy.Verdict

/-!
# The standard policies

Four rules, each a function from contexts to verdicts.

* `ScoreRule`: deny below a least score.
* `ValidationRule`: defer a sensitive action without a privileged validation level.
* `ApprovalRule`: deny a protected resource without approval.
* `auditVerdict`: flag everything for the audit trail.
-/

namespace ReleaseGate

/-- The identifier of the score rule. -/
def scoreRuleId : String := "POL-SCORE-001"

/-- The identifier of the validation rule. -/
def validationRuleId : String := "POL-VAL-001"

/-- The identifier of the approval rule. -/
def approvalRuleId : String := "POL-APPROVAL-001"

/-- The identifier of the audit rule. -/
def auditRuleId : String := "POL-AUDIT-001"

/-- The metadata key of an approval. -/
def approvedKey : String := "approved"

/-- The metadata key of who approved. -/
def approverKey : String := "approver"

/-- A text between single quotes. -/
def inQuotes (text : String) : String := "'" ++ text ++ "'"

/-- Deny below a least score. -/
structure ScoreRule where
  minScore : Binary64
  deriving DecidableEq

namespace ScoreRule

/-- The rule used unless another one is configured. -/
def standard : ScoreRule := ⟨0.5⟩

/-- Whether a score is enough. -/
def meets (rule : ScoreRule) (score : Binary64) : Bool := rule.minScore.le score

/-- The verdict on a context. -/
def verdict (rule : ScoreRule) (ctx : Context) : Verdict :=
  let score := ctx.currentScore
  let evidence := (Facts.empty.insertReal "score" score).insertReal "threshold" rule.minScore
  if rule.meets score then
    { decision := .allow, policyId := scoreRuleId, evidence
      reason := "score " ++ score.text ++ " >= threshold " ++ rule.minScore.text }
  else
    { decision := .deny, policyId := scoreRuleId, evidence
      reason := "score " ++ score.text ++ " below threshold " ++ rule.minScore.text }

end ScoreRule

/-- Defer sensitive actions without a privileged validation level. -/
structure ValidationRule where
  sensitiveActions : List String
  privilegedLevels : List String
  deriving DecidableEq

namespace ValidationRule

/-- The rule used unless another one is configured. -/
def standard : ValidationRule where
  sensitiveActions :=
    ["deploy_production", "modify_governance", "update_architecture", "final_authority_decision"]
  privilegedLevels := ["external", "final-authority"]

/-- Whether an action needs validation. -/
def isSensitive (rule : ValidationRule) (action : String) : Bool :=
  rule.sensitiveActions.contains action

/-- Whether a validation level is enough for a sensitive action. -/
def isPrivileged (rule : ValidationRule) (level : String) : Bool :=
  rule.privilegedLevels.contains level

/-- The verdict on a context. -/
def verdict (rule : ValidationRule) (ctx : Context) : Verdict :=
  if !rule.isSensitive ctx.action then
    { decision := .allow, policyId := validationRuleId
      reason := "action does not require special validation" }
  else if rule.isPrivileged ctx.validationLevel then
    { decision := .allow, policyId := validationRuleId
      reason := "action " ++ inQuotes ctx.action ++ " has required validation level"
      evidence := Facts.empty.insertText "validation_level" ctx.validationLevel }
  else
    { decision := .defer, policyId := validationRuleId
      reason := "action " ++ inQuotes ctx.action ++ " requires validation"
      evidence :=
        (Facts.empty.insertText "required_level" (rule.privilegedLevels.headD "")).insertText
          "current_level" ctx.validationLevel
      requiresEscalation := true }

end ValidationRule

/-- Deny protected resources without approval. -/
structure ApprovalRule where
  protectedResources : List String
  deriving DecidableEq

namespace ApprovalRule

/-- The rule used unless another one is configured. -/
def standard : ApprovalRule where
  protectedResources :=
    ["governance_policy", "system_architecture", "security_config", "release_promotion"]

/-- Whether a resource needs approval. -/
def isProtected (rule : ApprovalRule) (resource : String) : Bool :=
  rule.protectedResources.contains resource

/-- The verdict on a context. -/
def verdict (rule : ApprovalRule) (ctx : Context) : Verdict :=
  if !rule.isProtected ctx.resource then
    { decision := .allow, policyId := approvalRuleId
      reason := "resource does not require approval" }
  else if ctx.flag approvedKey then
    { decision := .allow, policyId := approvalRuleId
      reason := "approval obtained for resource " ++ inQuotes ctx.resource
      evidence := Facts.empty.insertFrom "approver" ctx.metadata approverKey }
  else
    { decision := .deny, policyId := approvalRuleId
      reason := "resource " ++ inQuotes ctx.resource ++ " requires explicit approval"
      evidence := Facts.empty.insertText "resource" ctx.resource
      requiresEscalation := true }

end ApprovalRule

/-- Flag a context for the audit trail, with who, what, which resource and when. -/
def auditVerdict (ctx : Context) : Verdict where
  decision := .audit
  policyId := auditRuleId
  reason := "operation logged for evidence bundle"
  evidence :=
    (((Facts.empty.insertText "actor" ctx.actor).insertText "action" ctx.action).insertText
      "resource" ctx.resource).insertText "timestamp" ctx.timestamp.offsetText

end ReleaseGate

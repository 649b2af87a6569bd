import ReleaseGate.Policy.Standard

/-!
# Policy configurations

A policy configuration has one table for each standard policy: whether it is enabled, and its
parameters.

* `PolicyConfig.check`: the first fault of a configuration.
* `PolicyConfig.content`, `PolicyConfig.read?`: a configuration as a record. Every table and every
  key may be absent and is then the standard one.
-/

namespace ReleaseGate

/-- The table of the score policy. -/
structure ThresholdTable where
  enabled : Bool := true
  minScore : Binary64 := ScoreRule.standard.minScore
  deriving DecidableEq

/-- The table of the validation policy. -/
structure ValidationTable where
  enabled : Bool := true
  sensitiveActions : List String := ValidationRule.standard.sensitiveActions
  privilegedLevels : List String := ValidationRule.standard.privilegedLevels
  deriving DecidableEq

/-- The table of the approval policy. -/
structure ApprovalTable where
  enabled : Bool := true
  protectedResources : List String := ApprovalRule.standard.protectedResources
  deriving DecidableEq

/-- The table of the audit policy. -/
structure AuditTable where
  enabled : Bool := true
  deriving DecidableEq

/-- The tables of the standard policies. -/
structure PolicyConfig where
  threshold : ThresholdTable := {}
  validation : ValidationTable := {}
  approval : ApprovalTable := {}
  audit : AuditTable := {}
  deriving DecidableEq

/-- Texts as a list. -/
def textList (texts : List String) : Content := .list (texts.map Content.text)

namespace ThresholdTable

/-- A table as a record. -/
def content (t : ThresholdTable) : Content :=
  .record [("enabled", .flag t.enabled), ("min_score", .real t.minScore)]

/-- The table of a record. -/
def read? {ν : Type} [Document ν] (node : ν) : Option ThresholdTable := do
  let fields ← Document.record? ["enabled", "min_score"] node
  let enabled ← fields.optional "enabled" true Document.flag?
  let minScore ← fields.optional "min_score" ScoreRule.standard.minScore Document.real?
  return { enabled, minScore }

end ThresholdTable

namespace ValidationTable

/-- A table as a record. -/
def content (t : ValidationTable) : Content :=
  .record [("enabled", .flag t.enabled), ("sensitive_actions", textList t.sensitiveActions),
    ("privileged_levels", textList t.privilegedLevels)]

/-- The table of a record. -/
def read? {ν : Type} [Document ν] (node : ν) : Option ValidationTable := do
  let fields ← Document.record? ["enabled", "sensitive_actions", "privileged_levels"] node
  let enabled ← fields.optional "enabled" true Document.flag?
  let sensitiveActions ← fields.optional "sensitive_actions"
    ValidationRule.standard.sensitiveActions (Document.list? Document.text?)
  let privilegedLevels ← fields.optional "privileged_levels"
    ValidationRule.standard.privilegedLevels (Document.list? Document.text?)
  return { enabled, sensitiveActions, privilegedLevels }

end ValidationTable

namespace ApprovalTable

/-- A table as a record. -/
def content (t : ApprovalTable) : Content :=
  .record [("enabled", .flag t.enabled), ("protected_resources", textList t.protectedResources)]

/-- The table of a record. -/
def read? {ν : Type} [Document ν] (node : ν) : Option ApprovalTable := do
  let fields ← Document.record? ["enabled", "protected_resources"] node
  let enabled ← fields.optional "enabled" true Document.flag?
  let protectedResources ← fields.optional "protected_resources"
    ApprovalRule.standard.protectedResources (Document.list? Document.text?)
  return { enabled, protectedResources }

end ApprovalTable

namespace AuditTable

/-- A table as a record. -/
def content (t : AuditTable) : Content := .record [("enabled", .flag t.enabled)]

/-- The table of a record. -/
def read? {ν : Type} [Document ν] (node : ν) : Option AuditTable := do
  let fields ← Document.record? ["enabled"] node
  let enabled ← fields.optional "enabled" true Document.flag?
  return { enabled }

end AuditTable

namespace PolicyConfig

instance : Inhabited PolicyConfig := ⟨{}⟩

/-- No entry of a list is blank. -/
def checkEntries (name : String) (entries : List String) : Except Fault Unit :=
  if entries.any isBlankText then .error (.configuration (.blankEntry name)) else .ok ()

/-- The least score lies in the unit interval, and no list has a blank entry. -/
def check (config : PolicyConfig) : Except Fault Unit := do
  if !inUnitInterval config.threshold.minScore then
    throw (.configuration (.settingOutOfRange "threshold.min_score" config.threshold.minScore))
  checkEntries "validation.sensitive_actions" config.validation.sensitiveActions
  checkEntries "validation.privileged_levels" config.validation.privilegedLevels
  checkEntries "approval.protected_resources" config.approval.protectedResources

/-- The configuration itself, once checked. -/
def checked (config : PolicyConfig) : Except Fault PolicyConfig := do
  config.check
  return config

/-- A configuration as a record. -/
def content (config : PolicyConfig) : Content :=
  .record [("threshold", config.threshold.content), ("validation", config.validation.content),
    ("approval", config.approval.content), ("audit", config.audit.content)]

/-- The configuration of a record. -/
def read? {ν : Type} [Document ν] (node : ν) : Option PolicyConfig := do
  let fields ← Document.record? ["threshold", "validation", "approval", "audit"] node
  let threshold ← fields.optional "threshold" {} ThresholdTable.read?
  let validation ← fields.optional "validation" {} ValidationTable.read?
  let approval ← fields.optional "approval" {} ApprovalTable.read?
  let audit ← fields.optional "audit" {} AuditTable.read?
  return { threshold, validation, approval, audit }

end PolicyConfig

end ReleaseGate

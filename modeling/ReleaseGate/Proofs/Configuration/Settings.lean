import ReleaseGate.Policy.Config
import ReleaseGate.Proofs.Configuration.Parts
import ReleaseGate.Scoring.Config

/-!
# What a configuration document sets

Each known key of a configuration sets one field and nothing else. In a policy configuration this
holds for the keys within each table.

* `PolicyConfig.Setting`, `ScoringConfig.Setting`: one field and the value that it is set to.
* `PolicyConfig.schema`, `ScoringConfig.schema`: what each known key sets, in any format.
* `PolicyConfig.parts`, `ScoringConfig.parts`: the fields, each with what it holds.
* `PolicyConfig.laidOver`, `ScoringConfig.laidOver`: a configuration is the standard one with the
  settings of its document put in.
-/

namespace ReleaseGate

variable {ν : Type} [Document ν]

/-! ## The tables of a policy configuration -/

namespace ThresholdTable

/-- A field of the table of the score policy, and its value. -/
inductive Setting where
  | enabled (value : Bool)
  | minScore (value : Binary64)
  deriving DecidableEq

/-- Where a setting stands in a document. -/
def Setting.path : Setting → List String
  | enabled _ => ["enabled"]
  | minScore _ => ["min_score"]

/-- A table with one field set. -/
def Setting.put : Setting → ThresholdTable → ThresholdTable
  | enabled value, table => { table with enabled := value }
  | minScore value, table => { table with minScore := value }

/-- What each key sets. -/
def schema (ν : Type) [Document ν] : Schema ν Setting :=
  [("enabled", Schema.leaf Document.flag? .enabled),
    ("min_score", Schema.leaf Document.real? .minScore)]

/-- The fields of the table. -/
def parts (ν : Type) [Document ν] : List (Part ν Setting.path Setting.put {}) :=
  [.leaf "enabled" Document.flag? (·.enabled) .enabled (fun _ => rfl) fun _ _ => rfl,
    .leaf "min_score" Document.real? (·.minScore) .minScore (fun _ => rfl) fun _ _ => rfl]

theorem assembled : Assembled (schema ν) (parts ν) read? where
  schema_eq := rfl
  nodup := by simp [schema, Schema.keys]
  read?_iff node table := by
    obtain ⟨enabled, minScore⟩ := table
    simp [-Bool.exists_bool, read?, parts, Part.read?, Part.leaf, schema, Schema.keys,
      Option.bind_eq_some_iff]
  ext a b h := by
    cases a
    cases b
    simpa [parts, Part.leaf] using h
  cover s := by cases s <;> simp [parts, Part.leaf]
  get_set_of_ne := by simp [parts, Part.leaf, Setting.put]

/-- A table is the standard one with the settings of its document put in. -/
theorem laidOver [LawfulDocument ν] :
    LaidOver read? (schema ν).settings? Setting.path Setting.put {} :=
  assembled.laidOver

end ThresholdTable

namespace ValidationTable

/-- A field of the table of the validation policy, and its value. -/
inductive Setting where
  | enabled (value : Bool)
  | sensitiveActions (value : List String)
  | privilegedLevels (value : List String)
  deriving DecidableEq

/-- Where a setting stands in a document. -/
def Setting.path : Setting → List String
  | enabled _ => ["enabled"]
  | sensitiveActions _ => ["sensitive_actions"]
  | privilegedLevels _ => ["privileged_levels"]

/-- A table with one field set. -/
def Setting.put : Setting → ValidationTable → ValidationTable
  | enabled value, table => { table with enabled := value }
  | sensitiveActions value, table => { table with sensitiveActions := value }
  | privilegedLevels value, table => { table with privilegedLevels := value }

/-- What each key sets. -/
def schema (ν : Type) [Document ν] : Schema ν Setting :=
  [("enabled", Schema.leaf Document.flag? .enabled),
    ("sensitive_actions", Schema.leaf (Document.list? Document.text?) .sensitiveActions),
    ("privileged_levels", Schema.leaf (Document.list? Document.text?) .privilegedLevels)]

/-- The fields of the table. -/
def parts (ν : Type) [Document ν] : List (Part ν Setting.path Setting.put {}) :=
  [.leaf "enabled" Document.flag? (·.enabled) .enabled (fun _ => rfl) fun _ _ => rfl,
    .leaf "sensitive_actions" (Document.list? Document.text?) (·.sensitiveActions) .sensitiveActions
      (fun _ => rfl) fun _ _ => rfl,
    .leaf "privileged_levels" (Document.list? Document.text?) (·.privilegedLevels) .privilegedLevels
      (fun _ => rfl) fun _ _ => rfl]

theorem assembled : Assembled (schema ν) (parts ν) read? where
  schema_eq := rfl
  nodup := by simp [schema, Schema.keys]
  read?_iff node table := by
    obtain ⟨enabled, sensitiveActions, privilegedLevels⟩ := table
    simp [-Bool.exists_bool, read?, parts, Part.read?, Part.leaf, schema, Schema.keys,
      Option.bind_eq_some_iff]
  ext a b h := by
    cases a
    cases b
    simpa [parts, Part.leaf] using h
  cover s := by cases s <;> simp [parts, Part.leaf]
  get_set_of_ne := by simp [parts, Part.leaf, Setting.put]

theorem laidOver [LawfulDocument ν] :
    LaidOver read? (schema ν).settings? Setting.path Setting.put {} :=
  assembled.laidOver

end ValidationTable

namespace ApprovalTable

/-- A field of the table of the approval policy, and its value. -/
inductive Setting where
  | enabled (value : Bool)
  | protectedResources (value : List String)
  deriving DecidableEq

/-- Where a setting stands in a document. -/
def Setting.path : Setting → List String
  | enabled _ => ["enabled"]
  | protectedResources _ => ["protected_resources"]

/-- A table with one field set. -/
def Setting.put : Setting → ApprovalTable → ApprovalTable
  | enabled value, table => { table with enabled := value }
  | protectedResources value, table => { table with protectedResources := value }

/-- What each key sets. -/
def schema (ν : Type) [Document ν] : Schema ν Setting :=
  [("enabled", Schema.leaf Document.flag? .enabled),
    ("protected_resources", Schema.leaf (Document.list? Document.text?) .protectedResources)]

/-- The fields of the table. -/
def parts (ν : Type) [Document ν] : List (Part ν Setting.path Setting.put {}) :=
  [.leaf "enabled" Document.flag? (·.enabled) .enabled (fun _ => rfl) fun _ _ => rfl,
    .leaf "protected_resources" (Document.list? Document.text?)
      (·.protectedResources) .protectedResources (fun _ => rfl) fun _ _ => rfl]

theorem assembled : Assembled (schema ν) (parts ν) read? where
  schema_eq := rfl
  nodup := by simp [schema, Schema.keys]
  read?_iff node table := by
    obtain ⟨enabled, protectedResources⟩ := table
    simp [-Bool.exists_bool, read?, parts, Part.read?, Part.leaf, schema, Schema.keys,
      Option.bind_eq_some_iff]
  ext a b h := by
    cases a
    cases b
    simpa [parts, Part.leaf] using h
  cover s := by cases s <;> simp [parts, Part.leaf]
  get_set_of_ne := by simp [parts, Part.leaf, Setting.put]

theorem laidOver [LawfulDocument ν] :
    LaidOver read? (schema ν).settings? Setting.path Setting.put {} :=
  assembled.laidOver

end ApprovalTable

namespace AuditTable

/-- A field of the table of the audit policy, and its value. -/
inductive Setting where
  | enabled (value : Bool)
  deriving DecidableEq

/-- Where a setting stands in a document. -/
def Setting.path : Setting → List String
  | enabled _ => ["enabled"]

/-- A table with one field set. -/
def Setting.put : Setting → AuditTable → AuditTable
  | enabled value, table => { table with enabled := value }

/-- What each key sets. -/
def schema (ν : Type) [Document ν] : Schema ν Setting :=
  [("enabled", Schema.leaf Document.flag? .enabled)]

/-- The one field of the table. -/
def parts (ν : Type) [Document ν] : List (Part ν Setting.path Setting.put {}) :=
  [.leaf "enabled" Document.flag? (·.enabled) .enabled (fun _ => rfl) fun _ _ => rfl]

theorem assembled : Assembled (schema ν) (parts ν) read? where
  schema_eq := rfl
  nodup := by simp [schema, Schema.keys]
  read?_iff node table := by
    obtain ⟨enabled⟩ := table
    simp [-Bool.exists_bool, read?, parts, Part.read?, Part.leaf, schema, Schema.keys,
      Option.bind_eq_some_iff]
  ext a b h := by
    cases a
    cases b
    simpa [parts, Part.leaf] using h
  cover s := by
    cases s
    simp [parts, Part.leaf]
  get_set_of_ne := by simp [parts, Part.leaf, Setting.put]

theorem laidOver [LawfulDocument ν] :
    LaidOver read? (schema ν).settings? Setting.path Setting.put {} :=
  assembled.laidOver

end AuditTable

/-! ## Configurations -/

namespace PolicyConfig

/-- A field of one of the tables, and its value. -/
inductive Setting where
  | threshold (value : ThresholdTable.Setting)
  | validation (value : ValidationTable.Setting)
  | approval (value : ApprovalTable.Setting)
  | audit (value : AuditTable.Setting)
  deriving DecidableEq

/-- Where a setting stands in a document. -/
def Setting.path : Setting → List String
  | threshold value => "threshold" :: value.path
  | validation value => "validation" :: value.path
  | approval value => "approval" :: value.path
  | audit value => "audit" :: value.path

/-- A configuration with one field of a table set. -/
def Setting.put : Setting → PolicyConfig → PolicyConfig
  | threshold value, config => { config with threshold := value.put config.threshold }
  | validation value, config => { config with validation := value.put config.validation }
  | approval value, config => { config with approval := value.put config.approval }
  | audit value, config => { config with audit := value.put config.audit }

/-- What each key sets. -/
def schema (ν : Type) [Document ν] : Schema ν Setting :=
  [("threshold", Schema.table (ThresholdTable.schema ν) .threshold),
    ("validation", Schema.table (ValidationTable.schema ν) .validation),
    ("approval", Schema.table (ApprovalTable.schema ν) .approval),
    ("audit", Schema.table (AuditTable.schema ν) .audit)]

/-- The tables of a policy configuration. -/
def parts (ν : Type) [Document ν] [LawfulDocument ν] :
    List (Part ν Setting.path Setting.put {}) :=
  [.table "threshold" (·.threshold) (fun table config => { config with threshold := table })
      .threshold ThresholdTable.laidOver (fun _ _ => rfl) (fun _ => rfl) fun _ _ => rfl,
    .table "validation" (·.validation) (fun table config => { config with validation := table })
      .validation ValidationTable.laidOver (fun _ _ => rfl) (fun _ => rfl) fun _ _ => rfl,
    .table "approval" (·.approval) (fun table config => { config with approval := table })
      .approval ApprovalTable.laidOver (fun _ _ => rfl) (fun _ => rfl) fun _ _ => rfl,
    .table "audit" (·.audit) (fun table config => { config with audit := table })
      .audit AuditTable.laidOver (fun _ _ => rfl) (fun _ => rfl) fun _ _ => rfl]

theorem assembled [LawfulDocument ν] : Assembled (schema ν) (parts ν) read? where
  schema_eq := rfl
  nodup := by simp [schema, Schema.keys]
  read?_iff node config := by
    obtain ⟨threshold, validation, approval, audit⟩ := config
    simp [read?, parts, Part.read?, Part.table, schema, Schema.keys, Option.bind_eq_some_iff]
  ext a b h := by
    cases a
    cases b
    simpa [parts, Part.table] using h
  cover s := by cases s <;> simp [parts, Part.table]
  get_set_of_ne := by simp [parts, Part.table]

/-- A policy configuration is the standard one with the settings of its document put in. -/
theorem laidOver [LawfulDocument ν] :
    LaidOver read? (schema ν).settings? Setting.path Setting.put {} :=
  assembled.laidOver

end PolicyConfig

namespace ScoringConfig

/-- A field of a scoring configuration, and its value. -/
inductive Setting where
  | version (value : String)
  | thresholds (value : Thresholds)
  | readinessThreshold (value : Binary64)
  | minPassRate (value : Binary64)
  | weights (value : KeyMap Binary64)
  | requiredValidations (value : List Level)
  deriving DecidableEq

/-- Where a setting stands in a document. -/
def Setting.path : Setting → List String
  | version _ => ["version"]
  | thresholds _ => ["thresholds"]
  | readinessThreshold _ => ["readiness_threshold"]
  | minPassRate _ => ["min_pass_rate"]
  | weights _ => ["weights"]
  | requiredValidations _ => ["required_validations"]

/-- A configuration with one field set. -/
def Setting.put : Setting → ScoringConfig → ScoringConfig
  | version value, config => { config with version := value }
  | thresholds value, config => { config with thresholds := value }
  | readinessThreshold value, config => { config with readinessThreshold := value }
  | minPassRate value, config => { config with minPassRate := value }
  | weights value, config => { config with weights := value }
  | requiredValidations value, config => { config with requiredValidations := value }

/-- What each key sets. -/
def schema (ν : Type) [Document ν] : Schema ν Setting :=
  [("version", Schema.leaf Document.text? .version),
    ("thresholds", Schema.leaf Thresholds.read? .thresholds),
    ("readiness_threshold", Schema.leaf Document.real? .readinessThreshold),
    ("min_pass_rate", Schema.leaf Document.real? .minPassRate),
    ("weights", Schema.leaf readWeights? .weights),
    ("required_validations", Schema.leaf (Document.list? Level.read?) .requiredValidations)]

/-- The fields of a scoring configuration. -/
def parts (ν : Type) [Document ν] : List (Part ν Setting.path Setting.put standard) :=
  [.leaf "version" Document.text? (·.version) .version (fun _ => rfl) fun _ _ => rfl,
    .leaf "thresholds" Thresholds.read? (·.thresholds) .thresholds (fun _ => rfl) fun _ _ => rfl,
    .leaf "readiness_threshold" Document.real? (·.readinessThreshold) .readinessThreshold
      (fun _ => rfl) fun _ _ => rfl,
    .leaf "min_pass_rate" Document.real? (·.minPassRate) .minPassRate (fun _ => rfl) fun _ _ => rfl,
    .leaf "weights" readWeights? (·.weights) .weights (fun _ => rfl) fun _ _ => rfl,
    .leaf "required_validations" (Document.list? Level.read?)
      (·.requiredValidations) .requiredValidations (fun _ => rfl) fun _ _ => rfl]

theorem assembled : Assembled (schema ν) (parts ν) read? where
  schema_eq := rfl
  nodup := by simp [schema, Schema.keys]
  read?_iff node config := by
    obtain ⟨version, thresholds, readinessThreshold, minPassRate, weights, requiredValidations⟩ :=
      config
    simp [-Bool.exists_bool, read?, parts, Part.read?, Part.leaf, schema, keys, Schema.keys,
      Option.bind_eq_some_iff]
  ext a b h := by
    cases a
    cases b
    simpa [parts, Part.leaf] using h
  cover s := by cases s <;> simp [parts, Part.leaf]
  get_set_of_ne := by simp [parts, Part.leaf, Setting.put]

/-- A scoring configuration is the standard one with the settings of its document put in. -/
theorem laidOver [LawfulDocument ν] :
    LaidOver read? (schema ν).settings? Setting.path Setting.put standard :=
  assembled.laidOver

end ScoringConfig

end ReleaseGate

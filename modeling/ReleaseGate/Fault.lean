import ReleaseGate.Binary64.Shortest
import ReleaseGate.FileTree

/-!
# Faults

Every operation that can fail says why as a cause. `Fault.message` words each cause; the wording is
part of audit records and of the command line's output.
-/

namespace ReleaseGate

/-- What is wrong with an input. -/
inductive InputProblem where
  | blankComponentName
  | dimensionOutOfRange (component dimension : String) (value : Binary64)
  | repeatedComponent (component : String)
  | blankValidator
  | scoreOutOfRange (validator : String) (value : Binary64)
  | blankContextField (field : String)
  | unreadableFile (path : String) (cause : FileProblem)
  | malformedFile (format : String)
  /-- A reason that someone else gave. -/
  | stated (reason : String)
  deriving DecidableEq

/-- What is wrong with a configuration. -/
inductive ConfigProblem where
  | thresholdOutOfRange (threshold : String) (value : Binary64)
  | thresholdsNotAscending (lower : String) (lowerValue : Binary64)
      (upper : String) (upperValue : Binary64)
  | settingOutOfRange (setting : String) (value : Binary64)
  | blankEntry (list : String)
  | unreadableManifest (path : String) (cause : FileProblem)
  | unreadablePolicies (path : String) (cause : FileProblem)
  | malformed (document : String)
  /-- A reason that someone else gave. -/
  | stated (reason : String)
  deriving DecidableEq

/-- Why an audit record could not be written. -/
inductive AuditProblem where
  /-- A writer crashed while it held the trail. -/
  | crashedWriter
  /-- A reason that someone else gave. -/
  | stated (reason : String)
  deriving DecidableEq

/-- Why evidence could not be exported. -/
inductive ExportProblem where
  | createDirectory (path : String) (cause : FileProblem)
  | writeFile (path : String) (cause : FileProblem)
  /-- A reason that someone else gave. -/
  | stated (reason : String)
  deriving DecidableEq

/-- Why an operation failed. -/
inductive Fault where
  | invalidInput (problem : InputProblem)
  | configuration (problem : ConfigProblem)
  | policyFailed (policyId reason : String)
  | hookFailed (event reason : String)
  | unknownPolicy (policyId : String)
  | auditWrite (problem : AuditProblem)
  | exportFailed (problem : ExportProblem)
  deriving DecidableEq

/-- A number that had to be in the unit interval. -/
def outsideUnit (subject : String) (value : Binary64) : String :=
  subject ++ " must be within [0.0, 1.0], got " ++ value.text

/-- A path that an operation failed on. -/
def failedOn (operation path : String) (cause : FileProblem) : String :=
  operation ++ " '" ++ path ++ "': " ++ cause.message

/-- The wording of a problem with an input. -/
def InputProblem.reason : InputProblem → String
  | blankComponentName => "component name must not be empty"
  | dimensionOutOfRange component dimension value =>
    outsideUnit ("component '" ++ component ++ "' " ++ dimension) value
  | repeatedComponent component =>
    "component name '" ++ component ++ "' appears more than once"
  | blankValidator => "validator_id must not be empty"
  | scoreOutOfRange validator value =>
    outsideUnit ("validation '" ++ validator ++ "' score") value
  | blankContextField field => "context " ++ field ++ " must not be empty"
  | unreadableFile path cause => failedOn "failed to read input" path cause
  | malformedFile format => "failed to parse input " ++ format
  | stated reason => reason

/-- The wording of a problem with a configuration. -/
def ConfigProblem.reason : ConfigProblem → String
  | thresholdOutOfRange threshold value => outsideUnit ("threshold '" ++ threshold ++ "'") value
  | thresholdsNotAscending lower lowerValue upper upperValue =>
    "thresholds must be strictly ascending: " ++ lower ++ " (" ++ lowerValue.text ++ ") >= " ++
      upper ++ " (" ++ upperValue.text ++ ")"
  | settingOutOfRange setting value => outsideUnit setting value
  | blankEntry list => list ++ " must not contain empty entries"
  | unreadableManifest path cause => failedOn "failed to read manifest" path cause
  | unreadablePolicies path cause => failedOn "failed to read policy file" path cause
  | malformed document => "failed to parse " ++ document
  | stated reason => reason

/-- The wording of a problem with the audit trail. -/
def AuditProblem.reason : AuditProblem → String
  | crashedWriter => "audit state lock poisoned: poisoned lock: another task failed inside"
  | stated reason => reason

/-- The wording of a problem with an export. -/
def ExportProblem.reason : ExportProblem → String
  | createDirectory path cause => failedOn "failed to create bundle directory" path cause
  | writeFile path cause => failedOn "failed to write" path cause
  | stated reason => reason

/-- The wording of a fault. -/
def Fault.message : Fault → String
  | invalidInput problem => "invalid input: " ++ problem.reason
  | configuration problem => "configuration error: " ++ problem.reason
  | policyFailed policyId reason => "policy '" ++ policyId ++ "' failed to evaluate: " ++ reason
  | hookFailed event reason => "hook '" ++ event ++ "' failed: " ++ reason
  | unknownPolicy policyId => "no policy registered with id '" ++ policyId ++ "'"
  | auditWrite problem => "audit write failed: " ++ problem.reason
  | exportFailed problem => "export failed: " ++ problem.reason

/-- What the file system does, with a fault for a refusal. -/
def FileAccess.orFault {m : Type → Type} [Monad m] {α : Type} (fault : FileProblem → Fault)
    (action : m (Except FileProblem α)) : ExceptT Fault m α :=
  ExceptT.mk (Except.mapError fault <$> action)

end ReleaseGate

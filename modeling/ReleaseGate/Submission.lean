import ReleaseGate.Manifest
import ReleaseGate.Json.Node
import ReleaseGate.Validation

/-!
# Submissions

A submission is what is scored: components, and validations if there are any.

* `Submission.read?`: a submission as a record.
* `Submission.ofFile`: from a JSON or YAML file. What it holds is not checked.
-/

namespace ReleaseGate

/-- Components and validations to score. -/
structure Submission where
  components : List Component := []
  validations : List Validation := []

namespace Submission

/-- The submission of a record; validations may be absent. -/
def read? {ν : Type} [Document ν] (node : ν) : Option Submission := do
  let fields ← Document.record? ["components", "validations"] node
  let components ← fields.required "components" (Document.list? Component.read?)
  let validations ← fields.optional "validations" [] (Document.list? Validation.read?)
  return { components, validations }

/-- The submission of a text in a format, or the fault of a text that does not fit. -/
def orMalformed (format : String) : Option Submission → Except Fault Submission
  | some submission => .ok submission
  | none => .error (.invalidInput (.malformedFile format))

/-- The submission of a JSON text. -/
def ofJson (text : String) : Except Fault Submission :=
  orMalformed "JSON" ((Json.Node.read? text).bind read?)

/-- The submission of a YAML text. -/
def ofYaml (text : String) : Except Fault Submission :=
  orMalformed "YAML" ((Yaml.Node.read? text).bind read?)

/-- The submission in a file: YAML if its extension says so, else JSON. -/
def ofFile {m : Type → Type} [Monad m] [FileAccess m] (location : Location) :
    ExceptT Fault m Submission := do
  let text ← FileAccess.orFault
    (fun problem => .invalidInput (.unreadableFile location.text problem))
    (FileAccess.readFile location)
  MonadExcept.ofExcept (if location.isYaml then ofYaml text else ofJson text)

end Submission

end ReleaseGate

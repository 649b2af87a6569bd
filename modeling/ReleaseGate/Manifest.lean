import ReleaseGate.Scoring.Config
import ReleaseGate.Policy.Config
import ReleaseGate.Toml.Reader
import ReleaseGate.Yaml.Node

/-!
# Configuration files

A configuration is read from a text and then checked, so what a reader returns is free of faults.

* `ScoringConfig.ofToml`, `ScoringConfig.ofYaml`, `PolicyConfig.ofToml`: from a text.
* `ScoringConfig.load`, `PolicyConfig.ofFile`: from a file.
-/

namespace ReleaseGate

/-- Whether a location names a YAML file. -/
def Location.isYaml (location : Location) : Bool :=
  location.extension? == some "yaml" || location.extension? == some "yml"

/-- The value that a reader found in a text, or the fault of a text that does not fit. -/
def orMalformed {α : Type} (document : String) : Option α → Except Fault α
  | some value => .ok value
  | none => .error (.configuration (.malformed document))

namespace ScoringConfig

/-- The configuration of a TOML text. -/
def ofToml (text : String) : Except Fault ScoringConfig := do
  (← orMalformed "scoring TOML" ((Toml.Value.read? text).bind read?)).checked

/-- The configuration of a YAML text. -/
def ofYaml (text : String) : Except Fault ScoringConfig := do
  (← orMalformed "scoring YAML" ((Yaml.Node.read? text).bind read?)).checked

variable {m : Type → Type} [Monad m] [FileAccess m]

/-- The configuration in a file: YAML if its extension says so, else TOML. -/
def ofFile (location : Location) : ExceptT Fault m ScoringConfig := do
  let text ← FileAccess.orFault
    (fun problem => .configuration (.unreadableManifest location.text problem))
    (FileAccess.readFile location)
  MonadExcept.ofExcept (if location.isYaml then ofYaml text else ofToml text)

/-- The configuration in a file if one is given, else the standard one. -/
def load : Option Location → ExceptT Fault m ScoringConfig
  | some location => ofFile location
  | none => return standard

end ScoringConfig

namespace PolicyConfig

/-- The configuration of a TOML text. -/
def ofToml (text : String) : Except Fault PolicyConfig := do
  (← orMalformed "policy TOML" ((Toml.Value.read? text).bind read?)).checked

/-- The configuration in a TOML file. -/
def ofFile {m : Type → Type} [Monad m] [FileAccess m] (location : Location) :
    ExceptT Fault m PolicyConfig := do
  let text ← FileAccess.orFault
    (fun problem => .configuration (.unreadablePolicies location.text problem))
    (FileAccess.readFile location)
  MonadExcept.ofExcept (ofToml text)

end PolicyConfig

end ReleaseGate

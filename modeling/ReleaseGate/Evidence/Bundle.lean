import ReleaseGate.Evidence.Summary
import ReleaseGate.Json.Writer
import ReleaseGate.Yaml.Writer

/-!
# Evidence bundles

A bundle is a directory named after the timestamp of a report. It holds the report in JSON and in
YAML, the summary, and the audit log if there is one.

* `bundleFiles`: names and contents, in the order in which they are written.
* `exportBundle`: create the directory and write the files.
-/

namespace ReleaseGate

/-- The name of a report's bundle. -/
def bundleName (r : Report) : String := "evidence_bundle_" ++ r.timestamp.fileStamp

/-- The files of a bundle, in the order in which they are written. -/
def bundleFiles (r : Report) (log : Option AuditLog) : List (String × String) :=
  [("frequency_report.json", Json.prettyText r.content),
    ("frequency_report.yaml", Yaml.yamlText r.content),
    ("SUMMARY.md", r.summary log)] ++
  log.toList.map fun log => ("audit_log.json", Json.prettyText log.content)

variable {m : Type → Type} [Monad m] [FileAccess m]

/-- Write one file of a bundle. -/
def writeEvidence (bundle : Location) (file : String × String) : ExceptT Fault m Unit :=
  let location := bundle.below file.1
  FileAccess.orFault (fun problem => .exportFailed (.writeFile location.text problem))
    (FileAccess.writeFile location file.2)

/-- Write the bundle of a report below a directory; the result is where it is. -/
def exportBundle (r : Report) (log : Option AuditLog) (directory : Location) :
    ExceptT Fault m Location := do
  let bundle := directory.below (bundleName r)
  FileAccess.orFault (fun problem => .exportFailed (.createDirectory bundle.text problem))
    (FileAccess.createDirectories bundle)
  (bundleFiles r log).forM (writeEvidence bundle)
  return bundle

end ReleaseGate

import ReleaseGate.Audit.Chain
import ReleaseGate.Report

/-!
# Summaries

The summary of a report is a Markdown text for people: score, recommendation, one table row per
component in the order of the report, validations, and the audit log if there is one.

* `Report.summary`: the text.
* `componentRow`: the row of a component.
-/

namespace ReleaseGate

/-- A line of text. -/
def line (text : String) : String := text ++ "\n"

/-- Yes or no, as a sentence starts. -/
def yesNo (value : Bool) : String := if value then "Yes" else "No"

/-- The row of a component. -/
def componentRow (score : ComponentScore) : String :=
  line ("| " ++ score.name ++ " | " ++ score.frequency.text ++ " |")

/-- The head of a summary. -/
def summaryHead (r : Report) : String :=
  line "# Gauge Evidence Bundle" ++ line "" ++ line "## Frequency Report Summary" ++ line "" ++
    line ("- **Timestamp**: " ++ r.timestamp.offsetText) ++
    line ("- **Score**: " ++ r.totalScore.text) ++
    line ("- **Band**: " ++ r.band.headline) ++
    line ("- **Ready for Final Review**: " ++ yesNo r.readyForFinalReview)

/-- The table of components. -/
def componentTable (scores : List ComponentScore) : String :=
  line "| Component | Frequency |" ++ line "|-----------|-----------|" ++
    String.join (scores.map componentRow)

/-- How many validations there are and passed, and which required levels lack one. -/
def validationLines (r : Report) : String :=
  line ("Total: " ++ toString r.validations.length) ++
    line ("Passed: " ++ toString r.passedValidations) ++
    if r.missing.isEmpty then ""
    else line ("Missing levels: " ++ ", ".intercalate (r.missing.map Level.tag))

/-- What an audit log says about the evaluations. -/
def auditSection (log : AuditLog) : String :=
  line "" ++ line "## Policy Evaluations" ++ line "" ++ line ("Trail: " ++ log.trailId) ++
    line ("Evaluations: " ++ toString log.events.length) ++
    line ("Denied: " ++ toString log.deniedCount) ++
    line ("Terminal hash: \x60" ++ log.terminalHash ++ "\x60")

/-- The summary of a report and, if there is one, of its audit log. -/
def Report.summary (r : Report) (log : Option AuditLog) : String :=
  summaryHead r ++ line "" ++ line "## Recommendation" ++ line "" ++ line r.recommendation ++
    line "" ++ line "## Components Analyzed" ++ line "" ++ componentTable r.components ++
    line "" ++ line "## Validation Passes" ++ line "" ++ validationLines r ++
    log.elim "" auditSection ++
    line "" ++ line "---" ++
    line ("*Generated by gauge, scoring config v" ++ r.version ++ "*")

end ReleaseGate

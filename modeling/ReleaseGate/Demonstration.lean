import ReleaseGate.Policy.Standard
import ReleaseGate.Submission

/-!
# Demonstration data

Three components and two validations to score, and three requests to decide: one that is allowed, a
deployment that is denied for want of an approval, and the same with one.
-/

namespace ReleaseGate.Demonstration

/-- The components of the demonstration. -/
def components : List Component :=
  [⟨"governance", 0.85, 0.90, 0.75, 0.88, 0.82⟩,
    ⟨"architecture", 0.78, 0.85, 0.70, 0.80, 0.75⟩,
    ⟨"implementation", 0.72, 0.80, 0.85, 0.75, 0.70⟩]

/-- The validations of the demonstration, all made now. -/
def validations (now : Instant) : List Validation :=
  [⟨.selfAssessment, "self-check-001", now, true, 0.85, "Self-assessment complete"⟩,
    ⟨.peer, "peer-review-alpha", now, true, 0.80, "Peer review passed"⟩]

/-- What the demonstration scores. -/
def submission (now : Instant) : Submission := ⟨components, validations now⟩

/-- The requests of the demonstration, all made now, each with a label. -/
def scenarios (now : Instant) : List (String × Context) :=
  [("Normal operation with a healthy score",
      { actor := "developer-001"
        action := "update_code"
        resource := "feature-branch"
        timestamp := now
        currentScore := 0.75
        validationLevel := "peer" }),
    ("Production deploy without approval",
      { actor := "developer-001"
        action := "deploy_production"
        resource := "release_promotion"
        timestamp := now
        currentScore := 0.80
        validationLevel := "external" }),
    ("Production deploy with final authority approval",
      { actor := "developer-001"
        action := "deploy_production"
        resource := "release_promotion"
        timestamp := now
        metadata := (Facts.empty.insertFlag approvedKey true).insertText approverKey "authority-001"
        currentScore := 0.85
        validationLevel := "final-authority" })]

end ReleaseGate.Demonstration

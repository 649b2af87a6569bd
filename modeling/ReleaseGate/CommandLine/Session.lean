import ReleaseGate.Audit.Trail
import ReleaseGate.CommandLine.Command
import ReleaseGate.Demonstration
import ReleaseGate.Evidence.Bundle
import ReleaseGate.Scoring.Aggregate

/-!
# Running commands

A session prints as it goes and may fail with a fault; what was printed before stays.

* `runCommand`: a command, up to whether an action was allowed.
* `Result.ofInvocation`: what a command line prints, and its exit status: 0 if all went well, 1 for
  a fault, and 2 if a checked action was denied.
-/

namespace ReleaseGate.CommandLine

/-- The time, and identifiers that nobody else has, by number. -/
structure Circumstances where
  now : Instant
  freshId : Nat → Uuid

/-- Something done in a program with files that prints as it goes and may fail. -/
abbrev Session (m : Type → Type) (α : Type) := ExceptT Fault (StateT String m) α

variable {m : Type → Type} [Monad m]

instance [FileAccess m] : FileAccess (StateT String m) where
  readFile location := StateT.lift (FileAccess.readFile location)
  writeFile location content := StateT.lift (FileAccess.writeFile location content)
  createDirectory location := StateT.lift (FileAccess.createDirectory location)
  isDirectory location := StateT.lift (FileAccess.isDirectory location)

/-- Print a text. -/
def say (text : String) : Session m Unit :=
  ExceptT.lift (modify fun printed => printed ++ text)

/-! ## What is printed -/

/-- A text with blanks behind it, up to a count of characters. -/
def padRight (width : Nat) (text : String) : String :=
  text ++ String.ofList (List.replicate (width - text.length) ' ')

/-- A report for the terminal. -/
def reportText (r : Report) : String :=
  line ("Frequency score: " ++ r.totalScore.text ++ " (" ++ r.band.headline ++ ")") ++
    String.join (r.components.map fun score =>
      line ("  " ++ padRight 20 score.name ++ " " ++ score.frequency.text)) ++
    line ("Validations: " ++ toString r.passedValidations ++ "/" ++
      toString r.validations.length ++ " passed (multiplier " ++ r.multiplier.text ++ ")") ++
    line ("Ready for final review: " ++ if r.readyForFinalReview then "yes" else "no") ++
    line r.recommendation

/-- A verdict for the terminal. -/
def verdictText (v : Verdict) : String :=
  line ("  " ++ padRight 18 v.policyId ++ " " ++ padRight 6 v.decision.tag ++ " " ++ v.reason ++
    if v.requiresEscalation then " [escalate]" else "")

/-- An outcome for the terminal. -/
def outcomeText (o : Outcome) : String :=
  String.join (o.verdicts.map verdictText) ++
    line ("  => " ++ if o.allowed then "ALLOWED" else "DENIED")

/-- Where a bundle is. -/
def bundleText (bundle : Location) : String :=
  line "" ++ line ("Evidence bundle: " ++ bundle.text)

/-! ## Commands -/

section Commands

variable [FileAccess m]

/-- What a command line scores: nothing, unless it says otherwise. -/
def submissionOf (options : ScoreOptions) (now : Instant) : Session m Submission :=
  match options.input with
  | some location => Submission.ofFile location
  | none => return if options.demo then Demonstration.submission now else {}

/-- Score and report. -/
def runScore (options : ScoreOptions) (now : Instant) : Session m Bool := do
  let config ← ScoringConfig.load options.manifest
  let aggregator ← MonadExcept.ofExcept (Aggregator.new config)
  let submission ← submissionOf options now
  let report ← MonadExcept.ofExcept
    (aggregator.aggregate submission.components submission.validations now)
  if options.json then say (line (Json.prettyText report.content))
  else do
    say (reportText report)
    say (bundleText (← exportBundle report none options.output))
  return true

/-- The request that a command line makes. -/
def CheckOptions.context (options : CheckOptions) (now : Instant) : Context where
  actor := options.actor
  action := options.action
  resource := options.resource
  timestamp := now
  metadata :=
    let facts := if options.approved then Facts.empty.insertFlag approvedKey true else .empty
    options.approver.elim facts (facts.insertText approverKey)
  currentScore := options.score
  validationLevel := options.validationLevel

/-- Decide on a request. -/
def runCheck (options : CheckOptions) (now : Instant) : Session m Bool := do
  let engine : Engine Unit ← match options.policies with
    | some location => do MonadExcept.ofExcept (Engine.ofConfig (← PolicyConfig.ofFile location))
    | none => pure Engine.standard
  let outcome := ((engine.check (options.context now)).run ()).1
  say (if options.json then line (Json.prettyText outcome.content) else outcomeText outcome)
  return outcome.allowed

/-- A trail and how many identifiers have been used. -/
structure Recording where
  trail : Trail
  used : Nat

/-- Access to the trail of a recording. -/
def Recording.access (circumstances : Circumstances) : Trail.Access Recording where
  get := Recording.trail
  set trail recording := { recording with trail }
  stamp := do
    let recording ← get
    set { recording with used := recording.used + 1 }
    return ⟨circumstances.freshId recording.used, circumstances.now⟩

/-- Decide on requests one after the other and print each outcome; the first has the given
number. -/
def runScenarios (engine : Engine Recording) : (number : Nat) → List (String × Context) →
    Recording → Session m Recording
  | _, [], recording => return recording
  | number, (label, ctx) :: rest, recording => do
    let (outcome, recording) := (engine.check ctx).run recording
    say (line "" ++ line ("[Scenario " ++ toString number ++ "] " ++ label) ++ outcomeText outcome)
    runScenarios engine (number + 1) rest recording

/-- Score the demonstration and decide on its requests. -/
def runDemo (output : Option Location) (circumstances : Circumstances) : Session m Bool := do
  let now := circumstances.now
  let submission := Demonstration.submission now
  let report ← MonadExcept.ofExcept
    (Aggregator.standard.aggregate submission.components submission.validations now)
  say (reportText report)
  let engine := Engine.standard.subscribe (Trail.recorder (Recording.access circumstances))
  let start : Recording := ⟨.new ("demo-" ++ (circumstances.freshId 0).text), 1⟩
  let recording ← runScenarios engine 1 (Demonstration.scenarios now) start
  if !recording.trail.verify then
    throw (.auditWrite (.stated "audit chain failed verification"))
  match output with
  | none => return true
  | some directory => do
    let log ← MonadExcept.ofExcept (recording.trail.exportLog now)
    say (bundleText (← exportBundle report (some log) directory))
    return true

/-- Run a command; the result is false if a checked action was denied. -/
def runCommand (circumstances : Circumstances) : Command → Session m Bool
  | .score options => runScore options circumstances.now
  | .check options => runCheck options circumstances.now
  | .demo output => runDemo output circumstances

end Commands

/-! ## Results -/

/-- What a command line prints, and its exit status. -/
structure Result where
  printed : String
  errors : String
  status : Nat

/-- The exit status when a command line is refused. -/
def Result.refusal : Result := ⟨"", line "gauge: unusable command line; see the documentation", 2⟩

/-- The result of a session that printed a text. -/
def Result.ofEnding : Except Fault Bool × String → Result
  | (.ok true, printed) => ⟨printed, "", 0⟩
  | (.ok false, printed) => ⟨printed, "", 2⟩
  | (.error fault, printed) => ⟨printed, line ("gauge: " ++ fault.message), 1⟩

/-- The result of an accepted command line. -/
def Result.ofInvocation [FileAccess m] (circumstances : Circumstances) : Invocation → m Result
  | .version => return ⟨line "gauge 0.1.0", "", 0⟩
  | .run command => Result.ofEnding <$> StateT.run (ExceptT.run (runCommand circumstances command)) ""

end ReleaseGate.CommandLine

import ReleaseGate.Policy.Config
import ReleaseGate.Text.Quoted

/-!
# The policy engine

An engine holds policies in the order of their registration, and hooks that watch an evaluation.
Policies and hooks may look at and change their surroundings, a state of any type `σ`, and a call
to either ends in one of three ways: it returns, it fails, or it crashes.

A pass over a context calls the hooks that come before it, then for each enabled policy the policy
and the hooks its verdict concerns, then the hooks that come after it. Each enabled policy has
exactly one verdict: one that does not return a verdict denies, and so does every policy if the
context is not valid. How a hook ends changes nothing.

* `Engine.register`, `Engine.setEnabled`, `Engine.subscribe`: setting an engine up.
* `Engine.evaluate`, `Engine.verdictsOn`: a pass, and what it comes to.
-/

namespace ReleaseGate

/-- What a crash leaves behind. -/
inductive CrashPayload where
  | text (message : String)
  | other
  deriving DecidableEq

/-- How a call ends. -/
inductive Ending (α : Type) where
  | returned (value : α)
  | failed (fault : Fault)
  | crashed (payload : CrashPayload)

/-- What a crash says. -/
def CrashPayload.message : CrashPayload → String
  | text message => message
  | other => "unknown panic payload"

/-- The value of a call, or why there is none. -/
def Ending.value {α : Type} : Ending α → Except String α
  | returned value => .ok value
  | failed fault => .error fault.message
  | crashed payload => .error ("panicked: " ++ payload.message)

/-- A rule with an identifier. -/
structure Policy (σ : Type) where
  id : String
  category : Category
  evaluate : Context → StateM σ (Ending Verdict)

/-- A policy that only looks at the context and always returns. -/
def Policy.ofRule {σ : Type} (id : String) (category : Category) (rule : Context → Verdict) :
    Policy σ :=
  ⟨id, category, fun ctx => pure (.returned (rule ctx))⟩

/-- A hook on one policy's verdict. -/
abbrev VerdictHook (σ : Type) := Policy σ → Context → Verdict → StateM σ (Ending Unit)

/-- The events of a pass. -/
inductive HookEvent where
  | preEvaluate
  | postEvaluate
  | onDeny
  | onEscalationRequired
  deriving DecidableEq

namespace HookEvent

/-- All events. -/
def all : List HookEvent := [preEvaluate, postEvaluate, onDeny, onEscalationRequired]

/-- The tag of an event. -/
def tag : HookEvent → String
  | preEvaluate => "pre_evaluate"
  | postEvaluate => "post_evaluate"
  | onDeny => "on_deny"
  | onEscalationRequired => "on_escalation_required"

/-- The name of an event in log lines. -/
def title : HookEvent → String
  | preEvaluate => "PreEvaluate"
  | postEvaluate => "PostEvaluate"
  | onDeny => "OnDeny"
  | onEscalationRequired => "OnEscalationRequired"

end HookEvent

/-- A hook and the event it watches. -/
inductive Hook (σ : Type) where
  | preEvaluate (run : Context → StateM σ (Ending Unit))
  | postEvaluate (run : Context → List Verdict → StateM σ (Ending Unit))
  | onDeny (run : VerdictHook σ)
  | onEscalationRequired (run : VerdictHook σ)

namespace Hook

variable {σ : Type}

/-- The event that a hook watches. -/
def event : Hook σ → HookEvent
  | preEvaluate _ => .preEvaluate
  | postEvaluate _ => .postEvaluate
  | onDeny _ => .onDeny
  | onEscalationRequired _ => .onEscalationRequired

/-- A hook in a log line. -/
def logText (hook : Hook σ) : String := "Hook(" ++ hook.event.title ++ ")"

end Hook

/-- A policy and whether it takes part in passes. -/
structure Registration (σ : Type) where
  policy : Policy σ
  enabled : Bool

/-- Hooks by event, each list in the order of subscription. -/
structure Hooks (σ : Type) where
  preEvaluate : List (Context → StateM σ (Ending Unit)) := []
  postEvaluate : List (Context → List Verdict → StateM σ (Ending Unit)) := []
  onDeny : List (VerdictHook σ) := []
  onEscalationRequired : List (VerdictHook σ) := []

/-- Policies in the order of registration, and hooks. -/
structure Engine (σ : Type) where
  registrations : List (Registration σ) := []
  hooks : Hooks σ := {}

namespace Engine

variable {σ : Type}

/-- An engine without policies and hooks. -/
def empty : Engine σ := {}

/-! ## Setting up -/

/-- One more policy, enabled. -/
def register (engine : Engine σ) (policy : Policy σ) : Engine σ :=
  { engine with registrations := engine.registrations ++ [⟨policy, true⟩] }

/-- One more hook, last among those of its event. -/
def subscribe (engine : Engine σ) (hook : Hook σ) : Engine σ :=
  let hooks := engine.hooks
  { engine with
    hooks := match hook with
      | .preEvaluate run => { hooks with preEvaluate := hooks.preEvaluate ++ [run] }
      | .postEvaluate run => { hooks with postEvaluate := hooks.postEvaluate ++ [run] }
      | .onDeny run => { hooks with onDeny := hooks.onDeny ++ [run] }
      | .onEscalationRequired run =>
        { hooks with onEscalationRequired := hooks.onEscalationRequired ++ [run] } }

/-- Enable or disable every policy with an identifier. -/
def setEnabled (engine : Engine σ) (id : String) (enabled : Bool) : Except Fault (Engine σ) :=
  if engine.registrations.any (·.policy.id = id) then
    .ok { engine with
          registrations := engine.registrations.map fun entry =>
            if entry.policy.id = id then { entry with enabled } else entry }
  else .error (.unknownPolicy id)

/-- Whether the first policy with an identifier is enabled. -/
def isEnabled? (engine : Engine σ) (id : String) : Option Bool :=
  (engine.registrations.find? (·.policy.id = id)).map (·.enabled)

/-- The identifiers of all policies, in order. -/
def policyIds (engine : Engine σ) : List String := engine.registrations.map (·.policy.id)

/-- The policies that take part in a pass, in order. -/
def enabledPolicies (engine : Engine σ) : List (Policy σ) :=
  (engine.registrations.filter (·.enabled)).map (·.policy)

/-- How many policies there are. -/
def size (engine : Engine σ) : Nat := engine.registrations.length

/-- How many policies take part in a pass. -/
def enabledCount (engine : Engine σ) : Nat := engine.registrations.countP (·.enabled)

/-- How many hooks watch an event. -/
def hookCount (engine : Engine σ) : HookEvent → Nat
  | .preEvaluate => engine.hooks.preEvaluate.length
  | .postEvaluate => engine.hooks.postEvaluate.length
  | .onDeny => engine.hooks.onDeny.length
  | .onEscalationRequired => engine.hooks.onEscalationRequired.length

/-- An engine in a log line. -/
def logText (engine : Engine σ) : String :=
  "PolicyEngine \x7b policies: " ++ logList engine.policyIds ++ ", enabled: " ++
    toString engine.enabledCount ++ " \x7d"

/-! ## A pass -/

/-- A denial on behalf of a policy. -/
def denial (policyId what message : String) : Verdict where
  decision := .deny
  policyId
  reason := what ++ ": " ++ message
  evidence := Facts.empty.insertText "error" message

/-- The verdict of one policy: its own if it returns one, else a denial. A policy is not called on
a context that is not valid. -/
def verdictOf (policy : Policy σ) (ctx : Context) : StateM σ Verdict :=
  match ctx.check with
  | .error fault => pure (denial policy.id "invalid context" fault.message)
  | .ok () => do
    match (← policy.evaluate ctx).value with
    | .ok verdict => return verdict
    | .error message => return denial policy.id "evaluation error" message

/-- Call hooks one after the other, however each of them ends. -/
def callHooks : List (StateM σ (Ending Unit)) → StateM σ Unit
  | [] => pure ()
  | hook :: rest => do
    let _ ← hook
    callHooks rest

/-- The verdict of one policy, and the hooks that it concerns. -/
def step (hooks : Hooks σ) (ctx : Context) (policy : Policy σ) : StateM σ Verdict := do
  let verdict ← verdictOf policy ctx
  if verdict.isDeny then callHooks (hooks.onDeny.map fun hook => hook policy ctx verdict)
  if verdict.requiresEscalation then
    callHooks (hooks.onEscalationRequired.map fun hook => hook policy ctx verdict)
  return verdict

/-- The verdicts of policies, in order. -/
def steps (hooks : Hooks σ) (ctx : Context) : List (Policy σ) → StateM σ (List Verdict)
  | [] => pure []
  | policy :: rest => do
    let verdict ← step hooks ctx policy
    let verdicts ← steps hooks ctx rest
    return verdict :: verdicts

/-- A pass over a context: one verdict for each enabled policy, in order. -/
def evaluate (engine : Engine σ) (ctx : Context) : StateM σ (List Verdict) := do
  callHooks (engine.hooks.preEvaluate.map fun hook => hook ctx)
  let verdicts ← steps engine.hooks ctx engine.enabledPolicies
  callHooks (engine.hooks.postEvaluate.map fun hook => hook ctx verdicts)
  return verdicts

/-- A pass over a context and what it comes to. -/
def check (engine : Engine σ) (ctx : Context) : StateM σ Outcome := do
  return .ofVerdicts (← engine.evaluate ctx)

end Engine

/-! ## Engines with the standard policies -/

namespace Policy

variable {σ : Type}

/-- The score policy. -/
def score (rule : ScoreRule) : Policy σ := .ofRule scoreRuleId .operational rule.verdict

/-- The validation policy. -/
def validation (rule : ValidationRule) : Policy σ :=
  .ofRule validationRuleId .governance rule.verdict

/-- The approval policy. -/
def approval (rule : ApprovalRule) : Policy σ := .ofRule approvalRuleId .security rule.verdict

/-- The audit policy. -/
def audit : Policy σ := .ofRule auditRuleId .compliance auditVerdict

end Policy

namespace PolicyConfig

/-- The score rule of a configuration. -/
def scoreRule (config : PolicyConfig) : ScoreRule := ⟨config.threshold.minScore⟩

/-- The validation rule of a configuration. -/
def validationRule (config : PolicyConfig) : ValidationRule :=
  ⟨config.validation.sensitiveActions, config.validation.privilegedLevels⟩

/-- The approval rule of a configuration. -/
def approvalRule (config : PolicyConfig) : ApprovalRule := ⟨config.approval.protectedResources⟩

/-- Which standard policies a configuration enables, in the order of their registration. -/
def switches (config : PolicyConfig) : List (String × Bool) :=
  [(scoreRuleId, config.threshold.enabled), (validationRuleId, config.validation.enabled),
    (approvalRuleId, config.approval.enabled), (auditRuleId, config.audit.enabled)]

end PolicyConfig

namespace Engine

variable {σ : Type}

/-- An engine with the four standard policies as given rules. -/
def ofRules (score : ScoreRule) (validation : ValidationRule) (approval : ApprovalRule) :
    Engine σ :=
  (((empty.register (.score score)).register (.validation validation)).register
    (.approval approval)).register .audit

/-- An engine with the four standard policies as they are unless configured. -/
def standard : Engine σ := ofRules .standard .standard .standard

/-- An engine for a configuration: all four policies are registered, and those that the
configuration switches off are disabled. -/
def ofConfig (config : PolicyConfig) : Except Fault (Engine σ) := do
  config.check
  config.switches.foldlM
    (fun engine (id, enabled) => if enabled then .ok engine else engine.setEnabled id false)
    (ofRules config.scoreRule config.validationRule config.approvalRule)

end Engine

end ReleaseGate

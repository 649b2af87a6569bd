import Mathlib.Data.List.Forall2
import ReleaseGate.Policy.Engine

/-!
# What a pass comes to

A pass calls the enabled policies one after the other, each in the surroundings that the calls
before it leave. The verdicts of the pass stand beside these calls: a call that returns gives its
own verdict, and any other call, or a context that is not valid, gives a denial that says why.

* `Verdict.Denies`, `Ending.ComesTo`: the denial, and the verdict that an ending has to come to.
* `Engine.calls`: the calls of a pass, with how each of them ends.
* `Context.check_of_blank`, `Context.check_of_not_blank`: which contexts are valid.
* `forall₂_comesTo`, `forall₂_denies`: the verdicts on valid contexts and on others.
-/

namespace ReleaseGate

variable {σ : Type}

/-! ## Contexts -/

/-- A context without an action or without a resource. -/
def Context.Blank (ctx : Context) : Prop :=
  isBlankText ctx.action = true ∨ isBlankText ctx.resource = true

/-- The first blank field of a blank context. -/
def Context.blankField (ctx : Context) : String :=
  if isBlankText ctx.action then "action" else "resource"

/-- What is wrong with a blank context. -/
theorem Context.check_of_blank {ctx : Context} (h : ctx.Blank) :
    ctx.check = .error (.invalidInput (.blankContextField ctx.blankField)) := by
  by_cases haction : isBlankText ctx.action = true
  · rw [check, blankField, if_pos haction, if_pos haction]
  · have hresource : isBlankText ctx.resource = true := h.resolve_left haction
    rw [check, blankField, if_neg haction, if_neg haction, if_pos hresource]

theorem message_blankContextField (field : String) :
    (Fault.invalidInput (.blankContextField field)).message =
      "invalid input: context " ++ field ++ " must not be empty" := by
  have hprefix : "invalid input: context " = "invalid input: " ++ "context " := by decide
  have hmessage : (Fault.invalidInput (.blankContextField field)).message =
      "invalid input: " ++ ("context " ++ field ++ " must not be empty") := rfl
  simp only [hmessage, hprefix, String.append_assoc]

/-- A context that is not blank is valid. -/
theorem Context.check_of_not_blank {ctx : Context} (h : ¬ctx.Blank) : ctx.check = .ok () := by
  obtain ⟨haction, hresource⟩ := not_or.mp h
  rw [check, if_neg haction, if_neg hresource]

/-! ## Verdicts -/

/-- A denial on behalf of a policy that says what went wrong: in its reason, and as all of its
evidence. -/
structure Verdict.Denies (v : Verdict) (policyId what message : String) : Prop where
  decision : v.decision = .deny
  policyId : v.policyId = policyId
  reason : v.reason = what ++ ": " ++ message
  evidence : v.evidence.fields.entries = [("error", .string message)]
  requiresEscalation : v.requiresEscalation = false

/-- Such a denial is one verdict. -/
theorem Verdict.Denies.unique {v w : Verdict} {policyId what message : String}
    (hv : v.Denies policyId what message) (hw : w.Denies policyId what message) : v = w := by
  obtain ⟨decision, id, reason, ⟨⟨entries, _⟩, _⟩, escalation⟩ := v
  obtain ⟨decision', id', reason', ⟨⟨entries', _⟩, _⟩, escalation'⟩ := w
  obtain ⟨rfl, rfl, rfl, rfl, rfl⟩ := hv
  obtain ⟨rfl, rfl, rfl, rfl, rfl⟩ := hw
  rfl

theorem Verdict.Denies.isDeny {v : Verdict} {policyId what message : String}
    (h : v.Denies policyId what message) : v.isDeny = true := by
  rw [Verdict.isDeny, h.decision]
  rfl

theorem Engine.denies_denial (policyId what message : String) :
    (denial policyId what message).Denies policyId what message :=
  ⟨rfl, rfl, rfl, rfl, rfl⟩

/-- The verdict that a call of a policy has to come to. -/
def Ending.ComesTo (policyId : String) : Ending Verdict → Verdict → Prop
  | .returned own, v => v = own
  | .failed fault, v => v.Denies policyId "evaluation error" fault.message
  | .crashed (.text message), v => v.Denies policyId "evaluation error" ("panicked: " ++ message)
  | .crashed .other, v => v.Denies policyId "evaluation error" "panicked: unknown panic payload"

/-- A call comes to one verdict. -/
theorem Ending.ComesTo.unique {ending : Ending Verdict} {policyId : String} {v w : Verdict}
    (hv : ending.ComesTo policyId v) (hw : ending.ComesTo policyId w) : v = w := by
  match ending with
  | .returned own => exact Eq.trans hv (Eq.symm hw)
  | .failed fault => exact Verdict.Denies.unique hv hw
  | .crashed (.text message) => exact Verdict.Denies.unique hv hw
  | .crashed .other => exact Verdict.Denies.unique hv hw

/-- A call that comes to no denial has returned a verdict that is none. -/
theorem Ending.ComesTo.isDeny_iff {ending : Ending Verdict} {policyId : String} {v : Verdict}
    (h : ending.ComesTo policyId v) :
    v.isDeny = false ↔ ∃ own, ending = .returned own ∧ own.decision ≠ .deny := by
  have hnone : (∀ own, ending ≠ .returned own) → v.isDeny = true →
      (v.isDeny = false ↔ ∃ own, ending = .returned own ∧ own.decision ≠ .deny) := by
    intro hending hdeny
    rw [hdeny]
    refine ⟨nofun, ?_⟩
    rintro ⟨own, hown, -⟩
    exact absurd hown (hending own)
  match ending with
  | .returned own =>
    obtain rfl : v = own := h
    rw [Verdict.isDeny, decide_eq_false_iff_not]
    constructor
    · intro hne
      exact ⟨v, rfl, hne⟩
    · rintro ⟨own, hown, hne⟩
      obtain rfl := Ending.returned.inj hown
      exact hne
  | .failed fault => exact hnone nofun (Verdict.Denies.isDeny h)
  | .crashed (.text message) => exact hnone nofun (Verdict.Denies.isDeny h)
  | .crashed .other => exact hnone nofun (Verdict.Denies.isDeny h)

/-- An outcome allows if none of its verdicts is a denial. -/
theorem Outcome.allowed_ofVerdicts {verdicts : List Verdict} :
    (ofVerdicts verdicts).allowed = true ↔ ∀ verdict ∈ verdicts, verdict.isDeny = false := by
  rw [ofVerdicts, Bool.not_eq_true', List.any_eq_false]
  simp only [Bool.not_eq_true]

/-! ## Runs -/

/-- The surroundings after hooks have run, one after the other. -/
def afterHooks (hooks : List (StateM σ (Ending Unit))) (s : σ) : σ :=
  hooks.foldl (fun s hook => (hook.run s).2) s

theorem afterHooks_append (first second : List (StateM σ (Ending Unit))) (s : σ) :
    afterHooks (first ++ second) s = afterHooks second (afterHooks first s) :=
  List.foldl_append

/-- The hooks that a verdict concerns, in the order in which they run. -/
def Hooks.concerned (hooks : Hooks σ) (ctx : Context) (policy : Policy σ) (verdict : Verdict) :
    List (StateM σ (Ending Unit)) :=
  (if verdict.isDeny then hooks.onDeny.map fun hook => hook policy ctx verdict else []) ++
    if verdict.requiresEscalation then
      hooks.onEscalationRequired.map fun hook => hook policy ctx verdict
    else []

namespace Engine

theorem run_callHooks (hooks : List (StateM σ (Ending Unit))) (s : σ) :
    (callHooks hooks).run s = ((), afterHooks hooks s) := by
  induction hooks generalizing s with
  | nil => rfl
  | cons hook rest ih => exact ih (hook.run s).2

theorem run_callHooks_bind {α : Type} (hooks : List (StateM σ (Ending Unit)))
    (next : Unit → StateM σ α) (s : σ) :
    (callHooks hooks >>= next).run s = (next ()).run (afterHooks hooks s) := by
  rw [StateT.run_bind, run_callHooks]
  rfl

theorem run_callHooks_if {α : Type} {c : Prop} [Decidable c] {hooks : List (StateM σ (Ending Unit))}
    (next : Unit → StateM σ α) (s : σ) :
    StateT.run (if c then callHooks hooks >>= next else next ()) s =
      (next ()).run (afterHooks (if c then hooks else []) s) := by
  by_cases hc : c
  · rw [if_pos hc, if_pos hc, run_callHooks_bind]
  · rw [if_neg hc, if_neg hc]
    rfl

/-- A policy is not called on a context that is not valid. -/
theorem run_verdictOf_of_error {ctx : Context} {fault : Fault} (h : ctx.check = .error fault)
    (policy : Policy σ) (s : σ) : (verdictOf policy ctx).run s =
      (denial policy.id "invalid context" fault.message, s) := by
  rw [verdictOf, h]
  rfl

/-- On a valid context, the verdict is what the policy's call comes to. -/
theorem run_verdictOf {ctx : Context} (h : ctx.check = .ok ()) (policy : Policy σ) (s : σ) :
    ∃ verdict, ((policy.evaluate ctx).run s).1.ComesTo policy.id verdict ∧
      (verdictOf policy ctx).run s = (verdict, ((policy.evaluate ctx).run s).2) := by
  rw [verdictOf, h]
  show ∃ verdict, _ ∧ StateT.run (policy.evaluate ctx >>= _) s = _
  rw [StateT.run_bind]
  rcases (policy.evaluate ctx).run s with ⟨ending, s'⟩
  cases ending with
  | returned own => exact ⟨own, rfl, rfl⟩
  | failed fault => exact ⟨_, denies_denial _ _ _, rfl⟩
  | crashed payload =>
    cases payload with
    | text message => exact ⟨_, denies_denial _ _ _, rfl⟩
    | other => exact ⟨_, denies_denial _ _ _, rfl⟩

/-- The hooks that a verdict concerns change the surroundings only. -/
theorem run_step (hooks : Hooks σ) (ctx : Context) (policy : Policy σ) (s : σ) :
    (step hooks ctx policy).run s =
      (((verdictOf policy ctx).run s).1, afterHooks
        (hooks.concerned ctx policy ((verdictOf policy ctx).run s).1)
        ((verdictOf policy ctx).run s).2) := by
  rw [step, StateT.run_bind]
  rcases (verdictOf policy ctx).run s with ⟨verdict, s'⟩
  rw [Hooks.concerned, afterHooks_append]
  refine (run_callHooks_if (fun _ => _) s').trans ?_
  exact run_callHooks_if (fun _ => pure verdict) _

theorem run_steps_cons (hooks : Hooks σ) (ctx : Context) (policy : Policy σ)
    (rest : List (Policy σ)) (s : σ) : (steps hooks ctx (policy :: rest)).run s =
      (((step hooks ctx policy).run s).1 ::
          ((steps hooks ctx rest).run ((step hooks ctx policy).run s).2).1,
        ((steps hooks ctx rest).run ((step hooks ctx policy).run s).2).2) := rfl

/-- The surroundings when the first policy is called. -/
def entered (engine : Engine σ) (ctx : Context) (s : σ) : σ :=
  afterHooks (engine.hooks.preEvaluate.map fun hook => hook ctx) s

/-- The verdicts of a pass, and the surroundings when the last of them is there. -/
def passed (engine : Engine σ) (ctx : Context) (s : σ) : List Verdict × σ :=
  (steps engine.hooks ctx engine.enabledPolicies).run (engine.entered ctx s)

theorem run_evaluate (engine : Engine σ) (ctx : Context) (s : σ) :
    (engine.evaluate ctx).run s = ((engine.passed ctx s).1,
      afterHooks (engine.hooks.postEvaluate.map fun hook => hook ctx (engine.passed ctx s).1)
        (engine.passed ctx s).2) := by
  rw [evaluate, run_callHooks_bind, StateT.run_bind]
  exact run_callHooks_bind _ _ _

/-! ## Calls -/

/-- The calls of policies, one after the other from given surroundings. -/
def callsFrom (hooks : Hooks σ) (ctx : Context) :
    List (Policy σ) → σ → List (Policy σ × Ending Verdict)
  | [], _ => []
  | policy :: rest, s =>
    (policy, ((policy.evaluate ctx).run s).1) ::
      callsFrom hooks ctx rest ((step hooks ctx policy).run s).2

/-- The calls of a pass over a valid context: each enabled policy with how its call ends in the
surroundings that the pass has come to. -/
def calls (engine : Engine σ) (ctx : Context) (s : σ) : List (Policy σ × Ending Verdict) :=
  callsFrom engine.hooks ctx engine.enabledPolicies (engine.entered ctx s)

/-- The verdicts of a pass. -/
def verdicts (engine : Engine σ) (ctx : Context) (s : σ) : List Verdict :=
  ((engine.evaluate ctx).run s).1

theorem verdicts_eq (engine : Engine σ) (ctx : Context) (s : σ) :
    engine.verdicts ctx s = (engine.passed ctx s).1 := by
  rw [verdicts, run_evaluate]

theorem map_fst_callsFrom (hooks : Hooks σ) (ctx : Context) (policies : List (Policy σ)) (s : σ) :
    (callsFrom hooks ctx policies s).map Prod.fst = policies := by
  induction policies generalizing s with
  | nil => rfl
  | cons policy rest ih => rw [callsFrom, List.map_cons, ih]

/-- On a valid context, there is one verdict for each call, which is what it comes to. -/
theorem forall₂_comesTo {ctx : Context} (h : ctx.check = .ok ()) (hooks : Hooks σ)
    (policies : List (Policy σ)) (s : σ) :
    List.Forall₂ (fun call verdict => call.2.ComesTo call.1.id verdict)
      (callsFrom hooks ctx policies s) ((steps hooks ctx policies).run s).1 := by
  induction policies generalizing s with
  | nil => exact .nil
  | cons policy rest ih =>
    obtain ⟨verdict, hcomes, hrun⟩ := run_verdictOf h policy s
    rw [callsFrom, run_steps_cons]
    refine .cons ?_ (ih _)
    rw [run_step, hrun]
    exact hcomes

/-- On a context that is not valid, every policy denies. -/
theorem forall₂_denies {ctx : Context} {fault : Fault} (h : ctx.check = .error fault)
    (hooks : Hooks σ) (policies : List (Policy σ)) (s : σ) :
    List.Forall₂ (fun policy verdict => verdict.Denies policy.id "invalid context" fault.message)
      policies ((steps hooks ctx policies).run s).1 := by
  induction policies generalizing s with
  | nil => exact .nil
  | cons policy rest ih =>
    rw [run_steps_cons]
    refine .cons ?_ (ih _)
    rw [run_step, run_verdictOf_of_error h]
    exact denies_denial _ _ _

/-- Policies whose verdicts do not depend on the surroundings have these verdicts in every pass. -/
theorem run_steps_of_fixed {ctx : Context} {policies : List (Policy σ)}
    {answer : Policy σ → Verdict}
    (h : ∀ policy ∈ policies, ∀ s, ((verdictOf policy ctx).run s).1 = answer policy)
    (hooks : Hooks σ) (s : σ) : ((steps hooks ctx policies).run s).1 = policies.map answer := by
  induction policies generalizing s with
  | nil => rfl
  | cons policy rest ih =>
    obtain ⟨hpolicy, hrest⟩ := List.forall_mem_cons.mp h
    rw [run_steps_cons, List.map_cons, run_step, hpolicy s, ih hrest]

/-- The policies of a pass are the registered ones that are enabled. -/
theorem mem_enabledPolicies {engine : Engine σ} {policy : Policy σ} :
    policy ∈ engine.enabledPolicies ↔
      ∃ entry ∈ engine.registrations, entry.enabled = true ∧ entry.policy = policy := by
  simp only [enabledPolicies, List.mem_map, List.mem_filter, and_assoc]

theorem length_enabledPolicies (engine : Engine σ) :
    engine.enabledPolicies.length = engine.enabledCount := by
  rw [enabledPolicies, List.length_map, enabledCount, List.countP_eq_length_filter]

/-- A pass has as many verdicts as policies take part in it. -/
theorem length_verdicts (engine : Engine σ) (ctx : Context) (s : σ) :
    (engine.verdicts ctx s).length = engine.enabledCount := by
  have hsteps : ∀ (policies : List (Policy σ)) (s : σ),
      ((steps engine.hooks ctx policies).run s).1.length = policies.length := by
    intro policies
    induction policies with
    | nil => exact fun _ => rfl
    | cons policy rest ih =>
      intro s
      rw [run_steps_cons, List.length_cons, List.length_cons, ih]
  rw [verdicts_eq, passed, hsteps, length_enabledPolicies]

end Engine

end ReleaseGate

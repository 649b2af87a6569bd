import ReleaseGate.Proofs.Policy.Contributions

/-!
# Hooks do not decide

Hooks watch a pass. How a hook ends is nowhere looked at, so hooks with the same effects on the
surroundings make the same pass. What hooks do to the surroundings can reach a verdict only through
a policy that looks there: if all policies depend on a view of the surroundings that the hooks leave
alone, the verdicts are the same with any such hooks.

* `Hooks.SameEffects`, `run_evaluate_congr`: how hooks end changes nothing.
* `contributions_congr`: neither does it change what a policy contributes.
* `Hooks.Keep`, `Policy.DependsOn`, `verdicts_congr`: which hooks there are changes no verdict.
-/

namespace ReleaseGate

variable {σ τ : Type}

/-- The engine with other hooks. -/
def Engine.withHooks (engine : Engine σ) (hooks : Hooks σ) : Engine σ := { engine with hooks }

/-! ## Hooks with the same effects -/

/-- Two hooks that do the same to the surroundings, however they end. -/
def SameEffect (hook hook' : StateM σ (Ending Unit)) : Prop :=
  ∀ s, (hook.run s).2 = (hook'.run s).2

/-- Hooks that do the same to the surroundings, one by one. -/
structure Hooks.SameEffects (hooks hooks' : Hooks σ) : Prop where
  preEvaluate : List.Forall₂ (fun run run' => ∀ ctx, SameEffect (run ctx) (run' ctx))
    hooks.preEvaluate hooks'.preEvaluate
  postEvaluate : List.Forall₂
    (fun run run' => ∀ ctx verdicts, SameEffect (run ctx verdicts) (run' ctx verdicts))
    hooks.postEvaluate hooks'.postEvaluate
  onDeny : List.Forall₂ (fun run run' => ∀ policy ctx verdict,
    SameEffect (run policy ctx verdict) (run' policy ctx verdict)) hooks.onDeny hooks'.onDeny
  onEscalationRequired : List.Forall₂ (fun run run' => ∀ policy ctx verdict,
    SameEffect (run policy ctx verdict) (run' policy ctx verdict))
    hooks.onEscalationRequired hooks'.onEscalationRequired

theorem afterHooks_congr {hooks hooks' : List (StateM σ (Ending Unit))}
    (h : List.Forall₂ SameEffect hooks hooks') (s : σ) :
    afterHooks hooks s = afterHooks hooks' s := by
  induction h generalizing s with
  | nil => rfl
  | @cons hook hook' rest rest' hsame _ ih =>
    show afterHooks rest (hook.run s).2 = afterHooks rest' (hook'.run s).2
    rw [hsame s, ih]

theorem Hooks.SameEffects.concerned {hooks hooks' : Hooks σ} (h : hooks.SameEffects hooks')
    (ctx : Context) (policy : Policy σ) (verdict : Verdict) : List.Forall₂ SameEffect
      (hooks.concerned ctx policy verdict) (hooks'.concerned ctx policy verdict) := by
  refine List.rel_append ?_ ?_
  · by_cases hdeny : verdict.isDeny = true
    · rw [if_pos hdeny, if_pos hdeny, List.forall₂_map_left_iff, List.forall₂_map_right_iff]
      exact h.onDeny.imp fun _ _ hsame => hsame policy ctx verdict
    · rw [if_neg hdeny, if_neg hdeny]
      exact .nil
  · by_cases hescalate : verdict.requiresEscalation = true
    · rw [if_pos hescalate, if_pos hescalate, List.forall₂_map_left_iff,
        List.forall₂_map_right_iff]
      exact h.onEscalationRequired.imp fun _ _ hsame => hsame policy ctx verdict
    · rw [if_neg hescalate, if_neg hescalate]
      exact .nil

namespace Engine

theorem run_step_congr {hooks hooks' : Hooks σ} (h : hooks.SameEffects hooks') (ctx : Context)
    (policy : Policy σ) (s : σ) :
    (step hooks ctx policy).run s = (step hooks' ctx policy).run s := by
  rw [run_step, run_step, afterHooks_congr (h.concerned ctx policy _)]

theorem run_turns_congr {hooks hooks' : Hooks σ} (h : hooks.SameEffects hooks') (ctx : Context)
    (entries : List (Registration σ)) (s : σ) :
    (turns hooks ctx entries).run s = (turns hooks' ctx entries).run s := by
  induction entries generalizing s with
  | nil => rfl
  | cons entry rest ih =>
    have hturn : (turn hooks ctx entry).run s = (turn hooks' ctx entry).run s := by
      by_cases henabled : entry.enabled = true
      · rw [run_turn_of_enabled henabled, run_turn_of_enabled henabled, run_step_congr h]
      · rw [run_turn_of_disabled henabled, run_turn_of_disabled henabled]
    rw [run_turns_cons, run_turns_cons, hturn, ih]

section SameEffects

variable (engine : Engine σ) {hooks : Hooks σ} (h : engine.hooks.SameEffects hooks) (ctx : Context)
  (s : σ)

include h

theorem entered_congr : (engine.withHooks hooks).entered ctx s = engine.entered ctx s := by
  refine (afterHooks_congr ?_ s).symm
  rw [List.forall₂_map_left_iff, List.forall₂_map_right_iff]
  exact h.preEvaluate.imp fun _ _ hsame => hsame ctx

/-- Each policy contributes the same with hooks that have the same effects. -/
theorem contributions_congr :
    (engine.withHooks hooks).contributions ctx s = engine.contributions ctx s := by
  rw [contributions, contributions, entered_congr engine h]
  exact congrArg Prod.fst (run_turns_congr h ctx engine.registrations _).symm

/-- A pass is the same with hooks that have the same effects, whatever the policies are. -/
theorem run_evaluate_congr :
    ((engine.withHooks hooks).evaluate ctx).run s = (engine.evaluate ctx).run s := by
  have hafter : ∀ verdicts s, afterHooks (hooks.postEvaluate.map fun run => run ctx verdicts) s =
      afterHooks (engine.hooks.postEvaluate.map fun run => run ctx verdicts) s := by
    intro verdicts s
    refine (afterHooks_congr ?_ s).symm
    rw [List.forall₂_map_left_iff, List.forall₂_map_right_iff]
    exact h.postEvaluate.imp fun _ _ hsame => hsame ctx verdicts
  have hpassed : (engine.withHooks hooks).passed ctx s = engine.passed ctx s := by
    rw [passed_eq, passed_eq, contributions_congr engine h, entered_congr engine h]
    exact congrArg (Prod.mk _)
      (congrArg Prod.snd (run_turns_congr h ctx engine.registrations _).symm)
  rw [run_evaluate, run_evaluate, hpassed]
  exact congrArg (Prod.mk _) (hafter _ _)

end SameEffects

end Engine

/-! ## Hooks that leave a view alone -/

/-- A policy that depends on a view of the surroundings only: how its call ends, and what becomes of
the view, is the same from surroundings with the same view. -/
def Policy.DependsOn (policy : Policy σ) (view : σ → τ) (ctx : Context) : Prop :=
  ∀ s s', view s = view s' →
    ((policy.evaluate ctx).run s).1 = ((policy.evaluate ctx).run s').1 ∧
      view ((policy.evaluate ctx).run s).2 = view ((policy.evaluate ctx).run s').2

/-- A hook that leaves a view of the surroundings as it is. -/
def Keeps (view : σ → τ) (hook : StateM σ (Ending Unit)) : Prop :=
  ∀ s, view (hook.run s).2 = view s

/-- Hooks that leave a view alone. The hooks behind the last verdict may do what they want. -/
structure Hooks.Keep (hooks : Hooks σ) (view : σ → τ) : Prop where
  preEvaluate : ∀ run ∈ hooks.preEvaluate, ∀ ctx, Keeps view (run ctx)
  onDeny : ∀ run ∈ hooks.onDeny, ∀ policy ctx verdict, Keeps view (run policy ctx verdict)
  onEscalationRequired : ∀ run ∈ hooks.onEscalationRequired, ∀ policy ctx verdict,
    Keeps view (run policy ctx verdict)

theorem view_afterHooks {view : σ → τ} {hooks : List (StateM σ (Ending Unit))}
    (h : ∀ hook ∈ hooks, Keeps view hook) (s : σ) : view (afterHooks hooks s) = view s := by
  induction hooks generalizing s with
  | nil => rfl
  | cons hook rest ih =>
    obtain ⟨hhook, hrest⟩ := List.forall_mem_cons.mp h
    exact (ih hrest (hook.run s).2).trans (hhook s)

theorem Hooks.Keep.concerned {hooks : Hooks σ} {view : σ → τ} (h : hooks.Keep view) (ctx : Context)
    (policy : Policy σ) (verdict : Verdict) :
    ∀ hook ∈ hooks.concerned ctx policy verdict, Keeps view hook := by
  intro hook hmem
  rcases List.mem_append.mp hmem with hmem | hmem
  · by_cases hdeny : verdict.isDeny = true
    · rw [if_pos hdeny] at hmem
      obtain ⟨run, hrun, rfl⟩ := List.mem_map.mp hmem
      exact h.onDeny run hrun policy ctx verdict
    · rw [if_neg hdeny] at hmem
      cases hmem
  · by_cases hescalate : verdict.requiresEscalation = true
    · rw [if_pos hescalate] at hmem
      obtain ⟨run, hrun, rfl⟩ := List.mem_map.mp hmem
      exact h.onEscalationRequired run hrun policy ctx verdict
    · rw [if_neg hescalate] at hmem
      cases hmem

namespace Engine

/-- A policy that depends on a view has the same verdict from surroundings with the same view. -/
theorem verdictOf_congr {view : σ → τ} {ctx : Context} {policy : Policy σ}
    (h : ¬ctx.Blank → policy.DependsOn view ctx) {s s' : σ} (hview : view s = view s') :
    ((verdictOf policy ctx).run s).1 = ((verdictOf policy ctx).run s').1 ∧
      view ((verdictOf policy ctx).run s).2 = view ((verdictOf policy ctx).run s').2 := by
  by_cases hblank : ctx.Blank
  · have hcheck := Context.check_of_blank hblank
    rw [run_verdictOf_of_error hcheck, run_verdictOf_of_error hcheck]
    exact ⟨rfl, hview⟩
  · have hcheck := Context.check_of_not_blank hblank
    obtain ⟨hending, hafter⟩ := h hblank s s' hview
    obtain ⟨verdict, hcomes, hrun⟩ := run_verdictOf hcheck policy s
    obtain ⟨verdict', hcomes', hrun'⟩ := run_verdictOf hcheck policy s'
    rw [hrun, hrun']
    rw [hending] at hcomes
    exact ⟨hcomes.unique hcomes', hafter⟩

/-- The verdicts of policies that depend on a view are the same with all hooks that keep it. -/
theorem steps_congr {view : σ → τ} {ctx : Context} {hooks hooks' : Hooks σ}
    (hkeep : hooks.Keep view) (hkeep' : hooks'.Keep view) {policies : List (Policy σ)}
    (h : ¬ctx.Blank → ∀ policy ∈ policies, policy.DependsOn view ctx) {s s' : σ}
    (hview : view s = view s') :
    ((steps hooks ctx policies).run s).1 = ((steps hooks' ctx policies).run s').1 := by
  induction policies generalizing s s' with
  | nil => rfl
  | cons policy rest ih =>
    obtain ⟨hverdict, hafter⟩ :=
      verdictOf_congr (fun hblank => h hblank policy List.mem_cons_self) hview
    rw [run_steps_cons, run_steps_cons, run_step, run_step]
    refine List.cons_eq_cons.mpr ⟨hverdict, ih (fun hblank other hother =>
      h hblank other (List.mem_cons_of_mem _ hother)) ?_⟩
    show view (afterHooks _ _) = view (afterHooks _ _)
    rw [view_afterHooks (hkeep.concerned ctx policy _),
      view_afterHooks (hkeep'.concerned ctx policy _), hafter]

/-- The verdicts of a pass are the same with all hooks that keep what the policies depend on. -/
theorem verdicts_congr {view : σ → τ} {ctx : Context} {engine : Engine σ} {hooks : Hooks σ}
    (hkeep : engine.hooks.Keep view) (hkeep' : hooks.Keep view)
    (h : ¬ctx.Blank → ∀ policy ∈ engine.enabledPolicies, policy.DependsOn view ctx) {s s' : σ}
    (hview : view s = view s') :
    (engine.withHooks hooks).verdicts ctx s' = engine.verdicts ctx s := by
  have hentered : ∀ engine : Engine σ, engine.hooks.Keep view → ∀ s,
      view (engine.entered ctx s) = view s := by
    intro engine hkeep s
    refine view_afterHooks (fun hook hmem => ?_) s
    obtain ⟨run, hrun, rfl⟩ := List.mem_map.mp hmem
    exact hkeep.preEvaluate run hrun ctx
  rw [verdicts_eq, verdicts_eq]
  refine (steps_congr hkeep hkeep' h ?_).symm
  rw [hentered engine hkeep, hentered (engine.withHooks hooks) hkeep', hview]

end Engine

end ReleaseGate

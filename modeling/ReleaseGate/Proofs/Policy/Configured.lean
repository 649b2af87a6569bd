import ReleaseGate.Proofs.Checks
import ReleaseGate.Proofs.Policy.Pass
import ReleaseGate.Proofs.Policy.Rules
import ReleaseGate.Proofs.Policy.Setup

/-!
# Configured engines

A configuration is accepted if its least score lies in the unit interval and none of its lists has a
blank entry. The engine that it gives decides by its enabled tables alone.

* `PolicyConfig.Sound`, `PolicyConfig.check_eq_ok`: the configurations that are accepted.
* `ofConfig_eq_ok`: the engine of an accepted configuration, written out.
* `PolicyConfig.Decides`, `ofConfig_decides`: what it decides about every context.
-/

namespace ReleaseGate

variable {σ : Type}

/-! ## Accepted configurations -/

namespace PolicyConfig

/-- A configuration whose least score lies in the unit interval, and whose lists have no blank
entry. -/
structure Sound (config : PolicyConfig) : Prop where
  finite : config.threshold.minScore.isFinite = true
  zero_le : Binary64.le 0 config.threshold.minScore = true
  le_one : Binary64.le config.threshold.minScore 1 = true
  sensitiveActions : ∀ entry ∈ config.validation.sensitiveActions, Speaks entry
  privilegedLevels : ∀ entry ∈ config.validation.privilegedLevels, Speaks entry
  protectedResources : ∀ entry ∈ config.approval.protectedResources, Speaks entry

theorem checkEntries_eq_ok {name : String} {entries : List String} :
    checkEntries name entries = .ok () ↔ ∀ entry ∈ entries, Speaks entry := by
  rw [checkEntries]
  by_cases hany : entries.any isBlankText = true
  · rw [if_pos hany]
    obtain ⟨entry, hentry, hblank⟩ := List.any_eq_true.mp hany
    constructor
    · intro h
      cases h
    · intro h
      rw [isBlankText_eq_false.mpr (h entry hentry)] at hblank
      cases hblank
  · rw [if_neg hany]
    have hnone := List.any_eq_false.mp (Bool.eq_false_iff.mpr hany)
    refine ⟨fun _ entry hentry => ?_, fun _ => rfl⟩
    exact isBlankText_eq_false.mp (Bool.eq_false_iff.mpr (hnone entry hentry))

theorem exists_of_checkEntries_eq_error {name : String} {entries : List String} {fault : Fault}
    (h : checkEntries name entries = .error fault) : ∃ problem, fault = .configuration problem := by
  rw [checkEntries] at h
  by_cases hany : entries.any isBlankText = true
  · rw [if_pos hany] at h
    cases h
    exact ⟨_, rfl⟩
  · rw [if_neg hany] at h
    cases h

theorem check_eq (config : PolicyConfig) : config.check =
    if inUnitInterval config.threshold.minScore = true then do
      checkEntries "validation.sensitive_actions" config.validation.sensitiveActions
      checkEntries "validation.privileged_levels" config.validation.privilegedLevels
      checkEntries "approval.protected_resources" config.approval.protectedResources
    else
      .error (.configuration (.settingOutOfRange "threshold.min_score" config.threshold.minScore))
    := by
  rw [check]
  cases inUnitInterval config.threshold.minScore <;> rfl

/-- A configuration is accepted exactly if it is sound. -/
theorem check_eq_ok {config : PolicyConfig} : config.check = .ok () ↔ config.Sound := by
  have hunit : inUnitInterval config.threshold.minScore = true ↔
      config.threshold.minScore.isFinite = true ∧
        Binary64.le 0 config.threshold.minScore = true ∧
          Binary64.le config.threshold.minScore 1 = true := by
    rw [inUnitInterval, Bool.and_eq_true, Bool.and_eq_true, and_assoc]
  rw [check_eq]
  by_cases hscore : inUnitInterval config.threshold.minScore = true
  · rw [if_pos hscore, seq_eq_ok, seq_eq_ok, checkEntries_eq_ok, checkEntries_eq_ok,
      checkEntries_eq_ok]
    obtain ⟨hfinite, hzero, hone⟩ := hunit.mp hscore
    constructor
    · rintro ⟨hactions, hlevels, hresources⟩
      exact ⟨hfinite, hzero, hone, hactions, hlevels, hresources⟩
    · intro h
      exact ⟨h.sensitiveActions, h.privilegedLevels, h.protectedResources⟩
  · rw [if_neg hscore]
    constructor
    · intro h
      cases h
    · intro h
      exact absurd (hunit.mpr ⟨h.finite, h.zero_le, h.le_one⟩) hscore

/-- Why a configuration is not accepted is a problem with the configuration. -/
theorem exists_of_check_eq_error {config : PolicyConfig} {fault : Fault}
    (h : config.check = .error fault) : ∃ problem, fault = .configuration problem := by
  rw [check_eq] at h
  by_cases hscore : inUnitInterval config.threshold.minScore = true
  · rw [if_pos hscore, seq_eq_error, seq_eq_error] at h
    rcases h with h | ⟨-, h | ⟨-, h⟩⟩ <;> exact exists_of_checkEntries_eq_error h
  · rw [if_neg hscore] at h
    cases h
    exact ⟨_, rfl⟩

end PolicyConfig

/-! ## The engine of a configuration -/

/-- A registered policy once switches are set, where only those that are off have an effect. -/
def Registration.after (switches : List (String × Bool)) (entry : Registration σ) :
    Registration σ :=
  { entry with enabled := entry.enabled && !switches.contains (entry.policy.id, false) }

theorem Registration.after_on (id : String) (rest : List (String × Bool)) (entry : Registration σ) :
    entry.after ((id, true) :: rest) = entry.after rest := by
  have hne : ((entry.policy.id, false) == (id, true)) = false := by simp
  rw [after, after, List.contains_cons, hne, Bool.false_or]

theorem Registration.after_off (id : String) (rest : List (String × Bool))
    (entry : Registration σ) :
    entry.after ((id, false) :: rest) = (entry.set id false).after rest := by
  rw [after, set, List.contains_cons]
  by_cases hid : entry.policy.id = id
  · rw [if_pos hid, hid, beq_self_eq_true, Bool.true_or, Bool.not_true, Bool.and_false]
    rfl
  · have hne : ((entry.policy.id, false) == (id, false)) = false := by simp [hid]
    rw [if_neg hid, hne, Bool.false_or, after]

namespace Engine

/-- Switching registered policies never fails. -/
theorem foldlM_switch {switches : List (String × Bool)} (engine : Engine σ)
    (h : ∀ switch ∈ switches, switch.1 ∈ engine.policyIds) :
    switches.foldlM (fun (engine : Engine σ) (id, enabled) =>
        if enabled then Except.ok engine else engine.setEnabled id false) engine =
      .ok { engine with
        registrations := engine.registrations.map (Registration.after switches) } := by
  induction switches generalizing engine with
  | nil =>
    have hmap : engine.registrations.map (Registration.after []) = engine.registrations := by
      refine (List.map_congr_left fun entry _ => ?_).trans (List.map_id _)
      rw [Registration.after, List.contains_nil, Bool.not_false, Bool.and_true, id_eq]
    rw [hmap]
    rfl
  | cons switch rest ih =>
    obtain ⟨id, enabled⟩ := switch
    obtain ⟨hid, hrest⟩ := List.forall_mem_cons.mp h
    rw [List.foldlM_cons]
    cases enabled with
    | true =>
      refine (ih engine hrest).trans ?_
      rw [List.map_congr_left fun entry _ => Registration.after_on id rest entry]
    | false =>
      show (do let changed ← engine.setEnabled id false; rest.foldlM _ changed) = _
      rw [setEnabled_of_mem hid]
      refine (ih (engine.switch id false) (by simpa using hrest)).trans ?_
      have hafter : (Registration.after rest ∘ Registration.set id false : Registration σ → _) =
          Registration.after ((id, false) :: rest) := by
        funext entry
        exact (Registration.after_off id rest entry).symm
      rw [switch, List.map_map, hafter]

end Engine

namespace PolicyConfig

/-- The standard policies with the parameters and switches of a configuration. -/
def registrations (config : PolicyConfig) : List (Registration σ) :=
  [⟨.score config.scoreRule, config.threshold.enabled⟩,
    ⟨.validation config.validationRule, config.validation.enabled⟩,
    ⟨.approval config.approvalRule, config.approval.enabled⟩,
    ⟨.audit, config.audit.enabled⟩]

/-- The engine that a configuration describes. -/
def engine (config : PolicyConfig) : Engine σ := ⟨config.registrations, {}⟩

end PolicyConfig

/-- An accepted configuration gives the engine that it describes. -/
theorem ofConfig_of_sound {config : PolicyConfig} (h : config.Sound) :
    Engine.ofConfig config = .ok (config.engine : Engine σ) := by
  rw [Engine.ofConfig, PolicyConfig.check_eq_ok.mpr h]
  refine (Engine.foldlM_switch _ ?_).trans ?_
  · show ∀ switch ∈ config.switches, switch.1 ∈ [scoreRuleId, validationRuleId, approvalRuleId,
      auditRuleId]
    simp [PolicyConfig.switches]
  · refine congrArg Except.ok ?_
    show (⟨[Registration.after config.switches ⟨.score config.scoreRule, true⟩,
      Registration.after config.switches ⟨.validation config.validationRule, true⟩,
      Registration.after config.switches ⟨.approval config.approvalRule, true⟩,
      Registration.after config.switches ⟨.audit, true⟩], {}⟩ : Engine σ) = _
    rw [PolicyConfig.engine, PolicyConfig.registrations]
    simp [Registration.after, PolicyConfig.switches, Policy.score,
      Policy.validation, Policy.approval, Policy.audit, Policy.ofRule, scoreRuleId,
      validationRuleId, approvalRuleId, auditRuleId]

theorem ofConfig_of_check_eq_error {config : PolicyConfig} {fault : Fault}
    (h : config.check = .error fault) :
    (Engine.ofConfig config : Except Fault (Engine σ)) = .error fault := by
  rw [Engine.ofConfig, h]
  rfl

/-- Only accepted configurations give an engine. -/
theorem ofConfig_eq_ok {config : PolicyConfig} {engine : Engine σ} :
    Engine.ofConfig config = .ok engine ↔ config.Sound ∧ engine = config.engine := by
  constructor
  · intro h
    cases hcheck : config.check with
    | ok =>
      have hsound := PolicyConfig.check_eq_ok.mp hcheck
      rw [ofConfig_of_sound hsound] at h
      exact ⟨hsound, (Except.ok.inj h).symm⟩
    | error fault =>
      rw [ofConfig_of_check_eq_error hcheck] at h
      cases h
  · rintro ⟨hsound, rfl⟩
    exact ofConfig_of_sound hsound

/-- A configuration is refused for a problem with the configuration. -/
theorem exists_of_ofConfig_eq_error {config : PolicyConfig} {fault : Fault}
    (h : (Engine.ofConfig config : Except Fault (Engine σ)) = .error fault) :
    ∃ problem, fault = .configuration problem := by
  cases hcheck : config.check with
  | ok =>
    rw [ofConfig_of_sound (PolicyConfig.check_eq_ok.mp hcheck)] at h
    cases h
  | error fault' =>
    rw [ofConfig_of_check_eq_error hcheck] at h
    cases h
    exact PolicyConfig.exists_of_check_eq_error hcheck

/-! ## Decisions -/

namespace PolicyConfig

/-- What a registered policy says about a context. -/
def verdictOn (ctx : Context) (s : σ) (entry : Registration σ) : Verdict :=
  ((Engine.verdictOf entry.policy ctx).run s).1

/-- On a valid context, a rule says what it says from any surroundings. -/
theorem verdictOn_ofRule {ctx : Context} (h : ctx.check = .ok ()) (id : String)
    (category : Category) (rule : Context → Verdict) (enabled : Bool) (s : σ) :
    verdictOn ctx s ⟨Policy.ofRule id category rule, enabled⟩ = rule ctx := by
  rw [verdictOn, Engine.verdictOf, h]
  rfl

theorem verdicts_engine (config : PolicyConfig) (ctx : Context) (s : σ) :
    config.engine.verdicts ctx s =
      (config.registrations.filter (·.enabled)).map (verdictOn ctx s) := by
  have hfixed : ∀ policy ∈ (config.engine : Engine σ).enabledPolicies, ∀ s',
      ((Engine.verdictOf policy ctx).run s').1 = ((Engine.verdictOf policy ctx).run s).1 := by
    intro policy hpolicy s'
    by_cases hblank : ctx.Blank
    · have hcheck := Context.check_of_blank hblank
      rw [Engine.run_verdictOf_of_error hcheck, Engine.run_verdictOf_of_error hcheck]
    · have hcheck := Context.check_of_not_blank hblank
      obtain ⟨entry, hentry, rfl⟩ := List.mem_map.mp hpolicy
      have hrule : ∃ id category rule, entry.policy = Policy.ofRule id category rule := by
        have hmem := List.mem_of_mem_filter hentry
        simp only [engine, registrations, List.mem_cons, List.not_mem_nil, or_false] at hmem
        rcases hmem with rfl | rfl | rfl | rfl <;> exact ⟨_, _, _, rfl⟩
      obtain ⟨id, category, rule, hpolicy⟩ := hrule
      rw [hpolicy]
      exact (verdictOn_ofRule hcheck id category rule true s').trans
        (verdictOn_ofRule hcheck id category rule true s).symm
  rw [Engine.verdicts_eq, Engine.passed, Engine.run_steps_of_fixed hfixed, Engine.enabledPolicies,
    List.map_map]
  rfl

theorem allowed_iff (config : PolicyConfig) (ctx : Context) (s : σ) :
    (Outcome.ofVerdicts (config.engine.verdicts ctx s)).allowed = true ↔
      ∀ entry ∈ config.registrations, entry.enabled = true →
        ¬(verdictOn ctx s entry).isDeny = true := by
  rw [verdicts_engine, Outcome.allowed_ofVerdicts, List.forall_mem_map]
  simp only [List.mem_filter, and_imp, Bool.not_eq_true]

theorem requiresEscalation_iff (config : PolicyConfig) (ctx : Context) (s : σ) :
    (Outcome.ofVerdicts (config.engine.verdicts ctx s)).requiresEscalation = true ↔
      ∃ entry ∈ config.registrations, entry.enabled = true ∧
        (verdictOn ctx s entry).requiresEscalation = true := by
  rw [verdicts_engine, Outcome.requiresEscalation, Outcome.ofVerdicts, List.any_eq_true]
  constructor
  · rintro ⟨verdict, hverdict, hescalate⟩
    obtain ⟨entry, hentry, rfl⟩ := List.mem_map.mp hverdict
    obtain ⟨hmem, henabled⟩ := List.mem_filter.mp hentry
    exact ⟨entry, hmem, henabled, hescalate⟩
  · rintro ⟨entry, hmem, henabled, hescalate⟩
    exact ⟨_, List.mem_map_of_mem (List.mem_filter.mpr ⟨hmem, henabled⟩), hescalate⟩

/-- What a configuration decides about a context. -/
structure Decides (config : PolicyConfig) (ctx : Context) (outcome : Outcome) : Prop where
  /-- There is one verdict for each enabled table, in the order of the tables. -/
  policyIds : outcome.verdicts.map (·.policyId) =
    ([("POL-SCORE-001", config.threshold.enabled), ("POL-VAL-001", config.validation.enabled),
      ("POL-APPROVAL-001", config.approval.enabled), ("POL-AUDIT-001", config.audit.enabled)].filter
        (·.2)).map (·.1)
  /-- On a blank context every verdict is a denial. -/
  isDeny_of_blank : ctx.Blank → ∀ verdict ∈ outcome.verdicts, verdict.isDeny = true
  /-- So a blank context is allowed only if no table is enabled. -/
  allowed_of_blank : ctx.Blank → (outcome.allowed = true ↔ config.threshold.enabled = false ∧
    config.validation.enabled = false ∧ config.approval.enabled = false ∧
    config.audit.enabled = false)
  /-- Any other context is allowed if its score and its approval are enough. -/
  allowed : ¬ctx.Blank → (outcome.allowed = true ↔
    (config.threshold.enabled = false ∨
      ctx.currentScore ≠ .nan ∧ config.threshold.minScore.le ctx.currentScore = true) ∧
    (config.approval.enabled = false ∨ ctx.resource ∉ config.approval.protectedResources ∨
      ctx.Approved))
  /-- It is escalated if its validation or its approval is not enough. -/
  requiresEscalation : ¬ctx.Blank → (outcome.requiresEscalation = true ↔
    (config.validation.enabled = true ∧ ctx.action ∈ config.validation.sensitiveActions ∧
      ctx.validationLevel ∉ config.validation.privilegedLevels) ∨
    (config.approval.enabled = true ∧ ctx.resource ∈ config.approval.protectedResources ∧
      ¬ctx.Approved))

variable (config : PolicyConfig) (ctx : Context) (s : σ)

theorem allowed_of_not_blank (h : ¬ctx.Blank) :
    (Outcome.ofVerdicts (config.engine.verdicts ctx s)).allowed = true ↔
      (config.threshold.enabled = false ∨
        ctx.currentScore ≠ .nan ∧ config.threshold.minScore.le ctx.currentScore = true) ∧
      (config.approval.enabled = false ∨ ctx.resource ∉ config.approval.protectedResources ∨
        ctx.Approved) := by
  have hcheck := Context.check_of_not_blank h
  rw [allowed_iff, registrations, Policy.score, Policy.validation, Policy.approval, Policy.audit]
  simp only [List.forall_mem_cons, List.not_mem_nil, false_implies, implies_true, and_true,
    verdictOn_ofRule hcheck, (config.scoreRule.decides_verdict ctx).isDeny,
    (config.validationRule.decides_verdict ctx).isDeny,
    (config.approvalRule.decides_verdict ctx).isDeny, (decides_auditVerdict ctx).isDeny,
    not_false_eq_true, true_and]
  show (_ → ¬¬(_ ∧ config.threshold.minScore.le _ = true)) ∧
    (_ → ¬(_ ∈ config.approval.protectedResources ∧ _)) ↔ _
  cases config.threshold.enabled <;> cases config.approval.enabled <;> simp [imp_iff_not_or]

theorem requiresEscalation_of_not_blank (h : ¬ctx.Blank) :
    (Outcome.ofVerdicts (config.engine.verdicts ctx s)).requiresEscalation = true ↔
      (config.validation.enabled = true ∧ ctx.action ∈ config.validation.sensitiveActions ∧
        ctx.validationLevel ∉ config.validation.privilegedLevels) ∨
      (config.approval.enabled = true ∧ ctx.resource ∈ config.approval.protectedResources ∧
        ¬ctx.Approved) := by
  have hcheck := Context.check_of_not_blank h
  rw [requiresEscalation_iff, registrations, Policy.score, Policy.validation, Policy.approval,
    Policy.audit]
  simp only [List.exists_mem_cons_iff, List.not_mem_nil, false_and, exists_false, or_false,
    verdictOn_ofRule hcheck, (config.scoreRule.decides_verdict ctx).requiresEscalation,
    (config.validationRule.decides_verdict ctx).requiresEscalation,
    (config.approvalRule.decides_verdict ctx).requiresEscalation,
    (decides_auditVerdict ctx).requiresEscalation, and_false, false_or]
  rfl

theorem denies_verdictOn {ctx : Context} (h : ctx.Blank) (s : σ) (entry : Registration σ) :
    (verdictOn ctx s entry).Denies entry.policy.id "invalid context"
      (Fault.invalidInput (.blankContextField ctx.blankField)).message := by
  rw [verdictOn, Engine.run_verdictOf_of_error (Context.check_of_blank h)]
  exact Engine.denies_denial _ _ _

theorem isDeny_of_blank {ctx : Context} (h : ctx.Blank) (s : σ) (entry : Registration σ) :
    (verdictOn ctx s entry).isDeny = true :=
  (denies_verdictOn h s entry).isDeny

theorem allowed_of_blank (h : ctx.Blank) :
    (Outcome.ofVerdicts (config.engine.verdicts ctx s)).allowed = true ↔
      config.threshold.enabled = false ∧ config.validation.enabled = false ∧
        config.approval.enabled = false ∧ config.audit.enabled = false := by
  rw [allowed_iff, registrations]
  simp only [List.forall_mem_cons, List.not_mem_nil, false_implies, implies_true, and_true,
    isDeny_of_blank h, not_true_eq_false, imp_false, Bool.not_eq_true]

/-- Every verdict names the policy that it is from. -/
theorem policyId_verdictOn {entry : Registration σ} (hentry : entry ∈ config.registrations) :
    (verdictOn ctx s entry).policyId = entry.policy.id := by
  by_cases hblank : ctx.Blank
  · exact (denies_verdictOn hblank s entry).policyId
  · have hcheck := Context.check_of_not_blank hblank
    simp only [registrations, List.mem_cons, List.not_mem_nil, or_false] at hentry
    rcases hentry with rfl | rfl | rfl | rfl
    · rw [Policy.score, verdictOn_ofRule hcheck]
      exact (config.scoreRule.decides_verdict ctx).policyId
    · rw [Policy.validation, verdictOn_ofRule hcheck]
      exact (config.validationRule.decides_verdict ctx).policyId
    · rw [Policy.approval, verdictOn_ofRule hcheck]
      exact (config.approvalRule.decides_verdict ctx).policyId
    · rw [Policy.audit, verdictOn_ofRule hcheck]
      exact (decides_auditVerdict ctx).policyId

theorem map_policyId_verdicts : (config.engine.verdicts ctx s).map (·.policyId) =
    (config.switches.filter (·.2)).map (·.1) := by
  have hswitches : config.switches =
      (config.registrations : List (Registration σ)).map fun entry =>
        (entry.policy.id, entry.enabled) := rfl
  rw [verdicts_engine, hswitches, List.filter_map, List.map_map, List.map_map]
  exact List.map_congr_left fun entry hentry =>
    policyId_verdictOn config ctx s (List.mem_of_mem_filter hentry)

/-- The engine of a configuration decides as the configuration says. -/
theorem decides_check : config.Decides ctx ((config.engine.check ctx).run s).1 where
  policyIds := map_policyId_verdicts config ctx s
  isDeny_of_blank h verdict hverdict := by
    have hmem : verdict ∈ config.engine.verdicts ctx s := hverdict
    rw [verdicts_engine] at hmem
    obtain ⟨entry, -, rfl⟩ := List.mem_map.mp hmem
    exact isDeny_of_blank h s entry
  allowed_of_blank h := allowed_of_blank config ctx s h
  allowed h := allowed_of_not_blank config ctx s h
  requiresEscalation h := requiresEscalation_of_not_blank config ctx s h

/-- The configuration that says nothing is accepted. -/
theorem sound_default : Sound {} where
  finite := by decide +kernel
  zero_le := by decide +kernel
  le_one := by decide +kernel
  sensitiveActions := checkEntries_eq_ok.mp (by decide +kernel : checkEntries "" _ = _)
  privilegedLevels := checkEntries_eq_ok.mp (by decide +kernel : checkEntries "" _ = _)
  protectedResources := checkEntries_eq_ok.mp (by decide +kernel : checkEntries "" _ = _)

end PolicyConfig

/-- A configuration is accepted exactly if it is sound, and refused for a problem of its own. The
engine of an accepted one decides about every context, from any surroundings, as the configuration
says; that of the configuration that says nothing is the standard engine. -/
theorem ofConfig_decides (config : PolicyConfig) :
    ((∃ engine : Engine σ, Engine.ofConfig config = .ok engine) ↔ config.Sound) ∧
    (∀ fault, (Engine.ofConfig config : Except Fault (Engine σ)) = .error fault →
      ∃ problem, fault = .configuration problem) ∧
    (∀ engine : Engine σ, Engine.ofConfig config = .ok engine →
      ∀ (ctx : Context) (s : σ), config.Decides ctx ((engine.check ctx).run s).1) ∧
    Engine.ofConfig {} = .ok (Engine.standard : Engine σ) := by
  refine ⟨⟨?_, ?_⟩, fun _ h => exists_of_ofConfig_eq_error h, ?_, ?_⟩
  · rintro ⟨engine, hengine⟩
    exact (ofConfig_eq_ok.mp hengine).1
  · intro h
    exact ⟨_, ofConfig_of_sound h⟩
  · intro engine hengine ctx s
    obtain ⟨-, rfl⟩ := ofConfig_eq_ok.mp hengine
    exact config.decides_check ctx s
  · exact ofConfig_of_sound PolicyConfig.sound_default

end ReleaseGate

import ReleaseGate.Policy.Engine

/-!
# The decisions of the standard policies

Two of the four standard policies deny and two ask for escalation, each under one condition on the
context.

* `Json.Value.Falsy`, `Context.Approved`: when metadata hold an approval.
* `Verdict.Decides`: when a verdict is a denial, and when it asks for escalation.
* `decides_verdict` of each rule, `decides_auditVerdict`: the conditions of the four policies.
-/

namespace ReleaseGate

/-! ## Truth of values -/

/-- The values that stand for false: null, false, both zeros and whatever is empty. -/
def Json.Value.Falsy : Json.Value → Prop
  | .null => True
  | .bool b => b = false
  | .number (.integer value _) => value = 0
  | .number (.real value _) => value = .zero ∨ value = .negativeZero
  | .string s => s = ""
  | .array items => items = []
  | .object fields => fields = []

theorem Binary64.isZero_iff {x : Binary64} : x.isZero = true ↔ x = zero ∨ x = negativeZero := by
  rw [isZero, beq_iff_eq]
  constructor
  · intro h
    match x with
    | .number negative rank =>
      have hrank : rank = 0 := by
        rw [signedRank?, Option.some.injEq] at h
        refine Fin.ext ?_
        show rank.val = 0
        by_cases hnegative : negative = true
        · rw [if_pos hnegative] at h
          omega
        · rw [if_neg hnegative] at h
          omega
      subst hrank
      cases negative
      · exact .inl rfl
      · exact .inr rfl
  · rintro (rfl | rfl) <;> rfl

theorem Json.Value.isTruthy_iff {value : Json.Value} : value.isTruthy = true ↔ ¬value.Falsy := by
  match value with
  | .null => simp [isTruthy, Falsy]
  | .bool b => simp [isTruthy, Falsy]
  | .number (.integer i _) => simp [isTruthy, Falsy]
  | .number (.real x _) =>
    rw [isTruthy, Falsy, Bool.not_eq_true', ← Binary64.isZero_iff, Bool.not_eq_true]
  | .string s => simp [isTruthy, Falsy]
  | .array items => simp [isTruthy, Falsy]
  | .object fields => simp [isTruthy, Falsy]

/-- The metadata hold a value under `approved` that does not stand for false. -/
def Context.Approved (ctx : Context) : Prop :=
  ∃ value, ctx.metadata.get? "approved" = some value ∧ ¬value.Falsy

theorem Context.flag_approvedKey {ctx : Context} : ctx.flag approvedKey = true ↔ ctx.Approved := by
  rw [flag, Facts.holds, Option.any_eq_true, Approved]
  simp only [Json.Value.isTruthy_iff, approvedKey]

/-! ## Verdicts -/

/-- A verdict of a policy that denies and that asks for escalation under given conditions. -/
structure Verdict.Decides (v : Verdict) (policyId : String) (denies escalates : Prop) : Prop where
  policyId : v.policyId = policyId
  isDeny : v.isDeny = true ↔ denies
  requiresEscalation : v.requiresEscalation = true ↔ escalates

/-- Nothing is less than or equal to what is not a number. -/
theorem Binary64.le_nan (x : Binary64) : x.le .nan = false := by
  cases x <;> rfl

/-- The score policy denies a score below the least one, and one that is not a number. -/
theorem ScoreRule.decides_verdict (rule : ScoreRule) (ctx : Context) :
    (rule.verdict ctx).Decides scoreRuleId
      (¬(ctx.currentScore ≠ .nan ∧ rule.minScore.le ctx.currentScore = true)) False := by
  rw [verdict, meets]
  by_cases hmeets : rule.minScore.le ctx.currentScore = true
  · have hnan : ctx.currentScore ≠ .nan := by
      intro hnan
      rw [hnan, Binary64.le_nan] at hmeets
      cases hmeets
    rw [if_pos hmeets]
    exact ⟨rfl, by simp [Verdict.isDeny, hnan, hmeets], by simp⟩
  · rw [if_neg hmeets]
    exact ⟨rfl, by simp [Verdict.isDeny, hmeets], by simp⟩

/-- The validation policy denies nothing. It escalates a sensitive action without a privileged
validation level. -/
theorem ValidationRule.decides_verdict (rule : ValidationRule) (ctx : Context) :
    (rule.verdict ctx).Decides validationRuleId False
      (ctx.action ∈ rule.sensitiveActions ∧ ctx.validationLevel ∉ rule.privilegedLevels) := by
  rw [verdict, isSensitive, isPrivileged]
  by_cases hsensitive : ctx.action ∈ rule.sensitiveActions
  · by_cases hprivileged : ctx.validationLevel ∈ rule.privilegedLevels
    · rw [if_neg (by simpa using hsensitive), if_pos (by simpa using hprivileged)]
      exact ⟨rfl, by simp [Verdict.isDeny], by simp [hprivileged]⟩
    · rw [if_neg (by simpa using hsensitive), if_neg (by simpa using hprivileged)]
      exact ⟨rfl, by simp [Verdict.isDeny], by simp [hsensitive, hprivileged]⟩
  · rw [if_pos (by simpa using hsensitive)]
    exact ⟨rfl, by simp [Verdict.isDeny], by simp [hsensitive]⟩

/-- The approval policy denies and escalates a protected resource without approval. -/
theorem ApprovalRule.decides_verdict (rule : ApprovalRule) (ctx : Context) :
    (rule.verdict ctx).Decides approvalRuleId
      (ctx.resource ∈ rule.protectedResources ∧ ¬ctx.Approved)
      (ctx.resource ∈ rule.protectedResources ∧ ¬ctx.Approved) := by
  rw [verdict, isProtected]
  by_cases hprotected : ctx.resource ∈ rule.protectedResources
  · by_cases happroved : ctx.Approved
    · rw [if_neg (by simpa using hprotected), if_pos (Context.flag_approvedKey.mpr happroved)]
      exact ⟨rfl, by simp [Verdict.isDeny, happroved], by simp [happroved]⟩
    · rw [if_neg (by simpa using hprotected), if_neg (mt Context.flag_approvedKey.mp happroved)]
      exact ⟨rfl, by simp [Verdict.isDeny, hprotected, happroved], by simp [hprotected, happroved]⟩
  · rw [if_pos (by simpa using hprotected)]
    exact ⟨rfl, by simp [Verdict.isDeny, hprotected], by simp [hprotected]⟩

/-- The audit policy neither denies nor escalates. -/
theorem decides_auditVerdict (ctx : Context) : (auditVerdict ctx).Decides auditRuleId False False :=
  ⟨rfl, by simp [Verdict.isDeny, auditVerdict], by simp [auditVerdict]⟩

end ReleaseGate

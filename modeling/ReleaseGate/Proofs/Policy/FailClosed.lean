import ReleaseGate.Proofs.Policy.HookIndependence
import ReleaseGate.Proofs.Policy.Setup

/-!
# Engines fail closed

However an engine was set up, and however its policies and hooks behave, a pass has one verdict for
each enabled policy, in the order of registration, and a policy that gives no verdict denies.

* `verdicts_of_not_blank`, `verdicts_of_blank`: the verdicts of a pass, one for each policy.
* `map_fst_calls`: the calls of a pass, one of each registered policy that is enabled.
* `allowed_check_of_not_blank`, `allowed_check_of_blank`: nothing is allowed that a policy has not
  returned a verdict on.
* `Engine.FailsClosed`: what a pass of an engine comes to.
* `setUp_failsClosed`: every engine that was set up fails closed.
-/

namespace ReleaseGate

variable {σ : Type}

/-! ## Verdicts of a pass -/

namespace Engine

variable (engine : Engine σ) {ctx : Context} (s : σ)

/-- On a context with action and resource, each verdict is what the policy's call comes to. -/
theorem verdicts_of_not_blank (h : ¬ctx.Blank) :
    List.Forall₂ (fun call verdict => call.2.ComesTo call.1.id verdict)
      (engine.calls ctx s) (engine.verdicts ctx s) := by
  rw [verdicts_eq]
  exact forall₂_comesTo (Context.check_of_not_blank h) _ _ _

/-- On any other context, each verdict is a denial that says what the context lacks. -/
theorem verdicts_of_blank (h : ctx.Blank) :
    List.Forall₂ (fun policy verdict => verdict.Denies policy.id "invalid context"
        (Fault.invalidInput (.blankContextField ctx.blankField)).message)
      engine.enabledPolicies (engine.verdicts ctx s) := by
  rw [verdicts_eq]
  exact forall₂_denies (Context.check_of_blank h) _ _ _

/-- The calls are those of the registered policies, where each disabled one is left out. -/
theorem map_fst_calls : (engine.calls ctx s).map Prod.fst =
    engine.registrations.flatMap fun entry => if entry.enabled then [entry.policy] else [] := by
  rw [calls, map_fst_callsFrom, enabledPolicies]
  induction engine.registrations with
  | nil => rfl
  | cons entry rest ih =>
    by_cases henabled : entry.enabled = true
    · rw [List.filter_cons_of_pos henabled, List.map_cons, ih, List.flatMap_cons, if_pos henabled]
      rfl
    · rw [List.filter_cons_of_neg henabled, ih, List.flatMap_cons, if_neg henabled]
      rfl

/-- The verdicts are known from how the calls end, whichever hooks run in between. -/
theorem verdicts_eq_of_calls_eq {hooks : Hooks σ} {s' : σ}
    (h : (engine.withHooks hooks).calls ctx s' = engine.calls ctx s) :
    (engine.withHooks hooks).verdicts ctx s' = engine.verdicts ctx s := by
  by_cases hblank : ctx.Blank
  · exact List.right_unique_forall₂' (fun _ _ _ hv hw => hv.unique hw)
      ((engine.withHooks hooks).verdicts_of_blank s' hblank) (engine.verdicts_of_blank s hblank)
  · have hverdicts := (engine.withHooks hooks).verdicts_of_not_blank s' hblank
    rw [h] at hverdicts
    exact List.right_unique_forall₂' (fun _ _ _ hv hw => hv.unique hw) hverdicts
      (engine.verdicts_of_not_blank s hblank)

/-! ## What a check allows -/

theorem allowed_check : ((engine.check ctx).run s).1.allowed = true ↔
    ∀ verdict ∈ engine.verdicts ctx s, verdict.isDeny = false :=
  Outcome.allowed_ofVerdicts

/-- The elements of related lists have properties that come to the same. -/
private theorem forall_mem_iff_of_forall₂ {α β : Type} {R : α → β → Prop} {p : α → Prop}
    {q : β → Prop} (hpq : ∀ a b, R a b → (p a ↔ q b)) {xs : List α} {ys : List β}
    (h : List.Forall₂ R xs ys) : (∀ a ∈ xs, p a) ↔ ∀ b ∈ ys, q b := by
  induction h with
  | nil => simp
  | cons hab _ ih => rw [List.forall_mem_cons, List.forall_mem_cons, hpq _ _ hab, ih]

theorem allowed_check_of_not_blank (h : ¬ctx.Blank) :
    ((engine.check ctx).run s).1.allowed = true ↔
      ∀ call ∈ engine.calls ctx s, ∃ own, call.2 = .returned own ∧ own.decision ≠ .deny := by
  rw [allowed_check]
  refine (forall_mem_iff_of_forall₂ ?_ (engine.verdicts_of_not_blank s h)).symm
  intro call verdict hcomes
  exact hcomes.isDeny_iff.symm

theorem allowed_check_of_blank (h : ctx.Blank) :
    ((engine.check ctx).run s).1.allowed = true ↔ engine.enabledCount = 0 := by
  rw [allowed_check, ← length_enabledPolicies, List.length_eq_zero_iff,
    List.eq_nil_iff_forall_not_mem]
  refine (forall_mem_iff_of_forall₂ ?_ (engine.verdicts_of_blank s h)).symm
  intro policy verdict hdenies
  rw [hdenies.isDeny]
  exact ⟨False.elim, nofun⟩

end Engine

/-! ## Failing closed -/

/-- What a pass over a context comes to, from any surroundings: a verdict for each enabled policy,
which only the policies have a say in. -/
structure Engine.FailsClosed (engine : Engine σ) (ctx : Context) (s : σ) : Prop where
  length_verdicts : (engine.verdicts ctx s).length = engine.enabledCount
  /-- Each registered policy contributes at its place: a verdict of its own if it is enabled, and
  nothing if it is disabled. The verdicts of the pass are what is contributed, in that order. -/
  contributes : List.Forall₂ (fun entry verdict? => entry.Contributes ctx verdict?)
    engine.registrations (engine.contributions ctx s)
  verdicts_eq : engine.verdicts ctx s = (engine.contributions ctx s).reduceOption
  /-- The calls of a pass are one of each registered policy that is enabled, in order. -/
  policies_calls : (engine.calls ctx s).map Prod.fst =
    engine.registrations.flatMap fun entry => if entry.enabled then [entry.policy] else []
  /-- On a context with action and resource, each verdict is what the policy's call comes to. -/
  of_not_blank : ¬ctx.Blank → List.Forall₂ (fun call verdict => call.2.ComesTo call.1.id verdict)
    (engine.calls ctx s) (engine.verdicts ctx s)
  /-- On any other context, what a policy contributes is a denial that says what the context
  lacks. -/
  of_blank : ctx.Blank → ∃ fault, ctx.check = .error fault ∧
    fault.message = "invalid input: context " ++ ctx.blankField ++ " must not be empty" ∧
    List.Forall₂ (fun entry verdict? => ∀ verdict ∈ verdict?,
        verdict.Denies entry.policy.id "invalid context" fault.message)
      engine.registrations (engine.contributions ctx s)
  /-- A check shows the verdicts of the pass. -/
  verdicts_check : ((engine.check ctx).run s).1.verdicts = engine.verdicts ctx s
  /-- It allows what every enabled policy has returned a verdict on that is no denial. -/
  allowed_of_not_blank : ¬ctx.Blank → (((engine.check ctx).run s).1.allowed = true ↔
    ∀ call ∈ engine.calls ctx s, ∃ own, call.2 = .returned own ∧ own.decision ≠ .deny)
  /-- It allows a blank context only if no policy is enabled. -/
  allowed_of_blank : ctx.Blank →
    (((engine.check ctx).run s).1.allowed = true ↔ engine.enabledCount = 0)
  /-- Other hooks, from any surroundings, change no verdict as long as the calls end as they do. -/
  hooks_calls : ∀ (hooks : Hooks σ) (s' : σ),
    (engine.withHooks hooks).calls ctx s' = engine.calls ctx s →
      (engine.withHooks hooks).verdicts ctx s' = engine.verdicts ctx s
  /-- How hooks end changes nothing, whatever policies and hooks do to the surroundings. -/
  hooks_ending : ∀ hooks : Hooks σ, engine.hooks.SameEffects hooks →
    ((engine.withHooks hooks).evaluate ctx).run s = (engine.evaluate ctx).run s
  /-- Which hooks there are changes no verdict of policies whose calls end in one way. -/
  hooks_registered : (∀ entry ∈ engine.registrations, entry.enabled = true → ∃ ending, ∀ s,
      ((entry.policy.evaluate ctx).run s).1 = ending) →
    ∀ (hooks : Hooks σ) (s' : σ), (engine.withHooks hooks).verdicts ctx s' = engine.verdicts ctx s
  /-- And of other policies neither, as long as no hook touches what they depend on. On a blank
  context they are not asked. -/
  hooks_keeping : ∀ (τ : Type) (view : σ → τ) (hooks : Hooks σ) (s' : σ),
    engine.hooks.Keep view → hooks.Keep view →
    (¬ctx.Blank → ∀ entry ∈ engine.registrations, entry.enabled = true →
      entry.policy.DependsOn view ctx) →
    view s = view s' → (engine.withHooks hooks).verdicts ctx s' = engine.verdicts ctx s

theorem Engine.failsClosed (engine : Engine σ) (ctx : Context) (s : σ) :
    engine.FailsClosed ctx s where
  length_verdicts := length_verdicts engine ctx s
  contributes := engine.forall₂_contributes ctx s
  verdicts_eq := engine.verdicts_eq_reduceOption ctx s
  policies_calls := engine.map_fst_calls s
  of_not_blank h := engine.verdicts_of_not_blank s h
  of_blank h := ⟨_, Context.check_of_blank h, message_blankContextField _,
    engine.forall₂_contributions_of_blank s h⟩
  verdicts_check := rfl
  allowed_of_not_blank h := engine.allowed_check_of_not_blank s h
  allowed_of_blank h := engine.allowed_check_of_blank s h
  hooks_calls _ _ h := engine.verdicts_eq_of_calls_eq s h
  hooks_ending _ h := run_evaluate_congr engine h ctx s
  hooks_registered h hooks s' := by
    -- Every hook keeps the view that shows nothing.
    have hkeep : ∀ hooks : Hooks σ, hooks.Keep fun _ => () := fun _ =>
      ⟨fun _ _ _ _ => rfl, fun _ _ _ _ _ _ => rfl, fun _ _ _ _ _ _ => rfl⟩
    refine verdicts_congr (hkeep engine.hooks) (hkeep hooks) (fun _ policy hpolicy s s' _ => ?_) rfl
    obtain ⟨entry, hentry, henabled, rfl⟩ := mem_enabledPolicies.mp hpolicy
    obtain ⟨ending, hending⟩ := h entry hentry henabled
    exact ⟨(hending s).trans (hending s').symm, rfl⟩
  hooks_keeping _ _ _ _ hkeep hkeep' h hview := by
    refine verdicts_congr hkeep hkeep' (fun hblank policy hpolicy => ?_) hview
    obtain ⟨entry, hentry, henabled, rfl⟩ := mem_enabledPolicies.mp hpolicy
    exact h hblank entry hentry henabled

/-- Every engine that calls can set up has the policies that they registered, in that order, and
fails closed on every context. -/
theorem setUp_failsClosed (calls : List (SetupCall σ)) (ctx : Context) (s : σ) :
    (Engine.setUp calls).registrations = SetupCall.registered calls ∧
      (Engine.setUp calls).FailsClosed ctx s :=
  ⟨registrations_setUp calls, (Engine.setUp calls).failsClosed ctx s⟩

end ReleaseGate

import Mathlib.Data.List.ReduceOption
import ReleaseGate.Proofs.Policy.Pass

/-!
# Who contributes to a pass

The verdicts of a pass do not tell which registered policies they are from: several policies may
have one identifier, and a policy that is disabled leaves no gap. So a pass is followed here over
all registered policies. Each has its turn, and the turn of a disabled one comes to nothing.

* `Engine.contributions`: what the turn of each registered policy comes to, in order.
* `verdicts_eq_reduceOption`: the verdicts of a pass are these contributions and nothing else.
* `forall₂_contributes`: a policy contributes if it is enabled, and then a verdict of its own.
* `forall₂_contributions_of_blank`: on a blank context, it contributes a denial that says why.
* `contributes_of_getElem?`, `answers_of_getElem?`: what the policy at a place contributes.
-/

namespace ReleaseGate

variable {σ : Type}

/-- A verdict that a policy comes to on a context, in some surroundings. -/
def Policy.Answers (policy : Policy σ) (ctx : Context) (verdict : Verdict) : Prop :=
  ∃ s, ((Engine.verdictOf policy ctx).run s).1 = verdict

/-- What the turn of a registered policy comes to: a verdict of the policy if it is enabled, and
nothing otherwise. -/
structure Registration.Contributes (entry : Registration σ) (ctx : Context)
    (verdict? : Option Verdict) : Prop where
  isSome : verdict?.isSome = entry.enabled
  answers : ∀ verdict ∈ verdict?, entry.policy.Answers ctx verdict

namespace Engine

/-! ## Turns -/

/-- The turn of a registered policy, which is over at once if the policy is disabled. -/
def turn (hooks : Hooks σ) (ctx : Context) (entry : Registration σ) : StateM σ (Option Verdict) :=
  if entry.enabled then some <$> step hooks ctx entry.policy else pure none

/-- The turns of registered policies, in order. -/
def turns (hooks : Hooks σ) (ctx : Context) :
    List (Registration σ) → StateM σ (List (Option Verdict))
  | [] => pure []
  | entry :: rest => do
    let verdict? ← turn hooks ctx entry
    let verdicts ← turns hooks ctx rest
    return verdict? :: verdicts

section Turns

variable {hooks : Hooks σ} {ctx : Context} {entry : Registration σ}

theorem run_turn_of_enabled (h : entry.enabled = true) (s : σ) : (turn hooks ctx entry).run s =
    (some ((step hooks ctx entry.policy).run s).1, ((step hooks ctx entry.policy).run s).2) := by
  rw [turn, if_pos h]
  rfl

theorem run_turn_of_disabled (h : ¬entry.enabled = true) (s : σ) :
    (turn hooks ctx entry).run s = (none, s) := by
  rw [turn, if_neg h]
  rfl

theorem run_turns_cons (entry : Registration σ) (rest : List (Registration σ)) (s : σ) :
    (turns hooks ctx (entry :: rest)).run s =
      (((turn hooks ctx entry).run s).1 ::
          ((turns hooks ctx rest).run ((turn hooks ctx entry).run s).2).1,
        ((turns hooks ctx rest).run ((turn hooks ctx entry).run s).2).2) := rfl

/-- A turn comes to what its policy contributes. -/
theorem contributes_turn (entry : Registration σ) (s : σ) :
    entry.Contributes ctx ((turn hooks ctx entry).run s).1 := by
  by_cases h : entry.enabled = true
  · rw [run_turn_of_enabled h, run_step]
    refine ⟨h.symm, fun verdict hverdict => ?_⟩
    obtain rfl := Option.some.inj hverdict
    exact ⟨s, rfl⟩
  · rw [run_turn_of_disabled h]
    exact ⟨(Bool.eq_false_iff.mpr h).symm, nofun⟩

/-- On a context that is not valid, a turn comes to nothing but a denial. -/
theorem denies_turn {fault : Fault} (h : ctx.check = .error fault) (entry : Registration σ)
    (s : σ) : ∀ verdict ∈ ((turn hooks ctx entry).run s).1,
      verdict.Denies entry.policy.id "invalid context" fault.message := by
  intro verdict hverdict
  by_cases henabled : entry.enabled = true
  · rw [run_turn_of_enabled henabled, run_step, run_verdictOf_of_error h] at hverdict
    obtain rfl := Option.some.inj hverdict
    exact denies_denial _ _ _
  · rw [run_turn_of_disabled henabled] at hverdict
    cases hverdict

/-- What holds of every turn from any surroundings holds of all turns of a pass. -/
theorem forall₂_turns {R : Registration σ → Option Verdict → Prop}
    (h : ∀ entry s, R entry ((turn hooks ctx entry).run s).1) (entries : List (Registration σ))
    (s : σ) : List.Forall₂ R entries ((turns hooks ctx entries).run s).1 := by
  induction entries generalizing s with
  | nil => exact .nil
  | cons entry rest ih => exact .cons (h entry s) (ih _)

/-- The turns of all policies are the steps of those that are enabled. -/
theorem run_steps_enabled (entries : List (Registration σ)) (s : σ) :
    (steps hooks ctx ((entries.filter (·.enabled)).map (·.policy))).run s =
      (((turns hooks ctx entries).run s).1.reduceOption, ((turns hooks ctx entries).run s).2) := by
  induction entries generalizing s with
  | nil => rfl
  | cons entry rest ih =>
    rw [run_turns_cons]
    by_cases h : entry.enabled = true
    · rw [List.filter_cons_of_pos h, List.map_cons, run_steps_cons, ih, run_turn_of_enabled h,
        List.reduceOption_cons_of_some]
    · rw [List.filter_cons_of_neg h, ih, run_turn_of_disabled h, List.reduceOption_cons_of_none]

/-- Policies whose verdicts do not depend on the surroundings contribute these verdicts. -/
theorem run_turns_of_fixed {entries : List (Registration σ)} {answer : Registration σ → Verdict}
    (h : ∀ entry ∈ entries, entry.enabled = true →
      ∀ s, ((verdictOf entry.policy ctx).run s).1 = answer entry) (s : σ) :
    ((turns hooks ctx entries).run s).1 =
      entries.map fun entry => if entry.enabled then some (answer entry) else none := by
  induction entries generalizing s with
  | nil => rfl
  | cons entry rest ih =>
    obtain ⟨hentry, hrest⟩ := List.forall_mem_cons.mp h
    rw [run_turns_cons, List.map_cons, ih hrest]
    by_cases henabled : entry.enabled = true
    · rw [run_turn_of_enabled henabled, run_step, hentry henabled, if_pos henabled]
    · rw [run_turn_of_disabled henabled, if_neg henabled]

end Turns

/-! ## Contributions -/

/-- What each registered policy contributes to a pass, in the order of registration. -/
def contributions (engine : Engine σ) (ctx : Context) (s : σ) : List (Option Verdict) :=
  ((turns engine.hooks ctx engine.registrations).run (engine.entered ctx s)).1

variable (engine : Engine σ) (ctx : Context) (s : σ)

/-- The policies of a pass come to what the turns of all policies come to. -/
theorem passed_eq : engine.passed ctx s = ((engine.contributions ctx s).reduceOption,
    ((turns engine.hooks ctx engine.registrations).run (engine.entered ctx s)).2) := by
  rw [passed, enabledPolicies, run_steps_enabled, contributions]

/-- The verdicts of a pass are the contributions of the policies, in the same order. -/
theorem verdicts_eq_reduceOption :
    engine.verdicts ctx s = (engine.contributions ctx s).reduceOption := by
  rw [verdicts_eq, passed_eq]

/-- Every registered policy contributes exactly if it is enabled. -/
theorem forall₂_contributes :
    List.Forall₂ (fun entry verdict? => entry.Contributes ctx verdict?) engine.registrations
      (engine.contributions ctx s) :=
  forall₂_turns contributes_turn _ _

/-- On a blank context, what a policy contributes is a denial that says what the context lacks. -/
theorem forall₂_contributions_of_blank {ctx : Context} (h : ctx.Blank) :
    List.Forall₂ (fun entry verdict? => ∀ verdict ∈ verdict?,
        verdict.Denies entry.policy.id "invalid context"
          (Fault.invalidInput (.blankContextField ctx.blankField)).message)
      engine.registrations (engine.contributions ctx s) :=
  forall₂_turns (denies_turn (Context.check_of_blank h)) _ _

/-- What the policy at a place contributes. -/
theorem contributes_of_getElem? {engine : Engine σ} {place : Nat} {entry : Registration σ}
    (h : engine.registrations[place]? = some entry) (ctx : Context) (s : σ) :
    ∃ verdict?, (engine.contributions ctx s)[place]? = some verdict? ∧
      entry.Contributes ctx verdict? := by
  obtain ⟨hlt, rfl⟩ := List.getElem?_eq_some_iff.mp h
  have hall := engine.forall₂_contributes ctx s
  exact ⟨_, List.getElem?_eq_getElem (hall.length_eq ▸ hlt), hall.get hlt _⟩

/-- What a policy contributes is a verdict of its own. -/
theorem answers_of_getElem? {engine : Engine σ} {ctx : Context} {s : σ} {place : Nat}
    {verdict : Verdict} (h : (engine.contributions ctx s)[place]? = some (some verdict)) :
    ∃ entry, engine.registrations[place]? = some entry ∧ entry.policy.Answers ctx verdict := by
  obtain ⟨hlt, -⟩ := List.getElem?_eq_some_iff.mp h
  rw [← (engine.forall₂_contributes ctx s).length_eq] at hlt
  have hentry := List.getElem?_eq_getElem hlt
  obtain ⟨verdict?, hat, hcontributes⟩ := contributes_of_getElem? hentry ctx s
  obtain rfl := Option.some.inj (h.symm.trans hat)
  exact ⟨_, hentry, hcontributes.answers verdict rfl⟩

end Engine

end ReleaseGate

import ReleaseGate.Proofs.Arrangement
import ReleaseGate.Proofs.Policy.Enablement
import ReleaseGate.Proofs.Policy.HookIndependence
import ReleaseGate.Time.Epoch

/-!
# Rules only tighten

A denial blocks, whichever policy it is from, and nothing takes it back. So if policies depend on
nothing but the context, their order does not matter to what is allowed, more policies never allow
more, and fewer policies never allow less. What is added may depend on whatever it likes.

* `Policy.Steady`: a policy that depends on nothing but the context.
* `Outcome.Tighter`, `tighter_of_sublist`: more verdicts make a tighter outcome.
* `verdicts_sublist`: an engine with more policies has more verdicts.
* `enabledPolicies_sublist_of_adds`, `enabledPolicies_sublist_of_disables`: what calls do to them.
* `check_tightens`: how a check changes when policies are reordered, added and disabled.
-/

namespace ReleaseGate

variable {σ : Type}

/-! ## Steady policies -/

/-- A policy whose call on a context ends in one way, whatever the surroundings are. -/
def Policy.Steady (policy : Policy σ) (ctx : Context) : Prop :=
  ∃ ending, ∀ s, ((policy.evaluate ctx).run s).1 = ending

theorem Policy.Steady.verdictOf {policy : Policy σ} {ctx : Context} (h : policy.Steady ctx)
    (s s' : σ) :
    ((Engine.verdictOf policy ctx).run s).1 = ((Engine.verdictOf policy ctx).run s').1 := by
  obtain ⟨ending, hending⟩ := h
  have hdepends : policy.DependsOn (fun _ => ()) ctx := by
    intro s s' _
    exact ⟨(hending s).trans (hending s').symm, rfl⟩
  exact (Engine.verdictOf_congr (fun _ => hdepends) rfl).1

/-! ## Outcomes -/

/-- An outcome that is at least as strict as another one: it allows nothing that the other denies,
and escalates everything that the other escalates. -/
structure Outcome.Tighter (o o' : Outcome) : Prop where
  allowed : o.allowed = true → o'.allowed = true
  requiresEscalation : o'.requiresEscalation = true → o.requiresEscalation = true

/-- More verdicts make a tighter outcome. -/
theorem tighter_of_sublist {verdicts verdicts' : List Verdict} (h : verdicts.Sublist verdicts') :
    (Outcome.ofVerdicts verdicts').Tighter (.ofVerdicts verdicts) := by
  constructor
  · simp only [Outcome.allowed_ofVerdicts]
    exact fun hall verdict hverdict => hall verdict (h.subset hverdict)
  · simp only [Outcome.requiresEscalation, Outcome.ofVerdicts, List.any_eq_true]
    rintro ⟨verdict, hverdict, hescalate⟩
    exact ⟨verdict, h.subset hverdict, hescalate⟩

/-- The order of verdicts does not matter to what they come to. -/
theorem ofVerdicts_perm {verdicts verdicts' : List Verdict} (h : verdicts.Perm verdicts') :
    (Outcome.ofVerdicts verdicts).allowed = (Outcome.ofVerdicts verdicts').allowed ∧
      (Outcome.ofVerdicts verdicts).requiresEscalation =
        (Outcome.ofVerdicts verdicts').requiresEscalation :=
  ⟨congrArg not h.any_eq, h.any_eq⟩

namespace Engine

/-! ## More policies -/

/-- The verdicts of some policies are among those of more policies, whatever these depend on. -/
theorem sublist_run_steps {ctx : Context} {policies policies' : List (Policy σ)}
    {answer : Policy σ → Verdict} (hsub : policies.Sublist policies')
    (h : ∀ policy ∈ policies, ∀ s, ((verdictOf policy ctx).run s).1 = answer policy)
    (hooks : Hooks σ) (s : σ) :
    (policies.map answer).Sublist ((steps hooks ctx policies').run s).1 := by
  induction hsub generalizing s with
  | slnil => exact .slnil
  | cons policy _ ih =>
    rw [run_steps_cons]
    exact (ih h _).cons _
  | cons_cons policy _ ih =>
    obtain ⟨hpolicy, hrest⟩ := List.forall_mem_cons.mp h
    rw [run_steps_cons, List.map_cons, run_step, hpolicy s]
    exact (ih hrest _).cons_cons _

/-- An engine with more policies that take part has more verdicts. -/
theorem verdicts_sublist {engine engine' : Engine σ} {ctx : Context}
    (hsub : engine.enabledPolicies.Sublist engine'.enabledPolicies)
    (h : ∀ policy ∈ engine.enabledPolicies, policy.Steady ctx) (s s' : σ) :
    (engine.verdicts ctx s).Sublist (engine'.verdicts ctx s') := by
  have hfixed : ∀ policy ∈ engine.enabledPolicies, ∀ s₁,
      ((verdictOf policy ctx).run s₁).1 = ((verdictOf policy ctx).run s).1 :=
    fun policy hpolicy s₁ => (h policy hpolicy).verdictOf s₁ s
  rw [verdicts_eq, verdicts_eq, passed, run_steps_of_fixed hfixed]
  exact sublist_run_steps hsub hfixed _ _

/-! ## Other orders -/

/-- Steady policies contribute to every pass what they say to one of them. -/
theorem contributions_of_steady {engine : Engine σ} {ctx : Context}
    (h : ∀ policy ∈ engine.enabledPolicies, policy.Steady ctx) (s s' : σ) :
    engine.contributions ctx s' = engine.registrations.map fun entry =>
      if entry.enabled then some ((verdictOf entry.policy ctx).run s).1 else none := by
  have hfixed : ∀ entry ∈ engine.registrations, entry.enabled = true → ∀ s₁,
      ((verdictOf entry.policy ctx).run s₁).1 = ((verdictOf entry.policy ctx).run s).1 := by
    intro entry hentry henabled s₁
    have hpolicy : entry.policy ∈ engine.enabledPolicies :=
      mem_enabledPolicies.mpr ⟨entry, hentry, henabled, rfl⟩
    exact (h entry.policy hpolicy).verdictOf s₁ s
  exact run_turns_of_fixed hfixed _

/-- The engine with its policies in another order, and any hooks. -/
def rearranged (engine : Engine σ) (order : List Nat) (hooks : Hooks σ) : Engine σ :=
  ⟨arrange order engine.registrations, hooks⟩

/-- Steady policies contribute the same in every order. -/
theorem contributions_rearranged {engine : Engine σ} {ctx : Context}
    (h : ∀ policy ∈ engine.enabledPolicies, policy.Steady ctx) {order : List Nat}
    (horder : order.Perm (List.range engine.size)) (hooks : Hooks σ) (s s' : σ) :
    (engine.rearranged order hooks).contributions ctx s' =
      arrange order (engine.contributions ctx s) := by
  have hperm : (engine.rearranged order hooks).enabledPolicies.Perm engine.enabledPolicies :=
    ((arrange_perm horder).filter _).map _
  have hsteady : ∀ policy ∈ (engine.rearranged order hooks).enabledPolicies, policy.Steady ctx :=
    fun policy hpolicy => h policy (hperm.mem_iff.mp hpolicy)
  rw [contributions_of_steady hsteady s, contributions_of_steady h s, arrange_map]
  rfl

end Engine

/-! ## What calls do -/

namespace SetupCall

/-- A call that registers a policy, subscribes a hook or enables policies. -/
def Adds : SetupCall σ → Prop
  | register _ => True
  | subscribe _ => True
  | setEnabled _ enabled => enabled = true

/-- A call that disables policies. -/
def Disables : SetupCall σ → Prop
  | setEnabled _ enabled => enabled = false
  | _ => False

variable {calls : List (SetupCall σ)}

/-- The last word of calls on an identifier was said by one of them. -/
theorem exists_mem_of_switch? {id : String} {enabled : Bool}
    (h : switch? id calls = some enabled) : setEnabled id enabled ∈ calls := by
  obtain ⟨earlier, later, rfl, -⟩ := ((switch?_spec id calls).2 enabled).mp h
  simp

/-- Calls that add leave every enabled policy enabled. -/
theorem enabled_switched_of_adds (h : ∀ call ∈ calls, call.Adds) {entry : Registration σ}
    (henabled : entry.enabled = true) : (switched calls entry).enabled = true := by
  cases hswitch : switch? entry.policy.id calls with
  | none => simp [switched, hswitch, henabled]
  | some enabled =>
    have hadds : enabled = true := h _ (exists_mem_of_switch? hswitch)
    simp [switched, hswitch, hadds]

/-- Calls that disable enable no policy. -/
theorem enabled_of_switched_of_disables (h : ∀ call ∈ calls, call.Disables)
    {entry : Registration σ} (henabled : (switched calls entry).enabled = true) :
    entry.enabled = true := by
  cases hswitch : switch? entry.policy.id calls with
  | none => simpa [switched, hswitch] using henabled
  | some enabled =>
    have hdisables : enabled = false := h _ (exists_mem_of_switch? hswitch)
    simp [switched, hswitch, hdisables] at henabled

/-- Calls that disable register nothing. -/
theorem registered_of_disables (h : ∀ call ∈ calls, call.Disables) : registered calls = [] := by
  induction calls with
  | nil => rfl
  | cons call rest ih =>
    obtain ⟨hcall, hrest⟩ := List.forall_mem_cons.mp h
    cases call with
    | register policy => exact hcall.elim
    | setEnabled id enabled => exact ih hrest
    | subscribe hook => exact hcall.elim

/-- The policies that take part after calls: those there were, as the calls left them, and those
that the calls registered. -/
theorem enabledPolicies_foldl (engine : Engine σ) (calls : List (SetupCall σ)) :
    (calls.foldl apply engine).enabledPolicies =
      (engine.registrations.filter fun entry => (switched calls entry).enabled).map (·.policy) ++
        ((registered calls).filter (·.enabled)).map (·.policy) := by
  rw [Engine.enabledPolicies, registrations_foldl, List.filter_append, List.map_append,
    List.filter_map, List.map_map]
  rfl

theorem enabledPolicies_sublist_of_adds (engine : Engine σ) (h : ∀ call ∈ calls, call.Adds) :
    engine.enabledPolicies.Sublist (calls.foldl apply engine).enabledPolicies := by
  rw [enabledPolicies_foldl]
  refine List.Sublist.trans (List.Sublist.map _ ?_) (List.sublist_append_left _ _)
  exact List.monotone_filter_right _ fun entry henabled => enabled_switched_of_adds h henabled

theorem enabledPolicies_sublist_of_disables (engine : Engine σ)
    (h : ∀ call ∈ calls, call.Disables) :
    (calls.foldl apply engine).enabledPolicies.Sublist engine.enabledPolicies := by
  rw [enabledPolicies_foldl, registered_of_disables h, List.filter_nil, List.map_nil,
    List.append_nil]
  refine List.Sublist.map _ (List.monotone_filter_right _ fun entry henabled => ?_)
  exact enabled_of_switched_of_disables h henabled

end SetupCall

/-! ## Checks -/

/-- How a check of a context changes with the policies of an engine. Hooks and surroundings may
change with them in any way. -/
structure Engine.Tightens (engine : Engine σ) (ctx : Context) (s : σ) : Prop where
  /-- With its policies in another order, the engine has the same verdicts in that order. -/
  verdicts_rearranged : ∀ order : List Nat, order.Perm (List.range engine.size) →
    ∀ (hooks : Hooks σ) (s' : σ),
      (((engine.rearranged order hooks).check ctx).run s').1.verdicts =
        (arrange order (engine.contributions ctx s)).reduceOption ∧
      (((engine.rearranged order hooks).check ctx).run s').1.verdicts.Perm
        ((engine.check ctx).run s).1.verdicts
  /-- So they come to the same. -/
  outcome_rearranged : ∀ order : List Nat, order.Perm (List.range engine.size) →
    ∀ (hooks : Hooks σ) (s' : σ),
      (((engine.rearranged order hooks).check ctx).run s').1.allowed =
        ((engine.check ctx).run s).1.allowed ∧
      (((engine.rearranged order hooks).check ctx).run s').1.requiresEscalation =
        ((engine.check ctx).run s).1.requiresEscalation
  /-- Registering, subscribing and enabling allow nothing new, and take no escalation back. -/
  added : ∀ calls : List (SetupCall σ), (∀ call ∈ calls, call.Adds) → ∀ s' : σ,
    (((calls.foldl SetupCall.apply engine).check ctx).run s').1.Tighter
      ((engine.check ctx).run s).1
  /-- Disabling denies nothing new, and escalates nothing new. -/
  disabled : ∀ calls : List (SetupCall σ), (∀ call ∈ calls, call.Disables) → ∀ s' : σ,
    ((engine.check ctx).run s).1.Tighter
      (((calls.foldl SetupCall.apply engine).check ctx).run s').1

/-- If the policies that take part depend on nothing but the context, a check is blind to their
order and only tightens as policies are added. -/
theorem check_tightens {engine : Engine σ} {ctx : Context}
    (h : ∀ policy ∈ engine.enabledPolicies, policy.Steady ctx) (s : σ) :
    engine.Tightens ctx s := by
  have hverdicts : ∀ (order : List Nat) (hooks : Hooks σ) (s' : σ),
      order.Perm (List.range engine.size) →
      (engine.rearranged order hooks).verdicts ctx s' =
        (arrange order (engine.contributions ctx s)).reduceOption := by
    intro order hooks s' horder
    rw [Engine.verdicts_eq_reduceOption, Engine.contributions_rearranged h horder hooks s]
  have hperm : ∀ (order : List Nat) (hooks : Hooks σ) (s' : σ),
      order.Perm (List.range engine.size) →
      ((engine.rearranged order hooks).verdicts ctx s').Perm (engine.verdicts ctx s) := by
    intro order hooks s' horder
    have hlength : (engine.contributions ctx s).length = engine.size :=
      (engine.forall₂_contributes ctx s).length_eq.symm
    rw [hverdicts order hooks s' horder, Engine.verdicts_eq_reduceOption]
    exact (arrange_perm (hlength.symm ▸ horder)).filterMap id
  constructor
  case verdicts_rearranged =>
    exact fun order horder hooks s' =>
      ⟨hverdicts order hooks s' horder, hperm order hooks s' horder⟩
  case outcome_rearranged =>
    exact fun order horder hooks s' => ofVerdicts_perm (hperm order hooks s' horder)
  case added =>
    intro calls hcalls s'
    have hsub := SetupCall.enabledPolicies_sublist_of_adds engine hcalls
    exact tighter_of_sublist (Engine.verdicts_sublist hsub h s s')
  case disabled =>
    intro calls hcalls s'
    have hsub := SetupCall.enabledPolicies_sublist_of_disables engine hcalls
    have hsteady : ∀ policy ∈ (calls.foldl SetupCall.apply engine).enabledPolicies,
        policy.Steady ctx := fun policy hpolicy => h policy (hsub.subset hpolicy)
    exact tighter_of_sublist (Engine.verdicts_sublist hsub hsteady s' s)

/-- An engine with a policy that asks for a person and counts how often it was called, one that
crashes, and a disabled one that fails and has the identifier of the one that crashes. -/
def countingEngine : Engine Nat := .setUp
  [.register ⟨"broken", .security, fun _ => pure (.failed (.unknownPolicy "broken"))⟩,
    .register ⟨"review", .governance, fun _ calls => (.returned
      { decision := .defer, policyId := "review", reason := "held", requiresEscalation := true },
      calls + 1)⟩,
    .setEnabled "broken" false,
    .register ⟨"broken", .security, fun _ => pure (.crashed .other)⟩]

/-- A request to deploy. -/
def deployment : Context :=
  { actor := "ci", action := "deploy", resource := "repository", timestamp := .ofClock 0 }

theorem check_tightens_countingEngine :
    (∀ policy ∈ countingEngine.enabledPolicies, policy.Steady deployment) ∧
      countingEngine.Tightens deployment 0 := by
  have hsteady : ∀ policy ∈ countingEngine.enabledPolicies, policy.Steady deployment := by
    intro policy hpolicy
    rw [Engine.enabledPolicies, countingEngine, registrations_setUp] at hpolicy
    simp [SetupCall.registered, SetupCall.switch?] at hpolicy
    rcases hpolicy with rfl | rfl <;> exact ⟨_, fun _ => rfl⟩
  exact ⟨hsteady, check_tightens hsteady 0⟩

end ReleaseGate

import Mathlib.Data.List.Induction
import ReleaseGate.Proofs.Policy.HookIndependence
import ReleaseGate.Proofs.Policy.Setup

/-!
# The calls of a pass

What a pass calls does not show in its verdicts: a hook that is left out, called twice or called
late changes none of them. So the calls are noted here as they are made, in surroundings that keep a
list of them beside the surroundings proper. Noting changes nothing else about a pass.

* `Engine.noted`: the engine that notes every call that a pass makes of a policy or of a hook.
* `Engine.schedule`: the calls of a pass, from what the turn of each registered policy comes to.
* `run_evaluate_noted`: a pass makes exactly these calls, in this order.
* `SetupCall.subscribed`, `hooks_setUp`: hooks stand in the order in which they were subscribed.
* `setUp_keepsSchedule`: all of this of every engine that calls can set up.
-/

namespace ReleaseGate

variable {σ : Type}

/-! ## Noting calls -/

/-- A call that a pass makes. A hook is known by its place among the hooks of its event. -/
inductive PassCall (σ : Type) where
  | preEvaluate (hook : Nat) (ctx : Context)
  | evaluate (policy : Policy σ) (ctx : Context)
  | onDeny (hook : Nat) (policy : Policy σ) (ctx : Context) (verdict : Verdict)
  | onEscalationRequired (hook : Nat) (policy : Policy σ) (ctx : Context) (verdict : Verdict)
  | postEvaluate (hook : Nat) (ctx : Context) (verdicts : List Verdict)

/-- Surroundings, and the calls that were made in them so far. -/
structure Noted (σ : Type) where
  current : σ
  calls : List (PassCall σ)

/-- A call that is noted when it is made. -/
def noting {α : Type} (entry : PassCall σ) (call : StateM σ α) : StateM (Noted σ) α := fun s =>
  ((call.run s.current).1, ⟨(call.run s.current).2, s.calls ++ [entry]⟩)

theorem run_noting {α : Type} (entry : PassCall σ) (call : StateM σ α) (s : Noted σ) :
    (noting entry call).run s =
      ((call.run s.current).1, ⟨(call.run s.current).2, s.calls ++ [entry]⟩) := rfl

/-- A policy whose calls are noted. -/
def Policy.noted (policy : Policy σ) : Policy (Noted σ) :=
  ⟨policy.id, policy.category, fun ctx => noting (.evaluate policy ctx) (policy.evaluate ctx)⟩

/-- The policy without the notes. Hooks get this one: if a hook calls the policy that it is told
about, that is no call of the pass. -/
def Policy.plain (policy : Policy (Noted σ)) : Policy σ :=
  ⟨policy.id, policy.category, fun ctx s =>
    (((policy.evaluate ctx).run ⟨s, []⟩).1, ((policy.evaluate ctx).run ⟨s, []⟩).2.current)⟩

@[simp] theorem Policy.plain_noted (policy : Policy σ) : policy.noted.plain = policy := rfl

/-- Hooks whose calls are noted, each with its place among those of its event. -/
def Hooks.noted (hooks : Hooks σ) : Hooks (Noted σ) where
  preEvaluate := hooks.preEvaluate.zipIdx.map fun slot ctx =>
    noting (.preEvaluate slot.2 ctx) (slot.1 ctx)
  postEvaluate := hooks.postEvaluate.zipIdx.map fun slot ctx verdicts =>
    noting (.postEvaluate slot.2 ctx verdicts) (slot.1 ctx verdicts)
  onDeny := hooks.onDeny.zipIdx.map fun slot policy ctx verdict =>
    noting (.onDeny slot.2 policy.plain ctx verdict) (slot.1 policy.plain ctx verdict)
  onEscalationRequired := hooks.onEscalationRequired.zipIdx.map fun slot policy ctx verdict =>
    noting (.onEscalationRequired slot.2 policy.plain ctx verdict) (slot.1 policy.plain ctx verdict)

/-- A registered policy whose calls are noted. -/
def Registration.noted (entry : Registration σ) : Registration (Noted σ) :=
  ⟨entry.policy.noted, entry.enabled⟩

/-- The engine whose passes note the calls that they make. -/
def Engine.noted (engine : Engine σ) : Engine (Noted σ) where
  registrations := engine.registrations.map Registration.noted
  hooks := engine.hooks.noted

/-! ## The schedule -/

instance (ctx : Context) : Decidable ctx.Blank := inferInstanceAs (Decidable (_ ∨ _))

/-- The calls of all hooks of an event, in the order of their places. -/
def callEach (count : Nat) (entry : Nat → PassCall σ) : List (PassCall σ) :=
  (List.range count).map entry

/-- The calls that a verdict leads to: of the hooks on denials if it is one, and then of the hooks
on escalations if it asks for one. -/
def Hooks.reactions (hooks : Hooks σ) (ctx : Context) (policy : Policy σ) (verdict : Verdict) :
    List (PassCall σ) :=
  (if verdict.decision = .deny then
    callEach hooks.onDeny.length fun i => .onDeny i policy ctx verdict
  else []) ++
  if verdict.requiresEscalation then
    callEach hooks.onEscalationRequired.length fun i => .onEscalationRequired i policy ctx verdict
  else []

/-- The calls of the turn of a registered policy, which comes to a verdict or to nothing. First an
enabled policy itself is called, unless the context is blank. Then come the hooks that its verdict
concerns. For a disabled policy nothing is called. -/
def Hooks.turn (hooks : Hooks σ) (ctx : Context) (entry : Registration σ)
    (verdict? : Option Verdict) : List (PassCall σ) :=
  if entry.enabled then
    (if ctx.Blank then [] else [.evaluate entry.policy ctx]) ++
      verdict?.elim [] (hooks.reactions ctx entry.policy)
  else []

/-- The calls of a pass over a context, if the turns of the registered policies come to what is
given, place by place. -/
def Engine.schedule (engine : Engine σ) (ctx : Context) (contributions : List (Option Verdict)) :
    List (PassCall σ) :=
  callEach engine.hooks.preEvaluate.length (fun i => .preEvaluate i ctx) ++
    (engine.registrations.zip contributions).flatMap
      (fun (entry, verdict?) => engine.hooks.turn ctx entry verdict?) ++
    callEach engine.hooks.postEvaluate.length
      fun i => .postEvaluate i ctx contributions.reduceOption

/-! ## Passes keep the schedule -/

/-- Hooks whose calls are noted do what they do, and leave their notes in order. -/
theorem afterHooks_noting {α : Type} (entry : Nat → PassCall σ)
    (call : α → StateM σ (Ending Unit)) (runs : List α) (s : Noted σ) :
    afterHooks (runs.zipIdx.map fun slot => noting (entry slot.2) (call slot.1)) s =
      ⟨afterHooks (runs.map call) s.current, s.calls ++ callEach runs.length entry⟩ := by
  induction runs using List.reverseRecOn with
  | nil => simp [afterHooks, callEach]
  | append_singleton runs last ih =>
    rw [List.zipIdx_append, List.map_append, afterHooks_append, ih, List.map_append,
      afterHooks_append]
    simp [afterHooks, run_noting, callEach, List.range_succ]

namespace Engine

/-- A policy whose calls are noted comes to the same verdict. It is called once, and not at all on
a blank context. -/
theorem run_verdictOf_noted (ctx : Context) (policy : Policy σ) (s : Noted σ) :
    (verdictOf policy.noted ctx).run s =
      (((verdictOf policy ctx).run s.current).1, ⟨((verdictOf policy ctx).run s.current).2,
        s.calls ++ if ctx.Blank then [] else [.evaluate policy ctx]⟩) := by
  by_cases hblank : ctx.Blank
  · have hcheck := Context.check_of_blank hblank
    rw [run_verdictOf_of_error hcheck, run_verdictOf_of_error hcheck, if_pos hblank,
      List.append_nil]
    rfl
  · have hcheck := Context.check_of_not_blank hblank
    obtain ⟨verdict, hcomes, hrun⟩ := run_verdictOf hcheck policy s.current
    obtain ⟨noted, hnoted, hrunNoted⟩ := run_verdictOf hcheck policy.noted s
    have hsame : noted = verdict := Ending.ComesTo.unique hnoted hcomes
    rw [hrun, hrunNoted, if_neg hblank, hsame]
    rfl

/-- The hooks that a verdict concerns are called one by one, with that policy and that verdict. -/
theorem afterHooks_concerned_noted (hooks : Hooks σ) (ctx : Context) (policy : Policy σ)
    (verdict : Verdict) (s : Noted σ) :
    afterHooks (hooks.noted.concerned ctx policy.noted verdict) s =
      ⟨afterHooks (hooks.concerned ctx policy verdict) s.current,
        s.calls ++ hooks.reactions ctx policy verdict⟩ := by
  have hdeny : ∀ s, afterHooks (hooks.noted.onDeny.map fun run => run policy.noted ctx verdict) s =
      ⟨afterHooks (hooks.onDeny.map fun run => run policy ctx verdict) s.current, s.calls ++
        callEach hooks.onDeny.length fun i => .onDeny i policy ctx verdict⟩ := by
    intro s
    rw [Hooks.noted, List.map_map]
    exact afterHooks_noting (fun i => .onDeny i policy ctx verdict)
      (fun run : VerdictHook σ => run policy ctx verdict) hooks.onDeny s
  have hescalate : ∀ s, afterHooks
      (hooks.noted.onEscalationRequired.map fun run => run policy.noted ctx verdict) s =
        ⟨afterHooks (hooks.onEscalationRequired.map fun run => run policy ctx verdict) s.current,
          s.calls ++ callEach hooks.onEscalationRequired.length fun i =>
            .onEscalationRequired i policy ctx verdict⟩ := by
    intro s
    rw [Hooks.noted, List.map_map]
    exact afterHooks_noting (fun i => .onEscalationRequired i policy ctx verdict)
      (fun run : VerdictHook σ => run policy ctx verdict) hooks.onEscalationRequired s
  rw [Hooks.concerned, Hooks.concerned, afterHooks_append, afterHooks_append, Hooks.reactions]
  simp only [Verdict.isDeny, decide_eq_true_eq]
  by_cases hd : verdict.decision = .deny
  · rw [if_pos hd, if_pos hd, if_pos hd, hdeny]
    by_cases he : verdict.requiresEscalation = true
    · rw [if_pos he, if_pos he, if_pos he, hescalate, List.append_assoc]
    · simp [he, afterHooks]
  · by_cases he : verdict.requiresEscalation = true
    · simpa [hd, he, afterHooks] using hescalate s
    · simp [hd, he, afterHooks]

/-- The turn of a registered policy. -/
theorem run_turn_noted (hooks : Hooks σ) (ctx : Context) (entry : Registration σ) (s : Noted σ) :
    (turn hooks.noted ctx entry.noted).run s =
      (((turn hooks ctx entry).run s.current).1, ⟨((turn hooks ctx entry).run s.current).2,
        s.calls ++ hooks.turn ctx entry ((turn hooks ctx entry).run s.current).1⟩) := by
  by_cases henabled : entry.enabled = true
  · have hnoted : entry.noted.enabled = true := henabled
    rw [run_turn_of_enabled hnoted, run_turn_of_enabled henabled, Hooks.turn, if_pos henabled,
      Option.elim_some, Registration.noted, run_step, run_verdictOf_noted, run_step,
      afterHooks_concerned_noted, List.append_assoc]
  · have hnoted : ¬entry.noted.enabled = true := henabled
    rw [run_turn_of_disabled hnoted, run_turn_of_disabled henabled, Hooks.turn, if_neg henabled,
      List.append_nil]

/-- The turns of all registered policies, one after the other. -/
theorem run_turns_noted (hooks : Hooks σ) (ctx : Context) (entries : List (Registration σ))
    (s : Noted σ) : (turns hooks.noted ctx (entries.map Registration.noted)).run s =
      (((turns hooks ctx entries).run s.current).1,
        ⟨((turns hooks ctx entries).run s.current).2,
          s.calls ++ (entries.zip ((turns hooks ctx entries).run s.current).1).flatMap
            fun (entry, verdict?) => hooks.turn ctx entry verdict?⟩) := by
  induction entries generalizing s with
  | nil =>
    rw [List.map_nil, List.zip_nil_left, List.flatMap_nil, List.append_nil]
    rfl
  | cons entry rest ih =>
    rw [List.map_cons, run_turns_cons, run_turn_noted, ih, run_turns_cons, List.zip_cons_cons,
      List.flatMap_cons, List.append_assoc]

/-- The calls before the first policy. -/
theorem entered_noted (engine : Engine σ) (ctx : Context) (s : Noted σ) :
    engine.noted.entered ctx s = ⟨engine.entered ctx s.current, s.calls ++
      callEach engine.hooks.preEvaluate.length fun i => .preEvaluate i ctx⟩ := by
  rw [entered, noted, Hooks.noted, List.map_map]
  exact afterHooks_noting (fun i => .preEvaluate i ctx)
    (fun run : Context → StateM σ (Ending Unit) => run ctx) engine.hooks.preEvaluate s

/-- The calls before the last policy is done with, and what the policies come to. -/
theorem passed_noted (engine : Engine σ) (ctx : Context) (s : Noted σ) :
    engine.noted.passed ctx s = ((engine.passed ctx s.current).1,
      ⟨(engine.passed ctx s.current).2, s.calls ++
        callEach engine.hooks.preEvaluate.length (fun i => .preEvaluate i ctx) ++
        (engine.registrations.zip (engine.contributions ctx s.current)).flatMap
          fun (entry, verdict?) => engine.hooks.turn ctx entry verdict?⟩) := by
  have hturns := run_turns_noted engine.hooks ctx engine.registrations (engine.noted.entered ctx s)
  rw [entered_noted] at hturns
  have hcontributions : engine.noted.contributions ctx s = engine.contributions ctx s.current := by
    rw [contributions, entered_noted]
    exact congrArg Prod.fst hturns
  rw [passed_eq, passed_eq, hcontributions, entered_noted]
  exact congrArg (Prod.mk _) (congrArg Prod.snd hturns)

/-- A pass comes to what it comes to without notes, and it makes exactly the calls of its
schedule. -/
theorem run_evaluate_noted (engine : Engine σ) (ctx : Context) (s : Noted σ) :
    (engine.noted.evaluate ctx).run s =
      (engine.verdicts ctx s.current, ⟨((engine.evaluate ctx).run s.current).2,
        s.calls ++ engine.schedule ctx (engine.contributions ctx s.current)⟩) := by
  have hpost : ∀ verdicts s, afterHooks
      (engine.noted.hooks.postEvaluate.map fun run => run ctx verdicts) s =
        ⟨afterHooks (engine.hooks.postEvaluate.map fun run => run ctx verdicts) s.current,
          s.calls ++ callEach engine.hooks.postEvaluate.length fun i =>
            .postEvaluate i ctx verdicts⟩ := by
    intro verdicts s
    rw [noted, Hooks.noted, List.map_map]
    exact afterHooks_noting (fun i => .postEvaluate i ctx verdicts)
      (fun run : Context → List Verdict → StateM σ (Ending Unit) => run ctx verdicts)
      engine.hooks.postEvaluate s
  rw [run_evaluate, passed_noted, hpost, verdicts_eq, run_evaluate, schedule,
    ← verdicts_eq_reduceOption, verdicts_eq]
  simp only [List.append_assoc]

/-- The calls of a pass. -/
def passCalls (engine : Engine σ) (ctx : Context) (s : σ) : List (PassCall σ) :=
  ((engine.noted.evaluate ctx).run ⟨s, []⟩).2.calls

theorem passCalls_eq (engine : Engine σ) (ctx : Context) (s : σ) :
    engine.passCalls ctx s = engine.schedule ctx (engine.contributions ctx s) := by
  rw [passCalls, run_evaluate_noted, List.nil_append]

/-- How hooks end changes no call. -/
theorem passCalls_congr (engine : Engine σ) {hooks : Hooks σ}
    (h : engine.hooks.SameEffects hooks) (ctx : Context) (s : σ) :
    (engine.withHooks hooks).passCalls ctx s = engine.passCalls ctx s := by
  have hturn : ∀ entry verdict?,
      hooks.turn ctx entry verdict? = engine.hooks.turn ctx entry verdict? := by
    intro entry verdict?
    have hreactions :
        hooks.reactions ctx entry.policy = engine.hooks.reactions ctx entry.policy := by
      funext verdict
      rw [Hooks.reactions, Hooks.reactions, h.onDeny.length_eq, h.onEscalationRequired.length_eq]
    rw [Hooks.turn, Hooks.turn, hreactions]
  rw [passCalls_eq, passCalls_eq, contributions_congr engine h, schedule, schedule,
    h.preEvaluate.length_eq, h.postEvaluate.length_eq]
  simp only [← hturn]
  rfl

end Engine

/-! ## Schedules of engines that were set up -/

namespace SetupCall

/-- The hooks that calls subscribe, those of each event in the order of the calls. -/
def subscribed (calls : List (SetupCall σ)) : Hooks σ where
  preEvaluate := calls.filterMap fun
    | subscribe (.preEvaluate run) => some run
    | _ => none
  postEvaluate := calls.filterMap fun
    | subscribe (.postEvaluate run) => some run
    | _ => none
  onDeny := calls.filterMap fun
    | subscribe (.onDeny run) => some run
    | _ => none
  onEscalationRequired := calls.filterMap fun
    | subscribe (.onEscalationRequired run) => some run
    | _ => none

theorem hooks_apply_setEnabled (engine : Engine σ) (id : String) (enabled : Bool) :
    (apply engine (setEnabled id enabled)).hooks = engine.hooks := by
  by_cases hmem : id ∈ engine.policyIds
  · rw [apply, Engine.setEnabled_of_mem hmem]
    rfl
  · rw [apply, Engine.setEnabled_of_not_mem hmem]

/-- Calls keep the hooks there are, and add those that they subscribe behind them. -/
theorem hooks_foldl (calls : List (SetupCall σ)) (engine : Engine σ) :
    (calls.foldl apply engine).hooks =
      ⟨engine.hooks.preEvaluate ++ (subscribed calls).preEvaluate,
        engine.hooks.postEvaluate ++ (subscribed calls).postEvaluate,
        engine.hooks.onDeny ++ (subscribed calls).onDeny,
        engine.hooks.onEscalationRequired ++ (subscribed calls).onEscalationRequired⟩ := by
  induction calls generalizing engine with
  | nil => simp [subscribed]
  | cons call rest ih =>
    rw [List.foldl_cons, ih]
    cases call with
    | register policy => rfl
    | setEnabled id enabled =>
      rw [hooks_apply_setEnabled]
      rfl
    | subscribe hook => cases hook <;> simp [apply, Engine.subscribe, subscribed]

end SetupCall

/-- The hooks of an engine are those that were subscribed, in that order. -/
theorem hooks_setUp (calls : List (SetupCall σ)) :
    (Engine.setUp calls).hooks = SetupCall.subscribed calls :=
  SetupCall.hooks_foldl calls .empty

/-- What a pass over a context calls, from any surroundings. -/
structure Engine.KeepsSchedule (engine : Engine σ) (ctx : Context) (s : σ) : Prop where
  /-- Noting the calls changes nothing else: neither the verdicts nor the surroundings. -/
  verdicts_noted : ((engine.noted.evaluate ctx).run ⟨s, []⟩).1 = ((engine.evaluate ctx).run s).1
  current_noted :
    ((engine.noted.evaluate ctx).run ⟨s, []⟩).2.current = ((engine.evaluate ctx).run s).2
  /-- Each registered policy has its turn at its place. The turn comes to a verdict of the policy if
  it is enabled, and to nothing if it is disabled. -/
  contributes : List.Forall₂ (fun entry verdict? => entry.Contributes ctx verdict?)
    engine.registrations (engine.contributions ctx s)
  /-- The pass returns the verdicts of these turns, which are as many as policies are enabled. -/
  verdicts : ((engine.evaluate ctx).run s).1 = (engine.contributions ctx s).reduceOption
  length_verdicts : ((engine.evaluate ctx).run s).1.length = engine.enabledCount
  /-- The calls are those of the schedule for these turns. -/
  calls : engine.passCalls ctx s = engine.schedule ctx (engine.contributions ctx s)
  /-- Hooks that end in other ways are called in the same way. -/
  hooks_ending : ∀ hooks : Hooks σ, engine.hooks.SameEffects hooks →
    (engine.withHooks hooks).passCalls ctx s = engine.passCalls ctx s

theorem Engine.keepsSchedule (engine : Engine σ) (ctx : Context) (s : σ) :
    engine.KeepsSchedule ctx s where
  verdicts_noted := by rw [run_evaluate_noted, verdicts]
  current_noted := by rw [run_evaluate_noted]
  contributes := engine.forall₂_contributes ctx s
  verdicts := engine.verdicts_eq_reduceOption ctx s
  length_verdicts := length_verdicts engine ctx s
  calls := passCalls_eq engine ctx s
  hooks_ending _ h := passCalls_congr engine h ctx s

/-- Every engine that calls can set up has the policies and hooks that they registered, in that
order, and keeps its schedule on every context. -/
theorem setUp_keepsSchedule (calls : List (SetupCall σ)) (ctx : Context) (s : σ) :
    (Engine.setUp calls).registrations = SetupCall.registered calls ∧
      (Engine.setUp calls).hooks = SetupCall.subscribed calls ∧
      (Engine.setUp calls).KeepsSchedule ctx s :=
  ⟨registrations_setUp calls, hooks_setUp calls, (Engine.setUp calls).keepsSchedule ctx s⟩

end ReleaseGate

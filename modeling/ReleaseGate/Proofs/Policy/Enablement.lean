import ReleaseGate.Proofs.Policy.Contributions
import ReleaseGate.Proofs.Policy.Setup

/-!
# Enabled by its history

Whether a registered policy takes part in the next pass depends on all calls behind its
registration: the last one that names its identifier decides, and one that came before does not
reach it. Policies with the same identifier may differ in this, and none of them ever moves.

* `SetupCall.NeverSwitched`, `SetupCall.LastSwitched`: what calls last said about an identifier.
* `contribution_setUp`: what the turn of a policy comes to after its registration and later calls.
* `setUp_enabledBy`: all of this of every engine that calls can set up, and what they are refused.
-/

namespace ReleaseGate

variable {σ : Type}

namespace SetupCall

/-! ## What calls last said -/

/-- No call enables or disables the policies with an identifier. -/
def NeverSwitched (id : String) (calls : List (SetupCall σ)) : Prop :=
  ∀ enabled, setEnabled id enabled ∉ calls

/-- The last call that enables or disables the policies with an identifier does this to them. -/
def LastSwitched (id : String) (enabled : Bool) (calls : List (SetupCall σ)) : Prop :=
  ∃ earlier later, calls = earlier ++ setEnabled id enabled :: later ∧ NeverSwitched id later

theorem neverSwitched_cons {id : String} {call : SetupCall σ} {rest : List (SetupCall σ)} :
    NeverSwitched id (call :: rest) ↔
      (∀ enabled, call ≠ setEnabled id enabled) ∧ NeverSwitched id rest := by
  simp only [NeverSwitched, List.mem_cons, not_or, forall_and, ne_comm]

theorem lastSwitched_cons {id : String} {enabled : Bool} {call : SetupCall σ}
    {rest : List (SetupCall σ)} : LastSwitched id enabled (call :: rest) ↔
      LastSwitched id enabled rest ∨ call = setEnabled id enabled ∧ NeverSwitched id rest := by
  constructor
  · rintro ⟨earlier, later, heq, hnever⟩
    cases earlier with
    | nil =>
      obtain ⟨rfl, rfl⟩ := List.cons.inj heq
      exact .inr ⟨rfl, hnever⟩
    | cons first earlier =>
      obtain ⟨-, rfl⟩ := List.cons.inj heq
      exact .inl ⟨earlier, later, rfl, hnever⟩
  · rintro (⟨earlier, later, rfl, hnever⟩ | ⟨rfl, hnever⟩)
    · exact ⟨call :: earlier, later, rfl, hnever⟩
    · exact ⟨[], rest, rfl, hnever⟩

/-- The last word on an identifier is known from the calls: either there is none, or it is that of
the last call that names it. -/
theorem switch?_spec (id : String) (calls : List (SetupCall σ)) :
    (switch? id calls = none ↔ NeverSwitched id calls) ∧
      ∀ enabled, switch? id calls = some enabled ↔ LastSwitched id enabled calls := by
  induction calls with
  | nil => simp [switch?, NeverSwitched, LastSwitched]
  | cons call rest ih =>
    obtain ⟨hnone, hsome⟩ := ih
    simp only [neverSwitched_cons, lastSwitched_cons, ← hnone, ← hsome]
    cases call with
    | register policy => simp [switch?]
    | subscribe hook => simp [switch?]
    | setEnabled id' enabled' =>
      by_cases hid : id' = id
      · cases hrest : switch? id rest <;> simp [switch?, hid, hrest]
      · simp [switch?, hid]

/-! ## Policies and their places -/

/-- The policies that calls register, in order. -/
def policies (calls : List (SetupCall σ)) : List (Policy σ) :=
  calls.filterMap fun
    | register policy => some policy
    | _ => none

theorem map_policy_registered (calls : List (SetupCall σ)) :
    (registered calls).map (·.policy) = policies calls := by
  induction calls with
  | nil => rfl
  | cons call rest ih => cases call <;> simp [registered, policies, ih]

theorem length_registered (calls : List (SetupCall σ)) :
    (registered calls).length = (policies calls).length := by
  rw [← map_policy_registered, List.length_map]

/-- Later calls leave the policies registered before them where they are. -/
theorem registered_append (calls later : List (SetupCall σ)) :
    registered (calls ++ later) = (registered calls).map (switched later) ++ registered later := by
  rw [← registrations_setUp (calls ++ later), Engine.setUp, List.foldl_append,
    registrations_foldl later, ← Engine.setUp, registrations_setUp]

/-- A policy stands behind those that were registered before it. -/
theorem getElem?_registered (before rest : List (SetupCall σ)) (policy : Policy σ) :
    (registered (before ++ register policy :: rest))[(policies before).length]? =
      some ⟨policy, (switch? policy.id rest).getD true⟩ := by
  have hlength : ((registered before).map (switched (register policy :: rest))).length =
      (policies before).length := by
    rw [List.length_map, length_registered]
  rw [registered_append, ← hlength, List.getElem?_append_right (Nat.le_refl _), Nat.sub_self]
  rfl

end SetupCall

open SetupCall

theorem policyIds_setUp (calls : List (SetupCall σ)) :
    (Engine.setUp calls).policyIds = (policies calls).map (·.id) := by
  rw [Engine.policyIds, registrations_setUp, ← map_policy_registered, List.map_map]
  rfl

/-- After its registration and later calls, a policy contributes to a pass exactly if these calls
never named its identifier or last enabled it. -/
theorem contribution_setUp (before rest : List (SetupCall σ)) (policy : Policy σ) (ctx : Context)
    (s : σ) : ∃ verdict?,
      ((Engine.setUp (before ++ register policy :: rest)).contributions ctx s)[
        (policies before).length]? = some verdict? ∧
      (∀ verdict ∈ verdict?, policy.Answers ctx verdict) ∧
      (verdict?.isSome = true ↔
        NeverSwitched policy.id rest ∨ LastSwitched policy.id true rest) := by
  have hentry := getElem?_registered before rest policy
  rw [← registrations_setUp] at hentry
  obtain ⟨verdict?, hat, hcontributes⟩ := Engine.contributes_of_getElem? hentry ctx s
  obtain ⟨hnone, hsome⟩ := switch?_spec policy.id rest
  refine ⟨verdict?, hat, hcontributes.answers, ?_⟩
  rw [← hnone, ← hsome, hcontributes.isSome]
  cases switch? policy.id rest <;> simp

/-- What the calls that set an engine up come to: the policies that it has, whether they contribute
to its passes, and which identifiers it knows. -/
structure Engine.EnabledBy (engine : Engine σ) (calls : List (SetupCall σ)) : Prop where
  policyIds : engine.policyIds = (policies calls).map (·.id)
  /-- Each registered policy has one contribution to a pass, and the verdicts of the pass are these
  contributions in the same order. -/
  length_contributions : ∀ ctx s, (engine.contributions ctx s).length = (policies calls).length
  verdicts : ∀ ctx s,
    ((engine.evaluate ctx).run s).1 = (engine.contributions ctx s).reduceOption
  /-- A policy contributes a verdict of its own exactly if no call behind its registration names its
  identifier, or the last one that does enables it. -/
  contribution : ∀ (before rest : List (SetupCall σ)) (policy : Policy σ),
    calls = before ++ SetupCall.register policy :: rest → ∀ ctx s,
    ∃ verdict?, (engine.contributions ctx s)[(policies before).length]? = some verdict? ∧
      (∀ verdict ∈ verdict?, policy.Answers ctx verdict) ∧
      (verdict?.isSome = true ↔ NeverSwitched policy.id rest ∨ LastSwitched policy.id true rest)
  enabledCount : ∀ ctx s, ((engine.evaluate ctx).run s).1.length = engine.enabledCount
  /-- Only identifiers that were never registered are refused. -/
  setEnabled_eq_error : ∀ id enabled fault, engine.setEnabled id enabled = .error fault ↔
    fault = .unknownPolicy id ∧ ∀ policy ∈ policies calls, policy.id ≠ id
  /-- A call that is refused changes nothing. -/
  apply_refused : ∀ id enabled, (∀ policy ∈ policies calls, policy.id ≠ id) →
    apply engine (.setEnabled id enabled) = engine

/-- Every engine that calls can set up is enabled by them. -/
theorem setUp_enabledBy (calls : List (SetupCall σ)) : (Engine.setUp calls).EnabledBy calls := by
  have hmem : ∀ id, id ∉ (Engine.setUp calls).policyIds ↔
      ∀ policy ∈ policies calls, policy.id ≠ id := by
    intro id
    simp [policyIds_setUp]
  constructor
  case policyIds => exact policyIds_setUp calls
  case length_contributions =>
    intro ctx s
    rw [← ((Engine.setUp calls).forall₂_contributes ctx s).length_eq, registrations_setUp,
      ← map_policy_registered, List.length_map]
  case verdicts => exact Engine.verdicts_eq_reduceOption _
  case contribution =>
    rintro before rest policy rfl ctx s
    exact contribution_setUp before rest policy ctx s
  case enabledCount => exact Engine.length_verdicts _
  case setEnabled_eq_error =>
    intro id enabled fault
    rw [← hmem]
    by_cases hid : id ∈ (Engine.setUp calls).policyIds
    · simp [Engine.setEnabled_of_mem hid, hid]
    · simp [Engine.setEnabled_of_not_mem hid, hid, eq_comm]
  case apply_refused =>
    intro id enabled hnone
    rw [apply, Engine.setEnabled_of_not_mem ((hmem id).mpr hnone)]

end ReleaseGate

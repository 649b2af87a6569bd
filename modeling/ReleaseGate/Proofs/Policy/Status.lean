import ReleaseGate.Proofs.Policy.Enablement
import ReleaseGate.Time.Epoch

/-!
# What an engine says about an identifier

An engine answers for the first of the policies that have an identifier. To enable or disable
reaches all of them at once, but a policy that is registered afterwards is enabled. So the answer
that an identifier is enabled holds of all its policies. The answer that it is disabled holds of
those that were registered before the call which disabled it, and only of those.

* `Engine.LaterEnabled`: of two policies with one identifier the later is enabled if the earlier is.
* `SetupCall.enabled_iff_of_switched`: the last call that names an identifier tells its policies
  apart by their places.
* `setUp_tells`: what the answer of an engine that calls set up says about its next pass.
* `reopenedGate_contributes`: a disabled identifier of which a policy contributes.
-/

namespace ReleaseGate

variable {σ : Type}

namespace Engine

variable {engine : Engine σ} {ctx : Context} {s : σ} {id : String}

/-! ## Places -/

/-- The policy at a place contributes a verdict to a pass. -/
def ContributesAt (engine : Engine σ) (ctx : Context) (s : σ) (place : Nat) : Prop :=
  ∃ verdict, (engine.contributions ctx s)[place]? = some (some verdict)

theorem getElem?_policyIds {place : Nat} : engine.policyIds[place]? = some id ↔
    ∃ entry, engine.registrations[place]? = some entry ∧ entry.policy.id = id := by
  rw [policyIds, List.getElem?_map, Option.map_eq_some_iff]

theorem contributesAt_iff {place : Nat} {entry : Registration σ}
    (h : engine.registrations[place]? = some entry) :
    engine.ContributesAt ctx s place ↔ entry.enabled = true := by
  obtain ⟨verdict?, hat, hcontributes⟩ := contributes_of_getElem? h ctx s
  rw [ContributesAt, hat, ← hcontributes.isSome, Option.isSome_iff_exists]
  simp only [Option.some.injEq]

/-! ## The first policy with an identifier -/

theorem isEnabled?_eq_none_iff : engine.isEnabled? id = none ↔ id ∉ engine.policyIds := by
  rw [isEnabled?, Option.map_eq_none_iff, List.find?_eq_none, policyIds, List.mem_map]
  simp only [decide_eq_true_eq, not_exists, not_and]

/-- The answer about an identifier is that of the first policy which has it. -/
theorem isEnabled?_eq_some_iff {enabled : Bool} : engine.isEnabled? id = some enabled ↔
    ∃ (first : Nat) (entry : Registration σ), engine.registrations[first]? = some entry ∧
      entry.policy.id = id ∧ entry.enabled = enabled ∧
      ∀ place < first, engine.policyIds[place]? ≠ some id := by
  rw [isEnabled?, Option.map_eq_some_iff]
  constructor
  · rintro ⟨entry, hfind, henabled⟩
    obtain ⟨hid, first, hlt, hentry, hbefore⟩ := List.find?_eq_some_iff_getElem.mp hfind
    refine ⟨first, entry, List.getElem?_eq_some_iff.mpr ⟨hlt, hentry⟩, of_decide_eq_true hid,
      henabled, fun place hplace hhas => ?_⟩
    obtain ⟨other, hother, hother_id⟩ := getElem?_policyIds.mp hhas
    obtain ⟨_, rfl⟩ := List.getElem?_eq_some_iff.mp hother
    simpa [hother_id] using hbefore place hplace
  · rintro ⟨first, entry, hentry, hid, henabled, hbefore⟩
    obtain ⟨hlt, hentry⟩ := List.getElem?_eq_some_iff.mp hentry
    refine ⟨entry, List.find?_eq_some_iff_getElem.mpr
      ⟨decide_eq_true hid, first, hlt, hentry, fun place hplace => ?_⟩, henabled⟩
    have hother : engine.registrations[place]? = some engine.registrations[place] :=
      List.getElem?_eq_getElem (Nat.lt_trans hplace hlt)
    have hne : engine.registrations[place].policy.id ≠ id := fun hother_id =>
      hbefore place hplace (getElem?_policyIds.mpr ⟨_, hother, hother_id⟩)
    simpa using hne

/-- An identifier is disabled if the first policy that has it does not contribute. -/
theorem isEnabled?_eq_false_iff : engine.isEnabled? id = some false ↔
    ∃ first : Nat, engine.policyIds[first]? = some id ∧
      (∀ place < first, engine.policyIds[place]? ≠ some id) ∧
      ¬engine.ContributesAt ctx s first := by
  rw [isEnabled?_eq_some_iff]
  constructor
  · rintro ⟨first, entry, hentry, hid, henabled, hbefore⟩
    refine ⟨first, getElem?_policyIds.mpr ⟨entry, hentry, hid⟩, hbefore, ?_⟩
    rwa [contributesAt_iff hentry, Bool.not_eq_true]
  · rintro ⟨first, hhas, hbefore, hsilent⟩
    obtain ⟨entry, hentry, hid⟩ := getElem?_policyIds.mp hhas
    rw [contributesAt_iff hentry, Bool.not_eq_true] at hsilent
    exact ⟨first, entry, hentry, hid, hsilent, hbefore⟩

/-! ## No policy is ahead of its own identifier -/

/-- Of two policies with one identifier, the later is enabled if the earlier is. -/
def LaterEnabled (engine : Engine σ) : Prop :=
  engine.registrations.Pairwise fun earlier later =>
    earlier.policy.id = later.policy.id → earlier.enabled = true → later.enabled = true

end Engine

open SetupCall

theorem SetupCall.switched_enabled_of_imp {a b : Registration σ} (calls : List (SetupCall σ))
    (hid : a.policy.id = b.policy.id) (h : a.enabled = true → b.enabled = true) :
    (switched calls a).enabled = true → (switched calls b).enabled = true := by
  rw [switched, switched, hid]
  cases switch? b.policy.id calls with
  | none => exact h
  | some enabled => exact id

theorem Engine.LaterEnabled.apply {engine : Engine σ} (h : engine.LaterEnabled)
    (call : SetupCall σ) : (call.apply engine).LaterEnabled := by
  cases call with
  | register policy =>
    -- the new policy is the last one, and enabled
    have hlast : ∀ later ∈ [Registration.mk policy true], later.enabled = true :=
      fun later hlater => List.mem_singleton.mp hlater ▸ rfl
    exact List.pairwise_append.mpr
      ⟨h, List.pairwise_singleton _ _, fun _ _ later hlater _ _ => hlast later hlater⟩
  | setEnabled id enabled =>
    rw [LaterEnabled, registrations_apply_setEnabled, List.pairwise_map]
    exact h.imp fun hab hid => switched_enabled_of_imp _ hid (hab hid)
  | subscribe hook => exact h

theorem Engine.LaterEnabled.foldl {engine : Engine σ} (h : engine.LaterEnabled)
    (calls : List (SetupCall σ)) : (calls.foldl SetupCall.apply engine).LaterEnabled := by
  induction calls generalizing engine with
  | nil => exact h
  | cons call rest ih => exact ih (h.apply call)

theorem Engine.laterEnabled_setUp (calls : List (SetupCall σ)) : (setUp calls).LaterEnabled := by
  have hempty : (empty : Engine σ).LaterEnabled := List.Pairwise.nil
  exact hempty.foldl calls

/-- If no policy is ahead of a disabled one with its identifier, the answer that an identifier is
enabled holds of all its policies. -/
theorem Engine.LaterEnabled.isEnabled?_eq_true_iff {engine : Engine σ} (h : engine.LaterEnabled)
    {ctx : Context} {s : σ} {id : String} : engine.isEnabled? id = some true ↔
      id ∈ engine.policyIds ∧
      ∀ place : Nat, engine.policyIds[place]? = some id → engine.ContributesAt ctx s place := by
  constructor
  · intro htrue
    obtain ⟨first, entry, hentry, hid, henabled, hbefore⟩ := isEnabled?_eq_some_iff.mp htrue
    have hfirst := getElem?_policyIds.mpr ⟨entry, hentry, hid⟩
    refine ⟨List.mem_of_getElem? hfirst, fun place hhas => ?_⟩
    obtain ⟨other, hother, hother_id⟩ := getElem?_policyIds.mp hhas
    rw [contributesAt_iff hother]
    rcases Nat.lt_trichotomy place first with hlt | rfl | hlt
    · exact absurd hhas (hbefore place hlt)
    · rwa [← Option.some.inj (hentry.symm.trans hother)]
    · obtain ⟨hfirst, rfl⟩ := List.getElem?_eq_some_iff.mp hentry
      obtain ⟨hplace, rfl⟩ := List.getElem?_eq_some_iff.mp hother
      exact List.pairwise_iff_getElem.mp h first place hfirst hplace hlt
        (hid.trans hother_id.symm) henabled
  · rintro ⟨hmem, hall⟩
    cases hanswer : engine.isEnabled? id with
    | none => exact absurd hmem (isEnabled?_eq_none_iff.mp hanswer)
    | some enabled =>
      obtain ⟨first, entry, hentry, hid, henabled, -⟩ := isEnabled?_eq_some_iff.mp hanswer
      have hcontributes := hall first (getElem?_policyIds.mpr ⟨entry, hentry, hid⟩)
      rw [← henabled, (contributesAt_iff hentry).mp hcontributes]

/-! ## The last call that names an identifier -/

namespace SetupCall

variable {id : String} {calls before after : List (SetupCall σ)}

/-- A policy is enabled if no call names its identifier. -/
theorem enabled_of_neverSwitched (h : NeverSwitched id calls) {entry : Registration σ}
    (hmem : entry ∈ registered calls) (hid : entry.policy.id = id) : entry.enabled = true := by
  induction calls with
  | nil => nomatch hmem
  | cons call rest ih =>
    have hrest := (neverSwitched_cons.mp h).2
    cases call with
    | register policy =>
      rcases List.mem_cons.mp hmem with rfl | hmem
      · subst hid
        rw [(switch?_spec _ rest).1.mpr hrest, Option.getD_none]
      · exact ih hrest hmem
    | setEnabled id' enabled => exact ih hrest hmem
    | subscribe hook => exact ih hrest hmem

/-- The last call that names an identifier decides about the policies that were registered before
it. Those that were registered after it are enabled. -/
theorem enabled_iff_of_switched {enabled : Bool} (h : NeverSwitched id after) {place : Nat}
    {entry : Registration σ}
    (hentry : (registered (before ++ setEnabled id enabled :: after))[place]? = some entry)
    (hid : entry.policy.id = id) :
    entry.enabled = true ↔ enabled = true ∨ (policies before).length ≤ place := by
  rw [registered_append, List.getElem?_append, List.length_map, length_registered] at hentry
  split at hentry
  case isTrue hlt =>
    obtain ⟨earlier, -, rfl⟩ := List.mem_map.mp (List.mem_of_getElem? hentry)
    have hlast : switch? earlier.policy.id (setEnabled id enabled :: after) = some enabled :=
      ((switch?_spec _ _).2 enabled).mpr ⟨[], after, by rw [← hid]; rfl, by rwa [← hid] at h⟩
    rw [switched, hlast, Option.getD_some]
    exact (or_iff_left (Nat.not_le.mpr hlt)).symm
  case isFalse hge =>
    have henabled := enabled_of_neverSwitched h (List.mem_of_getElem? hentry) hid
    exact iff_of_true henabled (.inr (Nat.not_lt.mp hge))

/-- A policy is disabled only if the last call that names its identifier disables it. -/
theorem lastSwitched_of_disabled {place : Nat} {entry : Registration σ}
    (hentry : (registered calls)[place]? = some entry) (h : entry.enabled = false) :
    LastSwitched entry.policy.id false calls := by
  obtain ⟨hnone, hsome⟩ := switch?_spec entry.policy.id calls
  cases hlast : switch? entry.policy.id calls with
  | none =>
    have henabled := enabled_of_neverSwitched (hnone.mp hlast) (List.mem_of_getElem? hentry) rfl
    exact absurd henabled (Bool.eq_false_iff.mp h)
  | some enabled =>
    cases enabled with
    | false => exact (hsome false).mp hlast
    | true =>
      obtain ⟨before, after, rfl, hnever⟩ := (hsome true).mp hlast
      have henabled := (enabled_iff_of_switched hnever hentry rfl).mpr (.inl rfl)
      exact absurd henabled (Bool.eq_false_iff.mp h)

end SetupCall

/-! ## Answers -/

/-- What the answer of an engine about an identifier says about its next pass. -/
structure Engine.Tells (engine : Engine σ) (calls : List (SetupCall σ)) (id : String)
    (ctx : Context) (s : σ) : Prop where
  policyIds : engine.policyIds = (policies calls).map (·.id)
  /-- The verdicts of the pass are what the policies contribute, in order. -/
  verdicts : ((engine.evaluate ctx).run s).1 = (engine.contributions ctx s).reduceOption
  answers : ∀ (place : Nat) (verdict : Verdict),
    (engine.contributions ctx s)[place]? = some (some verdict) →
    ∃ policy, (policies calls)[place]? = some policy ∧ policy.Answers ctx verdict
  isEnabled_eq_none : engine.isEnabled? id = none ↔ id ∉ engine.policyIds
  /-- An identifier is enabled if all its policies contribute. -/
  isEnabled_eq_true : engine.isEnabled? id = some true ↔ id ∈ engine.policyIds ∧
    ∀ place : Nat, engine.policyIds[place]? = some id → engine.ContributesAt ctx s place
  /-- An identifier is disabled if the first of its policies does not contribute. -/
  isEnabled_eq_false : engine.isEnabled? id = some false ↔
    ∃ first : Nat, engine.policyIds[first]? = some id ∧
      (∀ place < first, engine.policyIds[place]? ≠ some id) ∧ ¬engine.ContributesAt ctx s first
  /-- Then the last call that names the identifier disabled it, and its policies contribute exactly
  if they were registered after this call. -/
  disabled : engine.isEnabled? id = some false → ∃ before after,
    calls = before ++ .setEnabled id false :: after ∧ NeverSwitched id after ∧
    ∀ place : Nat, engine.policyIds[place]? = some id →
      (engine.ContributesAt ctx s place ↔ (policies before).length ≤ place)

/-- Every engine that calls can set up tells of any identifier whether its policies contribute to
the next pass, except those that were registered after it was disabled. -/
theorem setUp_tells (calls : List (SetupCall σ)) (id : String) (ctx : Context) (s : σ) :
    (Engine.setUp calls).Tells calls id ctx s := by
  constructor
  case policyIds => exact policyIds_setUp calls
  case verdicts => exact Engine.verdicts_eq_reduceOption _ ctx s
  case answers =>
    intro place verdict hverdict
    obtain ⟨entry, hentry, hanswers⟩ := Engine.answers_of_getElem? hverdict
    rw [registrations_setUp] at hentry
    refine ⟨entry.policy, ?_, hanswers⟩
    rw [← map_policy_registered, List.getElem?_map, hentry, Option.map_some]
  case isEnabled_eq_none => exact Engine.isEnabled?_eq_none_iff
  case isEnabled_eq_true => exact (Engine.laterEnabled_setUp calls).isEnabled?_eq_true_iff
  case isEnabled_eq_false => exact Engine.isEnabled?_eq_false_iff
  case disabled =>
    intro hfalse
    obtain ⟨first, entry, hentry, rfl, henabled, -⟩ := Engine.isEnabled?_eq_some_iff.mp hfalse
    rw [registrations_setUp] at hentry
    obtain ⟨before, after, rfl, hnever⟩ := lastSwitched_of_disabled hentry henabled
    refine ⟨before, after, rfl, hnever, fun place hhas => ?_⟩
    obtain ⟨other, hother, hother_id⟩ := Engine.getElem?_policyIds.mp hhas
    rw [Engine.contributesAt_iff hother,
      enabled_iff_of_switched hnever (registrations_setUp _ ▸ hother) hother_id,
      or_iff_right Bool.false_ne_true]

/-- A policy that lets nothing pass. -/
def closedGate : Policy Unit :=
  .ofRule "gate" .security fun _ => { decision := .deny, policyId := "gate", reason := "closed" }

/-- An engine whose policy was disabled and registered once more. -/
def reopenedGate : Engine Unit :=
  .setUp [.register closedGate, .setEnabled "gate" false, .register closedGate]

/-- A request that is to pass a gate. -/
def gatedRequest : Context :=
  { actor := "ci", action := "deploy", resource := "repository", timestamp := .ofClock 0 }

/-- A disabled identifier may have policies that contribute. -/
theorem reopenedGate_contributes : reopenedGate.isEnabled? "gate" = some false ∧
    reopenedGate.policyIds[1]? = some "gate" ∧ reopenedGate.ContributesAt gatedRequest () 1 ∧
    ¬(reopenedGate.isEnabled? "gate" = some false ↔ "gate" ∈ reopenedGate.policyIds ∧
      ∀ place : Nat, reopenedGate.policyIds[place]? = some "gate" →
        ¬reopenedGate.ContributesAt gatedRequest () place) := by
  have hentries : reopenedGate.registrations = [⟨closedGate, false⟩, ⟨closedGate, true⟩] :=
    registrations_setUp _
  have hanswer : reopenedGate.isEnabled? "gate" = some false := by
    rw [Engine.isEnabled?, hentries]
    rfl
  have hid : reopenedGate.policyIds[1]? = some "gate" := by
    rw [Engine.policyIds, hentries]
    rfl
  have hlast : reopenedGate.registrations[1]? = some ⟨closedGate, true⟩ := by
    rw [hentries]
    rfl
  have hcontributes : reopenedGate.ContributesAt gatedRequest () 1 :=
    (Engine.contributesAt_iff hlast).mpr rfl
  exact ⟨hanswer, hid, hcontributes, fun hclaim => (hclaim.mp hanswer).2 1 hid hcontributes⟩

end ReleaseGate

import ReleaseGate.Policy.Engine

/-!
# Setting an engine up

An engine is set up by calls that register policies, enable or disable them, and subscribe hooks, in
any order.

* `Engine.switch`, `setEnabled_of_mem`, `setEnabled_of_not_mem`: what enabling and disabling does.
* `SetupCall.apply`, `Engine.setUp`: the engine after any calls.
* `registrations_setUp`: its policies are those that were registered, in that order, each enabled
  unless the last call about it says otherwise.
-/

namespace ReleaseGate

variable {σ : Type}

/-! ## Enabling and disabling -/

/-- A registered policy, enabled or disabled if it has an identifier. -/
def Registration.set (id : String) (enabled : Bool) (entry : Registration σ) : Registration σ :=
  if entry.policy.id = id then { entry with enabled } else entry

@[simp] theorem Registration.set_policy (id : String) (enabled : Bool) (entry : Registration σ) :
    (entry.set id enabled).policy = entry.policy := by
  rw [set]
  split <;> rfl

namespace Engine

/-- The engine with every policy of an identifier enabled or disabled. -/
def switch (engine : Engine σ) (id : String) (enabled : Bool) : Engine σ :=
  { engine with registrations := engine.registrations.map (Registration.set id enabled) }

@[simp] theorem policyIds_switch (engine : Engine σ) (id : String) (enabled : Bool) :
    (engine.switch id enabled).policyIds = engine.policyIds := by
  rw [policyIds, switch, List.map_map]
  exact List.map_congr_left fun entry _ => congrArg Policy.id (entry.set_policy id enabled)

/-- Every policy with a registered identifier can be enabled and disabled. -/
theorem setEnabled_of_mem {engine : Engine σ} {id : String} (h : id ∈ engine.policyIds)
    (enabled : Bool) : engine.setEnabled id enabled = .ok (engine.switch id enabled) := by
  obtain ⟨entry, hentry, hid⟩ := List.mem_map.mp h
  exact if_pos (List.any_eq_true.mpr ⟨entry, hentry, decide_eq_true hid⟩)

/-- Other identifiers are refused. -/
theorem setEnabled_of_not_mem {engine : Engine σ} {id : String} (h : id ∉ engine.policyIds)
    (enabled : Bool) : engine.setEnabled id enabled = .error (.unknownPolicy id) := by
  refine if_neg fun hany => h ?_
  obtain ⟨entry, hentry, hid⟩ := List.any_eq_true.mp hany
  exact List.mem_map.mpr ⟨entry, hentry, of_decide_eq_true hid⟩

end Engine

/-! ## Setting up -/

/-- A call that sets an engine up. -/
inductive SetupCall (σ : Type) where
  | register (policy : Policy σ)
  | setEnabled (id : String) (enabled : Bool)
  | subscribe (hook : Hook σ)

namespace SetupCall

/-- The engine after a call. A call that is refused changes nothing. -/
def apply (engine : Engine σ) : SetupCall σ → Engine σ
  | register policy => engine.register policy
  | setEnabled id enabled =>
    match engine.setEnabled id enabled with
    | .ok changed => changed
    | .error _ => engine
  | subscribe hook => engine.subscribe hook

/-- The last word of calls on whether the policies with an identifier are enabled. -/
def switch? (id : String) : List (SetupCall σ) → Option Bool
  | [] => none
  | setEnabled id' enabled :: rest =>
    if id' = id then (switch? id rest).or (some enabled) else switch? id rest
  | _ :: rest => switch? id rest

/-- The policies that calls register, each enabled unless the last later call about it says
otherwise. -/
def registered : List (SetupCall σ) → List (Registration σ)
  | [] => []
  | register policy :: rest => ⟨policy, (switch? policy.id rest).getD true⟩ :: registered rest
  | _ :: rest => registered rest

/-- What calls leave of a policy that was registered before them. -/
def switched (calls : List (SetupCall σ)) (entry : Registration σ) : Registration σ :=
  { entry with enabled := (switch? entry.policy.id calls).getD entry.enabled }

theorem switched_setEnabled (id : String) (enabled : Bool) (entry : Registration σ) :
    switched [setEnabled id enabled] entry = entry.set id enabled := by
  rw [switched, switch?, switch?, Registration.set]
  by_cases hid : entry.policy.id = id
  · rw [if_pos hid, if_pos hid.symm]
    rfl
  · rw [if_neg hid, if_neg (Ne.symm hid)]
    rfl

theorem registrations_apply_setEnabled (engine : Engine σ) (id : String) (enabled : Bool) :
    (apply engine (setEnabled id enabled)).registrations =
      engine.registrations.map (switched [setEnabled id enabled]) := by
  rw [apply]
  by_cases hmem : id ∈ engine.policyIds
  · rw [Engine.setEnabled_of_mem hmem]
    exact List.map_congr_left fun entry _ => (switched_setEnabled id enabled entry).symm
  · rw [Engine.setEnabled_of_not_mem hmem]
    refine ((List.map_congr_left fun entry hentry => ?_).trans (List.map_id _)).symm
    have hid : entry.policy.id ≠ id := fun hid => hmem (List.mem_map.mpr ⟨entry, hentry, hid⟩)
    rw [switched_setEnabled, Registration.set, if_neg hid, id_eq]

theorem switched_comp_setEnabled (id : String) (enabled : Bool) (rest : List (SetupCall σ)) :
    switched rest ∘ switched [setEnabled id enabled] =
      switched (setEnabled id enabled :: rest) := by
  funext entry
  simp only [Function.comp_apply, switched, switch?]
  by_cases hid : id = entry.policy.id
  · rw [if_pos hid, if_pos hid]
    cases switch? entry.policy.id rest <;> rfl
  · rw [if_neg hid, if_neg hid]
    rfl

/-- Calls keep the policies there are, and add those that they register behind them. -/
theorem registrations_foldl (calls : List (SetupCall σ)) (engine : Engine σ) :
    (calls.foldl apply engine).registrations =
      engine.registrations.map (switched calls) ++ registered calls := by
  induction calls generalizing engine with
  | nil =>
    show engine.registrations = engine.registrations.map id ++ []
    rw [List.map_id, List.append_nil]
  | cons call rest ih =>
    rw [List.foldl_cons, ih]
    cases call with
    | register policy =>
      show (engine.registrations ++ [Registration.mk policy true]).map (switched rest) ++ _ = _
      rw [List.map_append, List.append_assoc]
      rfl
    | setEnabled id enabled =>
      rw [registrations_apply_setEnabled, List.map_map, switched_comp_setEnabled]
      rfl
    | subscribe hook => rfl

end SetupCall

/-- The engine that calls set up. -/
def Engine.setUp (calls : List (SetupCall σ)) : Engine σ := calls.foldl SetupCall.apply .empty

/-- The policies of an engine are those that were registered, in that order. -/
theorem registrations_setUp (calls : List (SetupCall σ)) :
    (Engine.setUp calls).registrations = SetupCall.registered calls :=
  SetupCall.registrations_foldl calls .empty

end ReleaseGate

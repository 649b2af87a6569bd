import Mathlib.Data.List.Induction
import ReleaseGate.Manifest
import ReleaseGate.Proofs.Scoring.Acceptance

/-!
# Runs of aggregators

An aggregator checks its configuration once, when it is made. From then on it is added to, copied
and asked for reports in any order, and so is every copy. No call changes the configuration, so what
an aggregator reports is always what `aggregate` reports.

* `ScoringConfig.Loaded`, `Loaded.check_eq_ok`: whatever a reader returns is free of faults.
* `exists_of_checkedReport_eq_error`: a fault of inputs is never one of the configuration.
* `Aggregator.call`, `Aggregator.gathered`: a call and its answer, and what calls add.
* `Aggregator.after`, `getElem?_after`: all aggregators after any calls.
* `Aggregator.Descends`, `getElem?_after_eq_some`: what each of them holds.
* `Aggregator.Agrees`, `agrees_of_check`: aggregators that report what `aggregate` reports.
* `ScoringConfig.Governs`, `scoringConfig_governs`: so do all aggregators of every run.
-/

namespace ReleaseGate

/-! ## Configurations that were read -/

namespace ScoringConfig

variable {config : ScoringConfig}

/-- A configuration that a reader returned. -/
inductive Loaded (config : ScoringConfig) : Prop where
  | ofToml (text : String) (h : ScoringConfig.ofToml text = .ok config)
  | ofYaml (text : String) (h : ScoringConfig.ofYaml text = .ok config)
  | load (location : Option Location) (tree : FileTree)
      (h : ((load location : ExceptT Fault (StateM FileTree) ScoringConfig).run.run tree).1 =
        .ok config)

/-- A file is read as its text is, and the tree stays as it is. -/
theorem run_ofFile (location : Location) (tree : FileTree) :
    (ofFile location : ExceptT Fault (StateM FileTree) ScoringConfig).run.run tree =
      (match tree.read location with
        | .ok text => if location.isYaml then ofYaml text else ofToml text
        | .error problem => .error (.configuration (.unreadableManifest location.text problem)),
        tree) := by
  have hread : (FileAccess.readFile location : StateM FileTree _).run tree =
      (tree.read location, tree) := rfl
  rw [ofFile, FileAccess.orFault, ExceptT.run_bind, StateT.run_bind, ExceptT.run_mk,
    StateT.run_map, hread]
  cases tree.read location with
  | error problem => rfl
  | ok text =>
    show (ofExcept _ : ExceptT Fault (StateM FileTree) _).run.run tree =
      (if location.isYaml then ofYaml text else ofToml text, tree)
    cases (if location.isYaml then ofYaml text else ofToml text) <;> rfl

/-- What is read and then checked is free of faults. -/
theorem check_of_orMalformed {document : String} {read : Option ScoringConfig}
    (h : (do (← orMalformed document read).checked) = Except.ok config) :
    config.check = .ok () := by
  cases read with
  | none => cases h
  | some found =>
    obtain ⟨hcheck, hfound⟩ := seq_eq_ok.mp h
    cases hfound
    exact hcheck

/-- A reader returns only configurations without faults. -/
theorem Loaded.check_eq_ok (h : config.Loaded) : config.check = .ok () := by
  have htoml (text : String) (h : ScoringConfig.ofToml text = .ok config) :
      config.check = .ok () := check_of_orMalformed h
  have hyaml (text : String) (h : ScoringConfig.ofYaml text = .ok config) :
      config.check = .ok () := check_of_orMalformed h
  cases h with
  | ofToml text h => exact htoml text h
  | ofYaml text h => exact hyaml text h
  | load location tree h =>
    cases location with
    | none =>
      cases h
      exact check_standard
    | some location =>
      rw [ScoringConfig.load, run_ofFile] at h
      cases hread : tree.read location with
      | error problem => simp [hread] at h
      | ok text =>
        simp only [hread] at h
        split at h
        · exact hyaml text h
        · exact htoml text h

end ScoringConfig

/-! ## Faults of inputs -/

section Faults

variable {components : List Component} {validations : List Validation} {fault : Fault}

theorem Component.exists_of_check_eq_error {c : Component} (h : c.check = .error fault) :
    ∃ problem, fault = .invalidInput problem := by
  rw [check] at h
  split at h
  · cases h
    exact ⟨_, rfl⟩
  · rw [checkDimensions] at h
    split at h
    · cases h
      exact ⟨_, rfl⟩
    · cases h

theorem Validation.exists_of_check_eq_error {v : Validation} (h : v.check = .error fault) :
    ∃ problem, fault = .invalidInput problem := by
  rw [check] at h
  split at h
  · cases h
    exact ⟨_, rfl⟩
  · split at h
    · cases h
    · cases h
      exact ⟨_, rfl⟩

theorem exists_of_checkComponents_eq_error {seen : List String}
    (h : checkComponents seen components = .error fault) :
    ∃ problem, fault = .invalidInput problem := by
  induction components generalizing seen with
  | nil => cases h
  | cons c rest ih =>
    rcases seq_eq_error.mp h with hc | ⟨-, hrest⟩
    · exact Component.exists_of_check_eq_error hc
    · split at hrest
      · cases hrest
        exact ⟨_, rfl⟩
      · exact ih hrest

theorem exists_of_checkValidations_eq_error (h : checkValidations validations = .error fault) :
    ∃ problem, fault = .invalidInput problem := by
  induction validations with
  | nil => cases h
  | cons v rest ih =>
    rcases seq_eq_error.mp h with hv | ⟨-, hrest⟩
    · exact Validation.exists_of_check_eq_error hv
    · exact ih hrest

/-- A report of inputs fails only for the inputs. -/
theorem exists_of_checkedReport_eq_error {config : ScoringConfig} {now : Instant}
    (h : checkedReport config components validations now = .error fault) :
    ∃ problem, fault = .invalidInput problem := by
  rcases seq_eq_error.mp h with hinputs | ⟨-, hreport⟩
  · rcases seq_eq_error.mp hinputs with hcomponents | ⟨-, hvalidations⟩
    · exact exists_of_checkComponents_eq_error hcomponents
    · exact exists_of_checkValidations_eq_error hvalidations
  · cases hreport

end Faults

/-! ## One aggregator -/

/-- The same report at another time. -/
def Report.dated (r : Report) (now : Instant) : Report := { r with timestamp := now }

/-- The time of a report is the only thing in it that depends on the time. -/
theorem checkedReport_dated (config : ScoringConfig) (components : List Component)
    (validations : List Validation) (now now' : Instant) :
    checkedReport config components validations now =
      (checkedReport config components validations now').map (·.dated now) := by
  unfold checkedReport
  cases checkInputs components validations <;> rfl

/-- What the holder of an aggregator does with it. -/
inductive AggregatorCall where
  | addComponent (c : Component)
  | addValidation (v : Validation)
  | clone
  | compute (now : Instant)
  | aggregate (components : List Component) (validations : List Validation) (now : Instant)

/-- What the holder gets back. -/
inductive AggregatorAnswer where
  | nothing
  | copied (a : Aggregator)
  | reported (result : Except Fault Report)

/-- The component that a call adds. -/
def AggregatorCall.component? : AggregatorCall → Option Component
  | addComponent c => some c
  | _ => none

/-- The validation that a call adds. -/
def AggregatorCall.validation? : AggregatorCall → Option Validation
  | addValidation v => some v
  | _ => none

/-- The aggregators that an answer holds. -/
def AggregatorAnswer.copies : AggregatorAnswer → List Aggregator
  | copied a => [a]
  | _ => []

namespace Aggregator

/-- A call: the answer, and the aggregator after it. -/
def call (a : Aggregator) : AggregatorCall → AggregatorAnswer × Aggregator
  | .addComponent c => (.nothing, a.addComponent c)
  | .addValidation v => (.nothing, a.addValidation v)
  | .clone => (.copied a, a)
  | .compute now => (.reported (a.compute now), a)
  | .aggregate components validations now =>
    (.reported (a.aggregate components validations now), a)

/-- An aggregator with what calls add to it, in their order. -/
def gathered (a : Aggregator) (calls : List AggregatorCall) : Aggregator where
  config := a.config
  components := a.components ++ calls.filterMap (·.component?)
  validations := a.validations ++ calls.filterMap (·.validation?)

@[simp]
theorem gathered_nil (a : Aggregator) : a.gathered [] = a := by simp [gathered]

@[simp]
theorem gathered_gathered (a : Aggregator) (calls calls' : List AggregatorCall) :
    (a.gathered calls).gathered calls' = a.gathered (calls ++ calls') := by
  simp [gathered]

/-- A call leaves the aggregator with what it adds; a report adds nothing, also if it fails. -/
theorem call_snd (a : Aggregator) (c : AggregatorCall) : (a.call c).2 = a.gathered [c] := by
  cases c with
  | addComponent c => simp [call, gathered, addComponent, AggregatorCall.component?,
      AggregatorCall.validation?]
  | addValidation v => simp [call, gathered, addValidation, AggregatorCall.component?,
      AggregatorCall.validation?]
  | clone | compute | aggregate => exact (gathered_nil a).symm

/-- A copy is as the original, and only copying brings one. -/
theorem copies_call (a : Aggregator) (c : AggregatorCall) :
    c = .clone ∧ (a.call c).1.copies = [a] ∨ (a.call c).1.copies = [] := by
  cases c with
  | clone => exact .inl ⟨rfl, rfl⟩
  | addComponent | addValidation | compute | aggregate => exact .inr rfl

/-- An aggregator that reports what `aggregate` reports under its configuration. -/
structure Agrees (a : Aggregator) : Prop where
  config_ok : a.config.check = .ok ()
  /-- A report of what it gathered. -/
  compute_eq : ∀ now now', a.compute now =
    (ReleaseGate.aggregate a.components a.validations a.config now').map (·.dated now)
  /-- A report of other inputs. -/
  aggregate_eq : ∀ components validations now now', a.aggregate components validations now =
    (ReleaseGate.aggregate components validations a.config now').map (·.dated now)
  compute_ne : ∀ now problem, a.compute now ≠ .error (.configuration problem)
  aggregate_ne : ∀ components validations now problem,
    a.aggregate components validations now ≠ .error (.configuration problem)

/-- All that agreement takes is a configuration without faults. -/
theorem agrees_of_check {a : Aggregator} (h : a.config.check = .ok ()) : a.Agrees := by
  have haggregate (components : List Component) (validations : List Validation)
      (now now' : Instant) : a.aggregate components validations now =
        (ReleaseGate.aggregate components validations a.config now').map (·.dated now) := by
    have hskip : ReleaseGate.aggregate components validations a.config now' =
        checkedReport a.config components validations now' := by
      rw [ReleaseGate.aggregate, h]
      rfl
    rw [hskip]
    exact checkedReport_dated a.config components validations now now'
  have hne (components : List Component) (validations : List Validation) (now : Instant)
      (problem : ConfigProblem) :
      a.aggregate components validations now ≠ .error (.configuration problem) := by
    intro herror
    obtain ⟨_, ⟨⟩⟩ := exists_of_checkedReport_eq_error herror
  exact ⟨h, haggregate a.components a.validations, haggregate,
    hne a.components a.validations, hne⟩

/-! ## All of them -/

/-- All aggregators after a call on the one at a place: its holder keeps that place, and a copy gets
the next free one. -/
def turn (all : List Aggregator) (place : Nat) (c : AggregatorCall) : List Aggregator :=
  match all[place]? with
  | some a => all.set place (a.call c).2 ++ (a.call c).1.copies
  | none => all

/-- All aggregators after calls, each with the place of the one it is made on. -/
def after (all : List Aggregator) (calls : List (Nat × AggregatorCall)) : List Aggregator :=
  calls.foldl (fun all c => turn all c.1 c.2) all

/-- The calls made on the aggregator at a place. -/
def received (place : Nat) (calls : List (Nat × AggregatorCall)) : List AggregatorCall :=
  calls.filterMap fun c => if c.1 = place then some c.2 else none

theorem received_append (place : Nat) (calls calls' : List (Nat × AggregatorCall)) :
    received place (calls ++ calls') = received place calls ++ received place calls' :=
  List.filterMap_append

theorem after_append (all : List Aggregator) (calls calls' : List (Nat × AggregatorCall)) :
    after all (calls ++ calls') = after (after all calls) calls' :=
  List.foldl_append

variable {all : List Aggregator} {a b : Aggregator} {place holder : Nat}

theorem turn_of_some (h : all[holder]? = some b) (c : AggregatorCall) :
    turn all holder c = all.set holder (b.gathered [c]) ++ (b.call c).1.copies := by
  simp only [turn, h, call_snd]

theorem turn_of_none (h : all[holder]? = none) (c : AggregatorCall) : turn all holder c = all := by
  simp only [turn, h]

theorem turn_clone (h : all[holder]? = some b) : turn all holder .clone = all ++ [b] := by
  obtain ⟨hholder, rfl⟩ := List.getElem?_eq_some_iff.mp h
  have hset : all.set holder (all[holder].gathered [.clone]) = all := by
    simp [← call_snd, call]
  rw [turn_of_some h, hset]
  rfl

/-- A call adds to the aggregator that it is made on, and leaves all others alone. -/
theorem getElem?_turn (h : all[place]? = some a) (c : Nat × AggregatorCall) :
    (turn all c.1 c.2)[place]? = some (a.gathered (received place [c])) := by
  obtain ⟨hplace, -⟩ := List.getElem?_eq_some_iff.mp h
  cases hholder : all[c.1]? with
  | none =>
    have hne : c.1 ≠ place := by
      intro heq
      rw [heq, h] at hholder
      cases hholder
    rw [turn_of_none hholder, h]
    simp [received, hne]
  | some b =>
    rw [turn_of_some hholder, List.getElem?_append_left (by simpa using hplace),
      List.getElem?_set]
    by_cases heq : c.1 = place
    · obtain rfl : b = a := Option.some.inj (hholder.symm.trans (heq ▸ h))
      simp [received, heq, hplace]
    · simp [received, heq, h]

/-- An aggregator keeps its place, and gathers what is added there. -/
theorem getElem?_after (h : all[place]? = some a) (calls : List (Nat × AggregatorCall)) :
    (after all calls)[place]? = some (a.gathered (received place calls)) := by
  induction calls generalizing all a with
  | nil => simpa [after, received] using h
  | cons c rest ih =>
    have hrest := ih (getElem?_turn h c)
    rwa [gathered_gathered, ← received_append] at hrest

/-- An aggregator that a call brings is a copy. -/
theorem eq_of_getElem?_turn {c : AggregatorCall} (h : (turn all holder c)[place]? = some a)
    (hnew : all[place]? = none) :
    c = .clone ∧ place = all.length ∧ all[holder]? = some a := by
  have hlength : all.length ≤ place := List.getElem?_eq_none_iff.mp hnew
  cases hholder : all[holder]? with
  | none => simp [turn_of_none hholder, hnew] at h
  | some b =>
    rw [turn_of_some hholder, List.getElem?_append_right (by simpa using hlength)] at h
    rcases copies_call b c with ⟨hclone, hcopies⟩ | hcopies
    · obtain ⟨hindex, hb⟩ : place - all.length = 0 ∧ b = a := by
        simpa [hcopies, List.getElem?_singleton] using h
      exact ⟨hclone, by omega, congrArg some hb⟩
    · simp [hcopies] at h

/-- What is at a place after calls that began with one aggregator. That one gathered what was added
to it. A copy has what its original had when it was copied, and gathered what was added to the copy
from then on. -/
inductive Descends (start : Aggregator) :
    List (Nat × AggregatorCall) → Nat → Aggregator → Prop where
  | first (calls : List (Nat × AggregatorCall)) :
    Descends start calls 0 (start.gathered (received 0 calls))
  | copy (before later : List (Nat × AggregatorCall)) (holder place : Nat) (original : Aggregator)
      (hplace : place = (after [start] before).length)
      (horiginal : (after [start] before)[holder]? = some original) :
    Descends start (before ++ (holder, .clone) :: later) place
      (original.gathered (received place later))

variable {start : Aggregator} {calls : List (Nat × AggregatorCall)}

theorem Descends.concat (h : Descends start calls place a) (c : Nat × AggregatorCall) :
    Descends start (calls ++ [c]) place (a.gathered (received place [c])) := by
  cases h with
  | first =>
    rw [gathered_gathered, ← received_append]
    exact .first (calls ++ [c])
  | copy before later holder _ original hplace horiginal =>
    rw [gathered_gathered, ← received_append, List.append_assoc, List.cons_append]
    exact .copy before (later ++ [c]) holder place original hplace horiginal

/-- The aggregators after calls are the first one and the copies made by then. -/
theorem getElem?_after_eq_some :
    (after [start] calls)[place]? = some a ↔ Descends start calls place a := by
  constructor
  · intro h
    -- Calls are taken from the last one: only that one tells a fresh copy from an old aggregator.
    induction calls using List.reverseRecOn generalizing place a with
    | nil =>
      obtain ⟨hplace, rfl⟩ := List.getElem?_eq_some_iff.mp h
      obtain rfl : place = 0 := by simpa [after] using hplace
      have hfirst : Descends start [] 0 (start.gathered []) := .first []
      rw [gathered_nil] at hfirst
      exact hfirst
    | append_singleton calls c ih =>
      rw [after_append] at h
      cases hold : (after [start] calls)[place]? with
      | some b =>
        have hb := getElem?_turn hold c
        obtain rfl := Option.some.inj (hb.symm.trans h)
        exact (ih hold).concat c
      | none =>
        obtain ⟨hclone, hplace, horiginal⟩ := eq_of_getElem?_turn h hold
        have hcopy := Descends.copy calls [] c.1 place a hplace horiginal
        rw [received, List.filterMap_nil, gathered_nil, ← hclone] at hcopy
        exact hcopy
  · intro h
    cases h with
    | first calls => exact getElem?_after rfl calls
    | copy before later holder place original hplace horiginal =>
      have hcopy : (turn (after [start] before) holder .clone)[place]? = some original := by
        rw [turn_clone horiginal, hplace]
        exact List.getElem?_concat_length
      rw [after_append]
      exact getElem?_after hcopy later

/-- What was added before a copy is in both, and what is added later is in one of them. -/
example (config : ScoringConfig) (c c' : Component) (v : Validation) (now : Instant) :
    after [⟨config, [], []⟩] [(0, .addComponent c), (0, .clone), (1, .addComponent c'),
        (0, .compute now), (0, .addValidation v)] = [⟨config, [c], [v]⟩, ⟨config, [c, c'], []⟩] :=
  rfl

/-- No call changes a configuration. -/
theorem config_turn {config : ScoringConfig} (h : ∀ a ∈ all, a.config = config) (holder : Nat)
    (c : AggregatorCall) : ∀ a ∈ turn all holder c, a.config = config := by
  cases hholder : all[holder]? with
  | none => rwa [turn_of_none hholder]
  | some b =>
    have hb : b.config = config := h b (List.mem_of_getElem? hholder)
    have hcopies : ∀ a ∈ (b.call c).1.copies, a.config = config := by
      rcases copies_call b c with ⟨-, hcopies⟩ | hcopies <;> simp [hcopies, hb]
    rw [turn_of_some hholder, List.forall_mem_append]
    refine ⟨fun a ha => ?_, hcopies⟩
    rcases List.mem_or_eq_of_mem_set ha with ha | rfl
    · exact h a ha
    · exact hb

theorem config_after {config : ScoringConfig} (h : ∀ a ∈ all, a.config = config)
    (calls : List (Nat × AggregatorCall)) : ∀ a ∈ after all calls, a.config = config := by
  induction calls generalizing all with
  | nil => exact h
  | cons c rest ih => exact ih (config_turn h c.1 c.2)

end Aggregator

/-- How a configuration governs the aggregators that are made for it. -/
structure ScoringConfig.Governs (config : ScoringConfig) : Prop where
  /-- An aggregator is made exactly for a configuration without faults. -/
  new_eq_ok : ∀ start, Aggregator.new config = .ok start ↔
    config.check = .ok () ∧ start = ⟨config, [], []⟩
  new_eq_error : ∀ fault, Aggregator.new config = .error fault ↔ config.check = .error fault
  /-- So one is made for whatever a reader returns. -/
  new_loaded : config.Loaded → Aggregator.new config = .ok ⟨config, [], []⟩
  /-- After any calls on it and on its copies, every one of them has the configuration, agrees with
  `aggregate`, and holds what was added to it, in order. -/
  after : ∀ (start : Aggregator), Aggregator.new config = .ok start →
    ∀ (calls : List (Nat × AggregatorCall)) (place : Nat) (a : Aggregator),
      (Aggregator.after [start] calls)[place]? = some a →
        a.config = config ∧ a.Agrees ∧ Aggregator.Descends start calls place a

/-- Every configuration governs its aggregators, and the standard one has the standard
aggregator. -/
theorem scoringConfig_governs (config : ScoringConfig) :
    config.Governs ∧ Aggregator.new .standard = .ok .standard := by
  have hok (config : ScoringConfig) (start : Aggregator) : Aggregator.new config = .ok start ↔
      config.check = .ok () ∧ start = ⟨config, [], []⟩ := by
    rw [Aggregator.new, seq_eq_ok]
    refine and_congr_right fun _ => ⟨fun h => (Except.ok.inj h).symm, ?_⟩
    rintro rfl
    rfl
  refine ⟨?_, (hok _ _).mpr ⟨ScoringConfig.check_standard, rfl⟩⟩
  constructor
  case new_eq_ok => exact hok config
  case new_eq_error =>
    intro fault
    rw [Aggregator.new, seq_eq_error]
    simp [pure, Except.pure]
  case new_loaded => exact fun hloaded => (hok _ _).mpr ⟨hloaded.check_eq_ok, rfl⟩
  case after =>
    intro start hstart calls place a ha
    obtain ⟨hcheck, hempty⟩ := (hok config start).mp hstart
    have hconfig : a.config = config := by
      refine Aggregator.config_after (fun b hb => ?_) calls a (List.mem_of_getElem? ha)
      rw [List.mem_singleton.mp hb, hempty]
    exact ⟨hconfig, Aggregator.agrees_of_check (hconfig ▸ hcheck),
      Aggregator.getElem?_after_eq_some.mp ha⟩

end ReleaseGate

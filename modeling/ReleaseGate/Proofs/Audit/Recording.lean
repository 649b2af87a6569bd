import ReleaseGate.Proofs.Audit.TrailRuns
import ReleaseGate.Proofs.Policy.HookIndependence
import ReleaseGate.Proofs.Policy.Setup
import ReleaseGate.Time.Epoch

/-!
# Recorded passes

An engine may have several recorders of one trail among the hooks behind its passes. Every pass then
leaves as many events as there are recorders, one after the other, and each of them says what the
caller of the pass was told. What else the engine does, and how its hooks end, makes no difference
as long as only the recorders touch the trail.

* `Engine.RecordedBy`: an engine with a number of recorders of a trail.
* `inv_check`: what one pass adds to the trail.
* `Trail.Tells`: a trail that tells of some passes; `checks_recorded`: it tells of every run.
-/

namespace ReleaseGate

variable {σ : Type}

/-! ## Recorders -/

namespace Trail

/-- An access that finds the trail that it put, and whose stamps leave the trail alone. -/
structure Access.Lawful (access : Access σ) : Prop where
  get_set : ∀ trail s, access.get (access.set trail s) = trail
  get_stamp : ∀ s, access.get (access.stamp.run s).2 = access.get s

/-- Hooks behind a pass: `k` of them are recorders of a trail, the others leave it alone. -/
inductive Recorders (access : Access σ) :
    Nat → List (Context → List Verdict → StateM σ (Ending Unit)) → Prop where
  | nil : Recorders access 0 []
  | recorder {k : Nat} {run : Context → List Verdict → StateM σ (Ending Unit)}
      {rest : List (Context → List Verdict → StateM σ (Ending Unit))} :
      recorder access = .postEvaluate run → Recorders access k rest →
      Recorders access (k + 1) (run :: rest)
  | other {k : Nat} {run : Context → List Verdict → StateM σ (Ending Unit)}
      {rest : List (Context → List Verdict → StateM σ (Ending Unit))} :
      (∀ ctx verdicts, Keeps access.get (run ctx verdicts)) → Recorders access k rest →
      Recorders access k (run :: rest)

/-- A recorder appends a record of the pass, and does nothing else to the trail. -/
theorem get_recorder {access : Access σ} (h : access.Lawful)
    {run : Context → List Verdict → StateM σ (Ending Unit)}
    (hrun : recorder access = .postEvaluate run) (ctx : Context) (verdicts : List Verdict) (s : σ) :
    ∃ stamp, access.get ((run ctx verdicts).run s).2 =
      ((access.get s).call (.append (.ofPass stamp ctx verdicts))).2 := by
  obtain rfl := Hook.postEvaluate.inj hrun
  obtain ⟨stamp, s', hstamp⟩ : ∃ stamp s', access.stamp.run s = (stamp, s') := ⟨_, _, rfl⟩
  have hget : access.get s' = access.get s := by rw [← h.get_stamp s, hstamp]
  refine ⟨stamp, ?_⟩
  have hrest : ∀ next : Stamp → StateM σ (Ending Unit),
      (access.stamp >>= next).run s = (next stamp).run s' := by
    intro next
    rw [StateT.run_bind, hstamp]
    rfl
  rw [hrest, call, ← hget]
  cases happend : (access.get s').append (.ofPass stamp ctx verdicts) with
  | ok trail =>
    simp only [StateT.run_bind, StateT.run_get, pure_bind, happend]
    exact h.get_set trail s'
  | error fault =>
    simp only [StateT.run_bind, StateT.run_get, pure_bind, happend]
    rfl

variable {access : Access σ} {k : Nat} {id : String} {records : List EvaluationRecord}

/-- The hooks behind a pass leave one record of the pass for each recorder among them. -/
theorem inv_afterRecorders (h : access.Lawful)
    {runs : List (Context → List Verdict → StateM σ (Ending Unit))}
    (hruns : Recorders access k runs) (ctx : Context) (verdicts : List Verdict) {s : σ}
    (hinv : (access.get s).Inv id records) (hopen : (access.get s).crashed = false) :
    ∃ block : List EvaluationRecord, block.length = k ∧
      (∀ record ∈ block, ∃ stamp, record = .ofPass stamp ctx verdicts) ∧
      (access.get (afterHooks (runs.map fun run => run ctx verdicts) s)).Inv id
        (records ++ block) ∧
      (access.get (afterHooks (runs.map fun run => run ctx verdicts) s)).crashed = false := by
  induction hruns generalizing s records with
  | nil => exact ⟨[], rfl, List.forall_mem_nil _, by rwa [List.append_nil], hopen⟩
  | @recorder k run rest hrun _ ih =>
    obtain ⟨stamp, hstep⟩ := get_recorder h hrun ctx verdicts s
    have hinv' : (access.get ((run ctx verdicts).run s).2).Inv id
        (records ++ [.ofPass stamp ctx verdicts]) := by
      rw [hstep]
      exact hinv.step hopen _
    have hopen' : (access.get ((run ctx verdicts).run s).2).crashed = false := by
      rw [hstep]
      exact crashed_call hopen nofun
    obtain ⟨block, hlength, hblock, hrest⟩ := ih hinv' hopen'
    refine ⟨.ofPass stamp ctx verdicts :: block, by rw [List.length_cons, hlength], ?_, ?_⟩
    · intro record hrecord
      rcases List.mem_cons.mp hrecord with rfl | hrecord
      · exact ⟨stamp, rfl⟩
      · exact hblock record hrecord
    · rwa [List.append_assoc] at hrest
  | @other k run rest hkeep _ ih =>
    have hget := hkeep ctx verdicts s
    exact ih (s := ((run ctx verdicts).run s).2) (by rwa [hget]) (by rwa [hget])

end Trail

/-! ## Passes -/

/-- An engine on which a number of recorders of a trail are subscribed, while nothing else in it
touches the trail. -/
structure Engine.RecordedBy (engine : Engine σ) (access : Trail.Access σ) (k : Nat) : Prop where
  lawful : access.Lawful
  policies : ∀ policy ∈ engine.enabledPolicies, ∀ ctx s,
    access.get ((policy.evaluate ctx).run s).2 = access.get s
  hooks : engine.hooks.Keep access.get
  recorders : Trail.Recorders access k engine.hooks.postEvaluate

namespace Engine

variable {τ : Type} {view : σ → τ}

/-- Policies and hooks that leave a view alone leave it alone together. -/
theorem view_steps {hooks : Hooks σ} (hhooks : hooks.Keep view) (ctx : Context)
    {policies : List (Policy σ)}
    (h : ∀ policy ∈ policies, ∀ s, view ((policy.evaluate ctx).run s).2 = view s) (s : σ) :
    view ((steps hooks ctx policies).run s).2 = view s := by
  induction policies generalizing s with
  | nil => rfl
  | cons policy rest ih =>
    obtain ⟨hpolicy, hrest⟩ := List.forall_mem_cons.mp h
    have hverdict : view ((verdictOf policy ctx).run s).2 = view s := by
      by_cases hblank : ctx.Blank
      · rw [run_verdictOf_of_error (Context.check_of_blank hblank)]
      · obtain ⟨verdict, -, hrun⟩ := run_verdictOf (Context.check_of_not_blank hblank) policy s
        rw [hrun, hpolicy]
    rw [run_steps_cons, ih hrest, run_step, view_afterHooks (hhooks.concerned ctx policy _),
      hverdict]

end Engine

namespace Engine.RecordedBy

variable {engine : Engine σ} {access : Trail.Access σ} {k : Nat} {id : String}
  {records : List EvaluationRecord}

/-- Until its verdicts are there, a pass leaves the trail alone. -/
theorem get_passed (h : engine.RecordedBy access k) (ctx : Context) (s : σ) :
    access.get (engine.passed ctx s).2 = access.get s := by
  rw [passed, view_steps h.hooks ctx fun policy hpolicy => h.policies policy hpolicy ctx]
  refine view_afterHooks (fun hook hhook => ?_) s
  obtain ⟨run, hrun, rfl⟩ := List.mem_map.mp hhook
  exact h.hooks.preEvaluate run hrun ctx

/-- A pass adds one record of itself for each recorder. -/
theorem inv_check (h : engine.RecordedBy access k) (ctx : Context) {s : σ}
    (hinv : (access.get s).Inv id records) (hopen : (access.get s).crashed = false) :
    ∃ block : List EvaluationRecord, block.length = k ∧
      (∀ record ∈ block, ∃ stamp,
        record = .ofPass stamp ctx ((engine.check ctx).run s).1.verdicts) ∧
      (access.get ((engine.check ctx).run s).2).Inv id (records ++ block) ∧
      (access.get ((engine.check ctx).run s).2).crashed = false := by
  have hrun : (engine.check ctx).run s =
      (.ofVerdicts ((engine.evaluate ctx).run s).1, ((engine.evaluate ctx).run s).2) := rfl
  have hget := h.get_passed ctx s
  rw [hrun, run_evaluate]
  exact Trail.inv_afterRecorders h.lawful h.recorders ctx _ (by rwa [hget]) (by rwa [hget])

end Engine.RecordedBy

/-! ## Runs -/

/-- Records that tell `k` times of each of some passes, of the first pass first. -/
structure RecordsOf (k : Nat) (ctxs : List Context) (outcomes : List Outcome)
    (records : List EvaluationRecord) : Prop where
  outcomes_length : outcomes.length = ctxs.length
  length : records.length = ctxs.length * k
  contexts : records.map (·.context) = ctxs.flatMap (List.replicate k)
  block : ∀ (j : Nat) (ctx : Context) (outcome : Outcome), ctxs[j]? = some ctx →
    outcomes[j]? = some outcome → ∀ i < k, ∃ record, records[j * k + i]? = some record ∧
      record.context = ctx ∧ record.verdicts = outcome.verdicts ∧ record.allowed = outcome.allowed
  denied : records.countP (!·.allowed) = k * outcomes.countP (!·.allowed)

theorem recordsOf_nil (k : Nat) : RecordsOf k [] [] [] where
  outcomes_length := rfl
  length := (Nat.zero_mul k).symm
  contexts := rfl
  block j ctx outcome hctx := by simp at hctx
  denied := rfl

/-- Records of one pass are all denials or none. -/
theorem countP_denied {block : List EvaluationRecord} {outcome : Outcome}
    (h : ∀ record ∈ block, record.allowed = outcome.allowed) :
    block.countP (!·.allowed) = block.length * [outcome].countP (!·.allowed) := by
  have hcount : block.countP (!·.allowed) = block.countP fun _ => !outcome.allowed :=
    List.countP_congr fun record hrecord => by rw [h record hrecord]
  cases hallowed : outcome.allowed with
  | true => simp [hcount, hallowed]
  | false => simp [hcount, hallowed]

/-- One more pass, with its records behind all others. -/
theorem RecordsOf.concat {k : Nat} {ctxs : List Context} {outcomes : List Outcome}
    {records block : List EvaluationRecord} (h : RecordsOf k ctxs outcomes records) {ctx : Context}
    {outcome : Outcome} (hlength : block.length = k) (hblock : ∀ record ∈ block,
      record.context = ctx ∧ record.verdicts = outcome.verdicts ∧
        record.allowed = outcome.allowed) :
    RecordsOf k (ctxs ++ [ctx]) (outcomes ++ [outcome]) (records ++ block) where
  outcomes_length := by simp [h.outcomes_length]
  length := by simp [h.length, hlength, Nat.add_mul]
  contexts := by
    have hcontexts : block.map (·.context) = List.replicate k ctx := by
      refine List.eq_replicate_iff.mpr ⟨by rw [List.length_map, hlength], ?_⟩
      rw [List.forall_mem_map]
      exact fun record hrecord => (hblock record hrecord).1
    rw [List.map_append, h.contexts, hcontexts, List.flatMap_append, List.flatMap_singleton]
  block j ctx' outcome' hctx houtcome i hi := by
    rcases Nat.lt_trichotomy j ctxs.length with hlt | rfl | hgt
    · have hindex : j * k + i < records.length := by
        have := Nat.mul_le_mul_right k (Nat.succ_le_of_lt hlt)
        rw [h.length]
        rw [Nat.succ_mul] at this
        omega
      rw [List.getElem?_append_left hlt] at hctx
      rw [List.getElem?_append_left (by rw [h.outcomes_length]; exact hlt)] at houtcome
      rw [List.getElem?_append_left hindex]
      exact h.block j ctx' outcome' hctx houtcome i hi
    · rw [List.getElem?_concat_length, Option.some.injEq] at hctx
      rw [← h.outcomes_length, List.getElem?_concat_length, Option.some.injEq] at houtcome
      have hi' : i < block.length := hlength.symm ▸ hi
      refine ⟨block[i], ?_, hctx ▸ houtcome ▸ hblock _ (List.getElem_mem hi')⟩
      rw [← h.length, List.getElem?_append_right (Nat.le_add_right _ _), Nat.add_sub_cancel_left,
        List.getElem?_eq_getElem hi']
    · rw [List.getElem?_eq_none (by rw [List.length_append, List.length_singleton]; omega)] at hctx
      cases hctx
  denied := by
    have hallowed := countP_denied fun record hrecord => (hblock record hrecord).2.2
    rw [List.countP_append, List.countP_append, h.denied, hallowed, hlength, Nat.mul_add]

theorem run_mapM_concat {α β : Type} (f : α → StateM σ β) (xs : List α) (x : α) (s : σ) :
    ((xs ++ [x]).mapM f).run s =
      (((xs.mapM f).run s).1 ++ [((f x).run ((xs.mapM f).run s).2).1],
        ((f x).run ((xs.mapM f).run s).2).2) := by
  rw [List.mapM_append, List.mapM_cons, List.mapM_nil]
  rfl

/-- After any passes of an engine with `k` recorders, the trail holds `k` records of each, behind
those that it held before. -/
theorem inv_checks {engine : Engine σ} {access : Trail.Access σ} {k : Nat}
    (h : engine.RecordedBy access k) {id : String} {earlier : List EvaluationRecord} {s : σ}
    (hinv : (access.get s).Inv id earlier) (hopen : (access.get s).crashed = false)
    (ctxs : List Context) : ∃ records,
      RecordsOf k ctxs ((ctxs.mapM engine.check).run s).1 records ∧
      (access.get ((ctxs.mapM engine.check).run s).2).Inv id (earlier ++ records) ∧
      (access.get ((ctxs.mapM engine.check).run s).2).crashed = false := by
  induction ctxs using List.reverseRecOn with
  | nil =>
    rw [List.mapM_nil, StateT.run_pure]
    exact ⟨[], recordsOf_nil k, by rwa [List.append_nil], hopen⟩
  | append_singleton ctxs ctx ih =>
    obtain ⟨records, hrecords, hinv, hopen⟩ := ih
    obtain ⟨block, hlength, hblock, hinv', hopen'⟩ := h.inv_check ctx hinv hopen
    rw [run_mapM_concat]
    refine ⟨records ++ block, hrecords.concat hlength fun record hrecord => ?_,
      by rwa [← List.append_assoc], hopen'⟩
    obtain ⟨stamp, rfl⟩ := hblock record hrecord
    exact ⟨rfl, rfl, rfl⟩

/-- A trail that tells `k` times of each of some passes over contexts, with these outcomes. -/
structure Trail.Tells (trail : Trail) (k : Nat) (ctxs : List Context) (outcomes : List Outcome) :
    Prop where
  length_outcomes : outcomes.length = ctxs.length
  size : trail.size = ctxs.length * k
  /-- The events of pass `j` are those from `j * k` to `j * k + k - 1`. Each of them says what the
  pass was about, which verdicts it returned, and whether it allowed the action. -/
  events : ∀ (j : Nat) (ctx : Context) (outcome : Outcome), ctxs[j]? = some ctx →
    outcomes[j]? = some outcome → ∀ i < k, ∃ e, trail.events[j * k + i]? = some e ∧
      e.record.context = ctx ∧ e.record.verdicts = outcome.verdicts ∧
      e.record.allowed = outcome.allowed
  /-- The exported log counts every denied pass `k` times. -/
  deniedCount : ∀ now, ∃ log, trail.exportLog now = .ok log ∧ log.events = trail.events ∧
    log.deniedCount = k * outcomes.countP (!·.allowed)
  verify : trail.verify = true

/-- If a trail is recorded to by `k` hooks of an engine, and by nothing else, then after any passes
it tells `k` times of each of them, of what their callers were told. -/
theorem checks_recorded {engine : Engine σ} {access : Trail.Access σ} {k : Nat}
    (h : engine.RecordedBy access k) {id : String} {s : σ} (hfresh : access.get s = .new id)
    (ctxs : List Context) : (access.get ((ctxs.mapM engine.check).run s).2).Tells k ctxs
      ((ctxs.mapM engine.check).run s).1 := by
  have hnew : (access.get s).Inv id [] ∧ (access.get s).crashed = false := by
    rw [hfresh]
    exact ⟨Trail.inv_new id, rfl⟩
  obtain ⟨records, hrecords, hinv, hopen⟩ := inv_checks h hnew.1 hnew.2 ctxs
  rw [List.nil_append] at hinv
  generalize access.get ((ctxs.mapM engine.check).run s).2 = trail at hinv hopen
  have hlength : trail.events.length = records.length := by
    rw [← hinv.records_eq, List.length_map]
  refine ⟨hrecords.outcomes_length, hlength.trans hrecords.length, ?_, fun now => ?_, ?_⟩
  · intro j ctx outcome hctx houtcome i hi
    obtain ⟨record, hrecord, hsays⟩ := hrecords.block j ctx outcome hctx houtcome i hi
    rw [← hinv.records_eq, List.getElem?_map, Option.map_eq_some_iff] at hrecord
    obtain ⟨e, he, rfl⟩ := hrecord
    exact ⟨e, he, hsays⟩
  · refine ⟨⟨trail.id, trail.events, now, trail.terminalHash⟩, ?_, rfl, ?_⟩
    · rw [Trail.exportLog, hopen, if_neg Bool.false_ne_true]
    · rw [← hrecords.denied, ← hinv.records_eq, List.countP_map]
      rfl
  · rw [Trail.verify, hopen, hinv.chain]
    rfl

/-- A trail as all the surroundings that there are, with a clock that stands still. -/
def Trail.alone : Trail.Access Trail where
  get trail := trail
  set trail _ := trail
  stamp := pure ⟨.ofNat 7, .ofClock 0⟩

/-- An engine whose policy crashes and whose hooks fail and crash, with two recorders among them. -/
def crashingEngine : Engine Trail := .setUp
  [.register ⟨"broken", .security, fun _ => pure (.crashed .other)⟩, .register .audit,
    .setEnabled auditRuleId false, .subscribe (.preEvaluate fun _ => pure (.crashed .other)),
    .subscribe (Trail.recorder Trail.alone),
    .subscribe (.postEvaluate fun _ _ => pure (.failed (.unknownPolicy "broken"))),
    .subscribe (Trail.recorder Trail.alone)]

theorem recordedBy_crashingEngine : crashingEngine.RecordedBy Trail.alone 2 where
  lawful := ⟨fun _ _ => rfl, fun _ => rfl⟩
  policies policy hpolicy ctx s := by
    have hpolicies : crashingEngine.enabledPolicies =
      [⟨"broken", .security, fun _ => pure (.crashed .other)⟩] := rfl
    rw [hpolicies, List.mem_singleton] at hpolicy
    rw [hpolicy]
    rfl
  hooks := by
    refine ⟨fun run hrun ctx s => ?_, nofun, nofun⟩
    have hhooks : crashingEngine.hooks.preEvaluate = [fun _ => pure (.crashed .other)] := rfl
    rw [hhooks, List.mem_singleton] at hrun
    rw [hrun]
    rfl
  recorders := .recorder rfl (.other (fun _ _ _ => rfl) (.recorder rfl .nil))

/-- A request, and one without an action. -/
def twoRequests : List Context := ["deploy", " "].map fun action =>
  { actor := "ci", action, resource := "repository", timestamp := .ofClock 0 }

theorem checks_recorded_crashingEngine : crashingEngine.RecordedBy Trail.alone 2 ∧
    Trail.alone.get (.new "trail") = .new "trail" ∧
    (Trail.alone.get ((twoRequests.mapM crashingEngine.check).run (.new "trail")).2).Tells 2
      twoRequests ((twoRequests.mapM crashingEngine.check).run (.new "trail")).1 :=
  ⟨recordedBy_crashingEngine, rfl, checks_recorded recordedBy_crashingEngine rfl twoRequests⟩

end ReleaseGate

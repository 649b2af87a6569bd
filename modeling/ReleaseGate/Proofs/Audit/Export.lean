import ReleaseGate.Evidence.Bundle
import ReleaseGate.Proofs.Audit.Recording
import ReleaseGate.Proofs.Json.Records

/-!
# Exported logs read back

A bundle holds the log of a trail as JSON. Whoever reads that file finds the log as it was exported,
and its chain unbroken. Two things stand in the way, and nothing else: a score that is not finite is
null in the file, and a reader goes down 127 levels at most. Either makes the file unreadable; a
different log is never read from it.

* `AuditLog.Encoding`: the texts of a log.
* `AuditLog.ReadsBack`: a log that reads back under a condition.
* `AuditLog.depth_content_le_iff`: how deep a log nests, from what callers and policies put in it.
* `exportLog_readsBack`: the log of a trail that an engine records its passes to.
-/

namespace ReleaseGate

/-! ## Texts of a log -/

namespace AuditLog

/-- The texts of a log: one line of JSON, and the file in a bundle. -/
inductive Encoding (log : AuditLog) : String → Prop where
  | oneLine : log.Encoding (Json.compactText log.content)
  | bundled {r : Report} {text : String} :
      ("audit_log.json", text) ∈ bundleFiles r (some log) → log.Encoding text

variable {log : AuditLog} {text : String}

theorem eq_prettyText_of_mem_bundleFiles {r : Report}
    (h : ("audit_log.json", text) ∈ bundleFiles r (some log)) :
    text = Json.prettyText log.content := by
  simpa [bundleFiles] using h

/-- What is read from a text of a log is the log. -/
theorem Encoding.decodeText_iff (h : log.Encoding text) {read : AuditLog} :
    decodeText AuditLog.read? text = some read ↔
      log.Finite ∧ log.content.depth ≤ Json.deepest ∧ read = log := by
  cases h with
  | oneLine => rw [decodeText_compactText, decodes_auditLog.iff]
  | bundled h =>
    rw [eq_prettyText_of_mem_bundleFiles h, decodeText_prettyText, decodes_auditLog.iff]

/-- A log that reads back, as a chain, if a condition holds and it does not nest too deep. Otherwise
its texts are refused. -/
structure ReadsBack (log : AuditLog) (condition : Prop) : Prop where
  intact : condition → log.content.depth ≤ Json.deepest → ∀ text, log.Encoding text →
    decodeText AuditLog.read? text = some log
  verifies : ∀ text, log.Encoding text → ∀ read, decodeText AuditLog.read? text = some read →
    verifyChain read.events = true
  refused : ¬ condition ∨ Json.deepest < log.content.depth → ∀ text, log.Encoding text →
    decodeText AuditLog.read? text = none

/-- A chain reads back if its scores are finite. -/
theorem readsBack_of_verifyChain (h : verifyChain log.events = true) :
    log.ReadsBack log.Finite where
  intact hfinite hdepth _ htext := htext.decodeText_iff.mpr ⟨hfinite, hdepth, rfl⟩
  verifies _ htext read hread := by
    obtain ⟨-, -, rfl⟩ := htext.decodeText_iff.mp hread
    exact h
  refused hbad _ htext := by
    refine Option.eq_none_iff_forall_ne_some.mpr fun read hread => ?_
    obtain ⟨hfinite, hdepth, -⟩ := htext.decodeText_iff.mp hread
    rcases hbad with hbad | hbad
    · exact hbad hfinite
    · exact Nat.not_le.mpr hbad hdepth

/-- A log nests within 127 levels as long as the metadata that callers give nest within 122, and the
evidence that policies give within 121. -/
theorem depth_content_le_iff : log.content.depth ≤ Json.deepest ↔
    ∀ e ∈ log.events, e.record.context.metadata.content.depth ≤ 122 ∧
      ∀ v ∈ e.record.verdicts, v.evidence.content.depth ≤ 121 := by
  have hverdict : ∀ v : Verdict, v.content.depth = v.evidence.content.depth + 1 := fun v => by
    simp [Verdict.content, Content.depth, Content.fieldsDepth]
  have hcontext : ∀ ctx : Context, ctx.content.depth = ctx.metadata.content.depth + 1 := by
    intro ctx
    simp [Context.content, Context.request, Context.circumstances, Content.depth,
      Content.fieldsDepth]
  have hevent : ∀ e : AuditEvent, e.content.depth ≤ 125 ↔
      e.record.context.metadata.content.depth ≤ 122 ∧
        ∀ v ∈ e.record.verdicts, v.evidence.content.depth ≤ 121 := fun e => by
    have hverdicts : Content.itemsDepth (e.record.verdicts.map Verdict.content) ≤ 122 ↔
        ∀ v ∈ e.record.verdicts, v.evidence.content.depth ≤ 121 := by
      simp only [Content.itemsDepth_le_iff, List.forall_mem_map, hverdict, Nat.reduceLeDiff]
    rw [← hverdicts]
    simp only [AuditEvent.content, EvaluationRecord.content, Content.depth, Content.fieldsDepth,
      hcontext]
    omega
  have hevents : Content.itemsDepth (log.events.map AuditEvent.content) ≤ 125 ↔
      ∀ e ∈ log.events, e.content.depth ≤ 125 := by
    rw [Content.itemsDepth_le_iff, List.forall_mem_map]
  simp only [← hevent, ← hevents]
  simp only [AuditLog.content, AuditLog.chainFields, List.cons_append, List.nil_append,
    Json.deepest, Content.depth, Content.fieldsDepth]
  omega

end AuditLog

/-! ## Trails of engines -/

variable {σ : Type}

/-- Whether passes are only evaluated or checked makes no difference to what they leave behind. -/
theorem run_mapM_evaluate (engine : Engine σ) (ctxs : List Context) (s : σ) :
    ((ctxs.mapM engine.evaluate).run s).2 = ((ctxs.mapM engine.check).run s).2 := by
  induction ctxs using List.reverseRecOn with
  | nil => rfl
  | append_singleton ctxs ctx ih =>
    rw [run_mapM_concat, run_mapM_concat, ih]
    rfl

theorem forall_finite_iff {records : List EvaluationRecord} : (∀ record ∈ records, record.Finite) ↔
    ∀ ctx ∈ records.map (·.context), ctx.Finite := by
  simp [EvaluationRecord.Finite]

/-- The log of an open trail after passes of an engine that records to it: all passes are there, and
the log reads back if the scores are finite. -/
theorem Engine.RecordedBy.exportLog {engine : Engine σ} {access : Trail.Access σ} {k : Nat}
    (h : engine.RecordedBy access k) (hk : 0 < k) {id : String} {earlier : List EvaluationRecord}
    {s : σ} (hinv : (access.get s).Inv id earlier) (hopen : (access.get s).crashed = false)
    (ctxs : List Context) (now : Instant) :
    ∃ log, (access.get ((ctxs.mapM engine.evaluate).run s).2).exportLog now = .ok log ∧
      log.events.map (·.record.context) =
        earlier.map (·.context) ++ ctxs.flatMap (List.replicate k) ∧
      verifyChain log.events = true ∧
      log.ReadsBack ((∀ record ∈ earlier, record.Finite) ∧ ∀ ctx ∈ ctxs, ctx.Finite) := by
  obtain ⟨added, hadded, hinv', hopen'⟩ := inv_checks h hinv hopen ctxs
  rw [run_mapM_evaluate]
  generalize access.get ((ctxs.mapM engine.check).run s).2 = trail at hinv' hopen'
  let log : AuditLog := ⟨trail.id, trail.events, now, trail.terminalHash⟩
  have hrecords : log.events.map (·.record) = earlier ++ added := hinv'.records_eq
  have hlog : log.events.map (·.record.context) =
      earlier.map (·.context) ++ ctxs.flatMap (List.replicate k) := by
    rw [← hadded.contexts, ← List.map_append, ← hrecords, List.map_map]
    rfl
  have hfinite : log.Finite ↔
      (∀ record ∈ earlier, record.Finite) ∧ ∀ ctx ∈ ctxs, ctx.Finite := by
    have hevents : log.Finite ↔ ∀ ctx ∈ log.events.map (·.record.context), ctx.Finite := by
      simp [AuditLog.Finite, AuditEvent.Finite, EvaluationRecord.Finite]
    rw [hevents, hlog, List.forall_mem_append, ← forall_finite_iff]
    simp [Nat.pos_iff_ne_zero.mp hk]
  refine ⟨log, ?_, hlog, hinv'.chain, ?_⟩
  · rw [Trail.exportLog, hopen', if_neg Bool.false_ne_true]
  · rw [← hfinite]
    exact AuditLog.readsBack_of_verifyChain hinv'.chain

/-- An engine records its passes to a trail that holds what was appended before. The log that the
trail exports afterwards reads back if the scores in the earlier records are finite, and those of
all contexts that were passed. -/
theorem exportLog_readsBack {engine : Engine σ} {access : Trail.Access σ} {k : Nat}
    (h : engine.RecordedBy access k) (hk : 0 < k) {id : String} {calls : List (Nat × TrailCall)}
    (hcalls : ∀ turn ∈ calls, turn.2 ≠ .crash) {s : σ}
    (hstart : access.get s = (Trail.new id).after calls) (ctxs : List Context) (now : Instant) :
    ∃ log, (access.get ((ctxs.mapM engine.evaluate).run s).2).exportLog now = .ok log ∧
      log.ReadsBack ((∀ record ∈ calls.filterMap (·.2.record?), record.Finite) ∧
        ∀ ctx ∈ ctxs, ctx.Finite) := by
  obtain ⟨hinv, hopen⟩ := Trail.inv_after id hcalls
  rw [← hstart] at hinv hopen
  obtain ⟨log, hlog, -, -, hreads⟩ := h.exportLog hk hinv hopen ctxs now
  exact ⟨log, hlog, hreads⟩

/-- The trail of an engine with crashing parts, after passes over these contexts. -/
def crashingTrail (ctxs : List Context) : Trail :=
  Trail.alone.get ((ctxs.mapM crashingEngine.evaluate).run (.new "trail")).2

/-- A request with this score and these metadata. -/
def requestWith (score : Binary64) (metadata : Facts) : Context :=
  { actor := "ci", action := "deploy", resource := "repository", timestamp := .ofClock 0,
    metadata, currentScore := score }

/-- Null within lists, as many as are asked for. -/
def nestedNull : Nat → Json.Value
  | 0 => .null
  | n + 1 => .array [nestedNull n]

theorem ordered_nestedNull (n : Nat) : (nestedNull n).Ordered := by
  induction n with
  | zero => trivial
  | succ n ih => exact ⟨ih, trivial⟩

theorem depth_nestedNull (n : Nat) : (Content.ofValue (nestedNull n)).depth = n := by
  induction n with
  | zero => rfl
  | succ n ih =>
    simp [nestedNull, Content.ofValue, Content.ofItems, Content.depth, Content.itemsDepth, ih]

/-- A fact that nests. -/
def nestedFacts (n : Nat) : Facts := Facts.empty.insert "plan" (nestedNull n) (ordered_nestedNull n)

theorem depth_nestedFacts (n : Nat) : (nestedFacts n).content.depth = n + 1 := by
  show (Content.record [("plan", .ofValue (nestedNull n))]).depth = n + 1
  simp [Content.depth, Content.fieldsDepth, depth_nestedNull]

/-- A request whose score is not a number and one whose metadata nest too deep are both recorded and
exported, and no text of either log can be read. -/
theorem exportLog_unreadable :
    (∃ log, (crashingTrail [requestWith .nan .empty]).exportLog (.ofClock 0) = .ok log ∧
      verifyChain log.events = true ∧
      ∀ text, log.Encoding text → decodeText AuditLog.read? text = none) ∧
    ∃ log, (crashingTrail [requestWith 0 (nestedFacts 122)]).exportLog (.ofClock 0) = .ok log ∧
      verifyChain log.events = true ∧
      ∀ text, log.Encoding text → decodeText AuditLog.read? text = none := by
  have hexport := fun ctx => recordedBy_crashingEngine.exportLog two_pos (s := .new "trail")
    (Trail.inv_new "trail") rfl [ctx] (.ofClock 0)
  constructor
  · obtain ⟨log, hlog, -, hchain, hreads⟩ := hexport (requestWith .nan .empty)
    refine ⟨log, hlog, hchain, hreads.refused (.inl fun hfinite => ?_)⟩
    exact Bool.false_ne_true (hfinite.2 _ List.mem_cons_self)
  · obtain ⟨log, hlog, hcontexts, hchain, hreads⟩ := hexport (requestWith 0 (nestedFacts 122))
    refine ⟨log, hlog, hchain, hreads.refused (.inr (Nat.not_le.mp fun hdepth => ?_))⟩
    obtain ⟨e, he, hcontext⟩ :
        ∃ e ∈ log.events, e.record.context = requestWith 0 (nestedFacts 122) :=
      List.mem_map.mp (hcontexts ▸ List.mem_cons_self)
    have hmetadata := (AuditLog.depth_content_le_iff.mp hdepth e he).1
    rw [hcontext, requestWith, depth_nestedFacts] at hmetadata
    omega

/-- Calls that append a record before an engine makes any. -/
def earlierCalls : List (Nat × TrailCall) :=
  [(0, .append (.ofPass ⟨.ofNat 7, .ofClock 0⟩ (requestWith 0 .empty) []))]

/-- The engine with crashing parts, on a trail that has a record already. -/
theorem exportLog_readsBack_crashingEngine : crashingEngine.RecordedBy Trail.alone 2 ∧ 0 < 2 ∧
    (∀ turn ∈ earlierCalls, turn.2 ≠ .crash) ∧
    ∃ log, (Trail.alone.get ((twoRequests.mapM crashingEngine.evaluate).run
        ((Trail.new "trail").after earlierCalls)).2).exportLog (.ofClock 0) = .ok log ∧
      log.content.depth ≤ Json.deepest ∧
      ∀ text, log.Encoding text → decodeText AuditLog.read? text = some log := by
  have hzero : (0 : Binary64).isFinite = true := by decide +kernel
  have hcalls : ∀ turn ∈ earlierCalls, turn.2 ≠ .crash := by simp [earlierCalls]
  refine ⟨recordedBy_crashingEngine, two_pos, hcalls, ?_⟩
  have hstart : Trail.alone.get ((Trail.new "trail").after earlierCalls) =
      (Trail.new "trail").after earlierCalls := rfl
  obtain ⟨log, hlog, hreads⟩ := exportLog_readsBack recordedBy_crashingEngine two_pos hcalls hstart
    twoRequests (.ofClock 0)
  have hdepth : log.content.depth ≤ Json.deepest := by
    obtain rfl := Except.ok.inj hlog
    decide +kernel
  refine ⟨log, hlog, hdepth, hreads.intact ⟨?_, ?_⟩ hdepth⟩
  · intro record hrecord
    obtain rfl := List.mem_singleton.mp hrecord
    exact hzero
  · intro ctx hctx
    obtain ⟨action, -, rfl⟩ := List.mem_map.mp hctx
    exact hzero

end ReleaseGate

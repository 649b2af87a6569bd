import Mathlib.Tactic.MkIffOfInductiveProp
import ReleaseGate.Audit.Chain
import ReleaseGate.Policy.Config
import ReleaseGate.Proofs.Json.Reading
import ReleaseGate.Proofs.Json.Values
import ReleaseGate.Proofs.Text.Stamps
import ReleaseGate.Scoring.Config

/-!
# Records read back

Every record of the library is an exact pair of a writer and a reader: its fields are, and they are
looked up by the keys that they are written under. What a record cannot carry is a number that is
not finite, because JSON writes it as null and no reader takes null for a number.

* `Component.Finite`, `Report.Finite`, ...: the numbers of a record that have to be finite.
* `decodes_component`, `decodes_report`, ...: each record, from its fields.
* `RoundTrips`: what an exact pair comes to for whole texts.
* `json_roundTrips`: every record goes to JSON and back, on one line and on many.
-/

namespace ReleaseGate

open Json (Node)

/-! ## Reports and what they are made from -/

/-- All signals are finite. -/
def Component.Finite (c : Component) : Prop := ∀ d ∈ c.dimensions, d.2.isFinite = true

theorem decodes_component :
    Decodes Component.content (Component.read? (ν := Node)) Component.Finite :=
  decodes_record Component.keys (by decide) (fun _ => .refl _) fun c room w => by
    cases c
    simp [Component.Finite, Component.dimensions, List.lookup_cons, decodes_text.bind_iff,
      decodes_real.bind_iff, eq_comm (b := w)]
    grind

theorem decodes_instant :
    Decodes (fun instant => .text instant.text) (Instant.readNode? (ν := Node)) Always :=
  decodes_spelled Instant.read?_text

theorem decodes_level : Decodes (fun level => .text level.tag) (Level.read? (ν := Node)) Always :=
  decodes_tag fun level => by cases level <;> rfl

/-- The score is finite. -/
def Validation.Finite (v : Validation) : Prop := v.score.isFinite = true

theorem decodes_validation :
    Decodes Validation.content (Validation.read? (ν := Node)) Validation.Finite :=
  decodes_record Validation.keys (by decide) (fun _ => .refl _) fun v room w => by
    cases v
    simp [Validation.Finite, List.lookup_cons, decodes_level.bind_iff, decodes_text.bind_iff,
      decodes_instant.bind_iff, decodes_flag.bind_iff, decodes_real.bind_iff, eq_comm (b := w)]
    grind

/-- Frequency and signals are finite. -/
def ComponentScore.Finite (s : ComponentScore) : Prop :=
  s.frequency.isFinite = true ∧ s.metrics.Finite

theorem decodes_componentScore :
    Decodes ComponentScore.content (ComponentScore.read? (ν := Node)) ComponentScore.Finite :=
  decodes_record ["name", "frequency", "metrics"] (by decide) (fun _ => .refl _) fun s room w => by
    cases s
    simp [ComponentScore.Finite, List.lookup_cons, decodes_text.bind_iff, decodes_real.bind_iff,
      decodes_component.bind_iff, eq_comm (b := w)]
    grind

theorem decodes_band : Decodes (fun band => .text band.tag) (Band.read? (ν := Node)) Always :=
  decodes_tag fun band => by cases band <;> rfl

/-- All figures are finite, those of components and validations included. -/
@[mk_iff]
structure Report.Finite (r : Report) : Prop where
  totalScore : r.totalScore.isFinite = true
  components : ∀ s ∈ r.components, s.Finite
  validations : ∀ v ∈ r.validations, v.Finite
  passRate : r.passRate.isFinite = true
  multiplier : r.multiplier.isFinite = true

theorem decodes_report : Decodes Report.content (Report.read? (ν := Node)) Report.Finite := by
  refine decodes_record Report.keys (by decide) (fun r => ?_) fun r room w => ?_
  · unfold Report.figures
    split
    · exact List.sublist_append_left _ ["missing_validations"]
    · exact .refl _
  · -- The list of missing levels is written only if there are any.
    obtain ⟨_, _, _, _, _, _, _, _, _, _, missing⟩ := r
    by_cases hmissing : missing = []
    · subst hmissing
      simp [Report.figures, Report.finite_iff, List.lookup_cons, decodes_text.bind_iff,
        decodes_real.bind_iff, decodes_instant.bind_iff, decodes_band.bind_iff,
        decodes_flag.bind_iff, decodes_componentScore.list.bind_iff,
        decodes_validation.list.bind_iff, eq_comm (b := w)]
      grind
    · simp [Report.figures, hmissing, Report.finite_iff, List.lookup_cons, decodes_text.bind_iff,
        decodes_real.bind_iff, decodes_instant.bind_iff, decodes_band.bind_iff,
        decodes_flag.bind_iff, decodes_level.list.bind_iff, decodes_componentScore.list.bind_iff,
        decodes_validation.list.bind_iff, eq_comm (b := w)]
      grind

/-! ## Configurations -/

/-- All thresholds are finite. -/
def Thresholds.Finite (t : Thresholds) : Prop := ∀ e ∈ t.ordered, e.2.isFinite = true

theorem decodes_thresholds :
    Decodes Thresholds.content (Thresholds.read? (ν := Node)) Thresholds.Finite :=
  decodes_record ["critical", "low", "nominal", "optimal"] (by decide) (fun _ => .refl _)
    fun t room w => by
      cases t
      simp [Thresholds.Finite, Thresholds.ordered, List.lookup_cons, decodes_real.bind_iff,
        eq_comm (b := w)]
      grind

/-- Thresholds, gates and weights are finite. -/
@[mk_iff]
structure ScoringConfig.Finite (config : ScoringConfig) : Prop where
  thresholds : config.thresholds.Finite
  readinessThreshold : config.readinessThreshold.isFinite = true
  minPassRate : config.minPassRate.isFinite = true
  weights : ∀ e ∈ config.weights.entries, e.2.isFinite = true

theorem decodes_weights :
    Decodes (fun weights : KeyMap Binary64 =>
        .record (weights.entries.map fun e => (e.1, .real e.2)))
      (ScoringConfig.readWeights? (ν := Node))
      (fun weights => ∀ e ∈ weights.entries, e.2.isFinite = true) :=
  decodes_map decodes_real

theorem decodes_scoringConfig :
    Decodes ScoringConfig.content (ScoringConfig.read? (ν := Node)) ScoringConfig.Finite :=
  decodes_record ScoringConfig.keys (by decide) (fun _ => .refl _) fun config room w => by
    cases config
    simp [ScoringConfig.finite_iff, List.lookup_cons, decodes_text.bind_iff,
      decodes_thresholds.bind_iff, decodes_real.bind_iff, decodes_weights.bind_iff,
      decodes_level.list.bind_iff, eq_comm (b := w)]
    grind

theorem decodes_textList :
    Decodes textList (Document.list? (Document.text? (ν := Node))) Always where
  iff texts room w := by
    have hlist := decodes_text.list.iff texts room w
    simpa [textList] using hlist

/-- The least score is finite. -/
def ThresholdTable.Finite (t : ThresholdTable) : Prop := t.minScore.isFinite = true

theorem decodes_thresholdTable :
    Decodes ThresholdTable.content (ThresholdTable.read? (ν := Node)) ThresholdTable.Finite :=
  decodes_record ["enabled", "min_score"] (by decide) (fun _ => .refl _) fun t room w => by
    cases t
    simp [ThresholdTable.Finite, List.lookup_cons, decodes_flag.bind_iff, decodes_real.bind_iff,
      eq_comm (b := w)]
    grind

theorem decodes_validationTable :
    Decodes ValidationTable.content (ValidationTable.read? (ν := Node)) Always :=
  decodes_record ["enabled", "sensitive_actions", "privileged_levels"] (by decide)
    (fun _ => .refl _) fun t room w => by
      cases t
      simp [List.lookup_cons, decodes_flag.bind_iff, decodes_textList.bind_iff, eq_comm (b := w)]
      grind

theorem decodes_approvalTable :
    Decodes ApprovalTable.content (ApprovalTable.read? (ν := Node)) Always :=
  decodes_record ["enabled", "protected_resources"] (by decide) (fun _ => .refl _)
    fun t room w => by
      cases t
      simp [List.lookup_cons, decodes_flag.bind_iff, decodes_textList.bind_iff, eq_comm (b := w)]
      grind

theorem decodes_auditTable :
    Decodes AuditTable.content (AuditTable.read? (ν := Node)) Always :=
  decodes_record ["enabled"] (by decide) (fun _ => .refl _) fun t room w => by
    cases t
    simp [decodes_flag.bind_iff, eq_comm (b := w)]

/-- The least score is finite. -/
def PolicyConfig.Finite (config : PolicyConfig) : Prop := config.threshold.Finite

theorem decodes_policyConfig :
    Decodes PolicyConfig.content (PolicyConfig.read? (ν := Node)) PolicyConfig.Finite :=
  decodes_record ["threshold", "validation", "approval", "audit"] (by decide) (fun _ => .refl _)
    fun config room w => by
      cases config
      simp [PolicyConfig.Finite, List.lookup_cons, decodes_thresholdTable.bind_iff,
        decodes_validationTable.bind_iff, decodes_approvalTable.bind_iff,
        decodes_auditTable.bind_iff, eq_comm (b := w)]
      grind

/-! ## Requests and decisions -/

/-- The score is finite. -/
def Context.Finite (ctx : Context) : Prop := ctx.currentScore.isFinite = true

theorem decodes_context : Decodes Context.content Context.read? Context.Finite :=
  decodes_record Context.keys (by decide) (fun _ => .refl _) fun ctx room w => by
    cases ctx
    simp [Context.Finite, Context.request, Context.circumstances, List.lookup_cons,
      decodes_text.bind_iff, decodes_instant.bind_iff, decodes_facts.bind_iff,
      decodes_real.bind_iff, eq_comm (b := w)]
    grind

theorem decodes_decision :
    Decodes (fun decision => .text decision.tag) (Decision.read? (ν := Node)) Always :=
  decodes_tag fun decision => by cases decision <;> rfl

theorem decodes_verdict : Decodes Verdict.content Verdict.read? Always :=
  decodes_record Verdict.keys (by decide) (fun _ => .refl _) fun v room w => by
    cases v
    simp [List.lookup_cons, decodes_decision.bind_iff, decodes_text.bind_iff,
      decodes_facts.bind_iff, decodes_flag.bind_iff, eq_comm (b := w)]
    grind

theorem decodes_outcome : Decodes Outcome.content Outcome.read? Always :=
  decodes_record ["allowed", "results"] (by decide) (fun _ => .refl _) fun o room w => by
    cases o
    simp [List.lookup_cons, decodes_flag.bind_iff, decodes_verdict.list.bind_iff, eq_comm (b := w)]
    grind

/-! ## The audit trail -/

theorem decodes_uuid : Decodes (fun id => .text id.text) Uuid.readNode? Always :=
  decodes_spelled Uuid.read?_text

/-- The score of the context is finite. -/
def EvaluationRecord.Finite (r : EvaluationRecord) : Prop := r.context.Finite

theorem decodes_evaluationRecord :
    Decodes EvaluationRecord.content EvaluationRecord.read? EvaluationRecord.Finite :=
  decodes_record EvaluationRecord.keys (by decide) (fun _ => .refl _) fun r room w => by
    cases r
    simp [EvaluationRecord.Finite, List.lookup_cons, decodes_uuid.bind_iff,
      decodes_context.bind_iff, decodes_verdict.list.bind_iff, decodes_flag.bind_iff,
      decodes_instant.bind_iff, eq_comm (b := w)]
    grind

/-- A place in a chain reads back as the count that it is. -/
theorem count?_sequence (sequence : UInt64) (room : Nat) :
    ((Content.whole sequence.toNat).nodeAt room).count? = some sequence.toNat := by
  have hrange : (0 : Int) ≤ sequence.toNat ∧ (sequence.toNat : Int) < 0x10000000000000000 := by
    have := sequence.toNat_lt
    omega
  rw [Json.Node.count?, Content.nodeAt, Json.Tree.ofContent, Json.Tree.integer?_integer]
  simp [hrange]

/-- The score of the recorded context is finite. -/
def AuditEvent.Finite (e : AuditEvent) : Prop := e.record.Finite

theorem decodes_auditEvent : Decodes AuditEvent.content AuditEvent.read? AuditEvent.Finite :=
  decodes_record AuditEvent.keys (by decide) (fun _ => .refl _) fun e room w => by
    cases e
    simp [AuditEvent.Finite, List.lookup_cons, count?_sequence, decodes_text.bind_iff,
      decodes_evaluationRecord.bind_iff, Content.depth, eq_comm (b := w)]
    grind

/-- The scores of all recorded contexts are finite. -/
def AuditLog.Finite (log : AuditLog) : Prop := ∀ e ∈ log.events, e.Finite

theorem decodes_auditLog : Decodes AuditLog.content AuditLog.read? AuditLog.Finite :=
  decodes_record ["trail_id", "events", "exported_at", "terminal_hash"] (by decide)
    (fun _ => .refl _) fun log room w => by
      cases log
      simp [AuditLog.Finite, AuditLog.chainFields, List.lookup_cons, decodes_text.bind_iff,
        decodes_auditEvent.list.bind_iff, decodes_instant.bind_iff, eq_comm (b := w)]
      grind

/-! ## Whole texts -/

/-- What a reader makes of a whole text. -/
def decodeText {α : Type} (read : Node → Option α) (text : String) : Option α :=
  (Node.read? text).bind read

/-- Decoding undoes encoding: a value whose numbers are finite reads back from either of its texts,
unless it nests too deep, and the texts of any other value are refused. -/
structure RoundTrips {α : Type} (write : α → Content) (read : Node → Option α)
    (Finite : α → Prop) : Prop where
  intact : ∀ v, Finite v → (write v).depth ≤ Json.deepest →
    decodeText read (Json.compactText (write v)) = some v ∧
      decodeText read (Json.prettyText (write v)) = some v
  refused : ∀ v, ¬ Finite v →
    decodeText read (Json.compactText (write v)) = none ∧
      decodeText read (Json.prettyText (write v)) = none

section Texts

variable {α : Type} {write : α → Content} {read : Node → Option α} {Finite : α → Prop}

theorem decodeText_compactText (content : Content) :
    decodeText read (Json.compactText content) = read (content.nodeAt Json.deepest) := by
  rw [decodeText, Json.Node.read?_compactText]
  rfl

theorem decodeText_prettyText (content : Content) :
    decodeText read (Json.prettyText content) = read (content.nodeAt Json.deepest) := by
  rw [decodeText, Json.Node.read?_prettyText]
  rfl

theorem Decodes.roundTrips (h : Decodes write read Finite) : RoundTrips write read Finite where
  intact v hfinite hdepth := by
    have hread := (h.iff v Json.deepest v).mpr ⟨hfinite, hdepth, rfl⟩
    exact ⟨(decodeText_compactText _).trans hread, (decodeText_prettyText _).trans hread⟩
  refused v hfinite := by
    have hread : read ((write v).nodeAt Json.deepest) = none :=
      Option.eq_none_iff_forall_ne_some.mpr fun w hw => hfinite ((h.iff v _ w).mp hw).1
    exact ⟨(decodeText_compactText _).trans hread, (decodeText_prettyText _).trans hread⟩

end Texts

/-- Every record goes to JSON and back. -/
theorem json_roundTrips :
    RoundTrips Component.content Component.read? Component.Finite ∧
    RoundTrips Validation.content Validation.read? Validation.Finite ∧
    RoundTrips Report.content Report.read? Report.Finite ∧
    RoundTrips Thresholds.content Thresholds.read? Thresholds.Finite ∧
    RoundTrips ScoringConfig.content ScoringConfig.read? ScoringConfig.Finite ∧
    RoundTrips PolicyConfig.content PolicyConfig.read? PolicyConfig.Finite ∧
    RoundTrips Context.content Context.read? Context.Finite ∧
    RoundTrips Verdict.content Verdict.read? Always ∧
    RoundTrips Outcome.content Outcome.read? Always ∧
    RoundTrips EvaluationRecord.content EvaluationRecord.read? EvaluationRecord.Finite ∧
    RoundTrips AuditEvent.content AuditEvent.read? AuditEvent.Finite ∧
    RoundTrips AuditLog.content AuditLog.read? AuditLog.Finite :=
  ⟨decodes_component.roundTrips, decodes_validation.roundTrips, decodes_report.roundTrips,
    decodes_thresholds.roundTrips, decodes_scoringConfig.roundTrips,
    decodes_policyConfig.roundTrips, decodes_context.roundTrips, decodes_verdict.roundTrips,
    decodes_outcome.roundTrips, decodes_evaluationRecord.roundTrips,
    decodes_auditEvent.roundTrips, decodes_auditLog.roundTrips⟩

end ReleaseGate

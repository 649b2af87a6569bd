import ReleaseGate.Audit.Trail
import ReleaseGate.Proofs.Audit.Chain

/-!
# Runs of a trail

The holders of a trail call it in any order, one call at a time, and one of them may crash while it
holds the trail. Until then the trail is a chain of exactly the records that were appended; from
then on it refuses everything and keeps what it has.

* `Trail.call`, `Trail.after`: a call and its answer, and the trail after any calls.
* `Trail.Inv`, `Trail.Inv.step`, `inv_after`: what every call on an open trail preserves, so that it
  holds after every run without a crash.
* `call_of_crashed`, `after_of_crashed`: a closed trail stays as it is.
* `Trail.Intact`, `Trail.Closed`, `run_intact_or_closed`: the trail after any run, as its holders
  see it.
-/

namespace ReleaseGate

/-- What a holder of a trail does with it. -/
inductive TrailCall where
  | append (record : EvaluationRecord)
  | exportLog (now : Instant)
  | verify
  | size
  /-- The holder crashes while it holds the trail. -/
  | crash

/-- What a holder hears back. -/
inductive TrailAnswer where
  | appended (result : Except Fault Unit)
  | exported (result : Except Fault AuditLog)
  | verified (intact : Bool)
  | counted (size : Nat)
  /-- A holder that crashed hears nothing. -/
  | nothing

/-- The record that a call appends. -/
def TrailCall.record? : TrailCall → Option EvaluationRecord
  | append record => some record
  | _ => none

namespace Trail

/-- A call: the answer, and the trail after it. -/
def call (trail : Trail) : TrailCall → TrailAnswer × Trail
  | .append record =>
    match trail.append record with
    | .ok next => (.appended (.ok ()), next)
    | .error fault => (.appended (.error fault), trail)
  | .exportLog now => (.exported (trail.exportLog now), trail)
  | .verify => (.verified trail.verify, trail)
  | .size => (.counted trail.size, trail)
  | .crash => (.nothing, trail.crash)

/-- The trail after calls in the order in which they got hold of it, each with the number of its
holder. All holders share the trail, so the number makes no difference. -/
def after (trail : Trail) (calls : List (Nat × TrailCall)) : Trail :=
  calls.foldl (fun trail turn => (trail.call turn.2).2) trail

theorem after_append (trail : Trail) (calls calls' : List (Nat × TrailCall)) :
    trail.after (calls ++ calls') = (trail.after calls).after calls' :=
  List.foldl_append

/-! ## Open trails -/

/-- A trail that holds exactly these records, as a chain. -/
structure Inv (trail : Trail) (id : String) (records : List EvaluationRecord) : Prop where
  id_eq : trail.id = id
  records_eq : trail.events.map (·.record) = records
  lastHash_eq : trail.lastHash = ReleaseGate.lastHash trail.events
  chain : verifyChain trail.events = true
  trailId_eq : ∀ e ∈ trail.events, e.trailId = id

theorem inv_new (id : String) : (new id).Inv id [] :=
  ⟨rfl, rfl, lastHash_nil.symm, rfl, fun _ he => nomatch he⟩

variable {trail : Trail} {id : String} {records : List EvaluationRecord}

theorem append_of_open (hopen : trail.crashed = false) (record : EvaluationRecord) :
    trail.append record = .ok { trail with
      events := trail.events ++ [trail.nextEvent record]
      lastHash := (trail.nextEvent record).thisHash } := by
  rw [append, hopen, if_neg Bool.false_ne_true]

/-- The next event continues the chain. -/
theorem Inv.follows (h : trail.Inv id records) (record : EvaluationRecord) :
    (trail.nextEvent record).Follows trail.events :=
  ⟨rfl, h.lastHash_eq, rfl⟩

/-- A call on an open trail adds the record that it appends, and nothing else. -/
theorem Inv.step (h : trail.Inv id records) (hopen : trail.crashed = false) (c : TrailCall) :
    (trail.call c).2.Inv id (records ++ c.record?.toList) := by
  cases c with
  | append record =>
    rw [Trail.call, append_of_open hopen]
    refine ⟨h.id_eq, ?_, ?_, ?_, ?_⟩
    · show (trail.events ++ [trail.nextEvent record]).map (·.record) = _
      rw [List.map_append, h.records_eq]
      rfl
    · exact (lastHash_concat trail.events (trail.nextEvent record)).symm
    · exact verifyChain_concat.mpr ⟨h.chain, h.follows record⟩
    · intro e he
      rcases List.mem_append.mp he with he | he
      · exact h.trailId_eq e he
      · rw [List.mem_singleton.mp he]
        exact h.id_eq
  | exportLog | verify | size | crash =>
    show Inv _ id (records ++ [])
    rw [List.append_nil]
    exact ⟨h.id_eq, h.records_eq, h.lastHash_eq, h.chain, h.trailId_eq⟩

theorem crashed_call (hopen : trail.crashed = false) {c : TrailCall} (hc : c ≠ .crash) :
    (trail.call c).2.crashed = false := by
  cases c with
  | append record =>
    rw [call, append_of_open hopen]
    exact hopen
  | exportLog | verify | size => exact hopen
  | crash => exact absurd rfl hc

/-- After any calls without a crash, the trail is open and holds the records that were appended. -/
theorem inv_after (id : String) {calls : List (Nat × TrailCall)}
    (h : ∀ turn ∈ calls, turn.2 ≠ .crash) :
    ((new id).after calls).Inv id (calls.filterMap (·.2.record?)) ∧
      ((new id).after calls).crashed = false := by
  induction calls using List.reverseRecOn with
  | nil => exact ⟨inv_new id, rfl⟩
  | append_singleton calls turn ih =>
    obtain ⟨hinv, hopen⟩ := ih fun other hother => h other (List.mem_append_left _ hother)
    have hturn : turn.2 ≠ .crash := h turn (List.mem_append_right _ (List.mem_singleton_self turn))
    rw [after_append, List.filterMap_append]
    refine ⟨?_, crashed_call hopen hturn⟩
    have hrecord : [turn].filterMap (·.2.record?) = turn.2.record?.toList := by
      obtain ⟨holder, c⟩ := turn
      cases c <;> rfl
    rw [hrecord]
    exact hinv.step hopen turn.2

/-! ## Closed trails -/

/-- A call on a closed trail changes nothing. -/
theorem call_of_crashed (h : trail.crashed = true) (c : TrailCall) : (trail.call c).2 = trail := by
  cases c with
  | append record => rw [call, append, if_pos h]
  | crash =>
    obtain ⟨id, events, lastHash, crashed⟩ := trail
    cases h
    rfl
  | exportLog | verify | size => rfl

theorem after_of_crashed (h : trail.crashed = true) (calls : List (Nat × TrailCall)) :
    trail.after calls = trail := by
  induction calls with
  | nil => rfl
  | cons turn rest ih =>
    show ((trail.call turn.2).2).after rest = trail
    rw [call_of_crashed h, ih]

/-! ## What was stored stays -/

theorem events_prefix_call (trail : Trail) (c : TrailCall) :
    trail.events <+: (trail.call c).2.events := by
  cases hcrashed : trail.crashed with
  | true => simp [call_of_crashed hcrashed]
  | false =>
    cases c with
    | append record =>
      rw [call, append_of_open hcrashed]
      exact List.prefix_append _ _
    | exportLog | verify | size | crash => exact List.prefix_rfl

/-- The events of a trail are the first ones of every later one. -/
theorem events_prefix_after (trail : Trail) (calls : List (Nat × TrailCall)) :
    trail.events <+: (trail.after calls).events := by
  induction calls generalizing trail with
  | nil => exact List.prefix_rfl
  | cons turn rest ih => exact (events_prefix_call trail turn.2).trans (ih _)

/-- An export shows the events of the trail. -/
theorem events_of_exported {now : Instant} {log : AuditLog}
    (h : (trail.call (.exportLog now)).1 = .exported (.ok log)) : log.events = trail.events := by
  cases hcrashed : trail.crashed with
  | true =>
    rw [call, exportLog, if_pos hcrashed] at h
    cases h
  | false =>
    rw [call, exportLog, hcrashed, if_neg Bool.false_ne_true] at h
    cases h
    rfl

/-! ## What holders see -/

/-- What any holder sees of an open trail to which these records were appended. -/
structure Intact (trail : Trail) (id : String) (records : List EvaluationRecord) : Prop where
  append : ∀ record, (trail.call (.append record)).1 = .appended (.ok ())
  size : trail.call .size = (.counted records.length, trail)
  verify : trail.call .verify = (.verified true, trail)
  /-- An export has exactly the events of the trail, and ends with the hash of the last one. -/
  exportLog : ∀ now, trail.call (.exportLog now) = (.exported (.ok ⟨id, trail.events, now,
    match trail.events.getLast? with
    | none => ""
    | some last => last.thisHash⟩), trail)
  /-- None of the records is lost, doubled or moved. -/
  records : trail.events.map (·.record) = records
  trailId : ∀ e ∈ trail.events, e.trailId = id
  /-- Events are numbered from zero; the numbers have 64 bits. -/
  sequence : ∀ (i : Nat) (e : AuditEvent), trail.events[i]? = some e →
    e.sequence = UInt64.ofNat i ∧ (i < 2 ^ 64 → e.sequence.toNat = i)
  prevHash_first : ∀ e, trail.events[0]? = some e →
    e.prevHash = String.ofList (List.replicate 64 '0')
  prevHash_next : ∀ (i : Nat) (e f : AuditEvent), trail.events[i]? = some e →
    trail.events[i + 1]? = some f → f.prevHash = e.thisHash

/-- What any holder sees of a trail that a crash closed: it refuses to append and to export, it is
not vouched for, and it stays as it is. -/
structure Closed (trail : Trail) : Prop where
  append : ∀ record,
    trail.call (.append record) = (.appended (.error (.auditWrite .crashedWriter)), trail)
  exportLog : ∀ now,
    trail.call (.exportLog now) = (.exported (.error (.auditWrite .crashedWriter)), trail)
  verify : trail.call .verify = (.verified false, trail)
  size : trail.call .size = (.counted trail.events.length, trail)

theorem Inv.intact (h : trail.Inv id records) (hopen : trail.crashed = false) :
    trail.Intact id records where
  append record := by rw [call, append_of_open hopen]
  size := by
    rw [call, Trail.size, ← h.records_eq, List.length_map]
  verify := by
    rw [call, Trail.verify, hopen, h.chain]
    rfl
  exportLog now := by
    rw [call, Trail.exportLog, hopen, if_neg Bool.false_ne_true, h.id_eq, terminalHash]
    cases trail.events.getLast? <;> rfl
  records := h.records_eq
  trailId := h.trailId_eq
  sequence i e hi :=
    ⟨sequence_of_verifyChain h.chain hi, fun h64 => toNat_sequence_of_verifyChain h.chain hi h64⟩
  prevHash_first e he := (verifyChain_iff.mp h.chain 0 e he).prevHash
  prevHash_next i e f he hf := by
    have hfollows := verifyChain_iff.mp h.chain (i + 1) f hf
    rw [hfollows.prevHash, List.take_add_one, he]
    exact lastHash_concat _ _

theorem closed_of_crashed (h : trail.crashed = true) : trail.Closed where
  append record := by
    rw [call, Trail.append, if_pos h]
    rfl
  exportLog now := by
    rw [call, Trail.exportLog, if_pos h]
    rfl
  verify := by
    rw [call, Trail.verify, h]
    rfl
  size := rfl

/-- After any calls of any holders, an open trail is the chain of the records that were appended,
and a trail in which a holder crashed is closed with what it had then. What one export shows is the
beginning of what every later one shows. -/
theorem run_intact_or_closed (id : String) (calls : List (Nat × TrailCall)) :
    ((∀ turn ∈ calls, turn.2 ≠ .crash) →
      ((new id).after calls).Intact id (calls.filterMap (·.2.record?))) ∧
    (∀ (before rest : List (Nat × TrailCall)) (holder : Nat),
      calls = before ++ (holder, .crash) :: rest →
        ((new id).after calls).Closed ∧
          ((new id).after calls).events = ((new id).after before).events) ∧
    (∀ (earlier later : List (Nat × TrailCall)) (now now' : Instant) (log log' : AuditLog),
      calls = earlier ++ later →
      (((new id).after earlier).call (.exportLog now)).1 = .exported (.ok log) →
      (((new id).after calls).call (.exportLog now')).1 = .exported (.ok log') →
        log.events <+: log'.events) := by
  refine ⟨fun h => ?_, ?_, ?_⟩
  · obtain ⟨hinv, hopen⟩ := inv_after id h
    exact hinv.intact hopen
  · rintro before rest holder rfl
    have hcrash : (new id).after (before ++ (holder, .crash) :: rest) =
        ((new id).after before).crash := by
      rw [after_append]
      exact after_of_crashed rfl rest
    rw [hcrash]
    exact ⟨closed_of_crashed rfl, rfl⟩
  · rintro earlier later now now' log log' rfl hlog hlog'
    rw [events_of_exported hlog, events_of_exported hlog', after_append]
    exact events_prefix_after _ later

end Trail

end ReleaseGate

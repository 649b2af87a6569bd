import ReleaseGate.Audit.Trail
import ReleaseGate.Proofs.Audit.Chain

/-!
# Canonical chains

What an event records is the trail it belongs to and the record. Everything else in a chain follows
from that: places are counted from zero, and hashes are computed from what they cover, the first one
after 64 zeros. So a chain can be rebuilt from what its events record, and the check accepts a chain
exactly if that gives it back.

The check and the rebuilding both walk from the start, so one induction over the events shows that
they agree, from any place on and after any hash.

* `rebuildFrom`, `rebuild`: the chain of what events record.
* `AuditEvent.eq_make_iff`: the three tests of an event say that it is made of what it records.
* `verifyFrom_iff`: the check accepts what is rebuilt, and nothing else.
* `Trail.holding`, `foldlM_append_holding`: a trail, by the events it holds, and what appends build.
* `verifyChain_canonical`: the check accepts exactly the canonical chains.
-/

namespace ReleaseGate

/-- What an event records: the trail it belongs to, and the record. -/
def AuditEvent.entry (e : AuditEvent) : String × EvaluationRecord := (e.trailId, e.record)

/-- The events that record entries from a place on, after a hash. Each has the next place, and the
hash that was computed for the event before it. -/
def rebuildFrom (position : Nat) (prevHash : String) :
    List (String × EvaluationRecord) → List AuditEvent
  | [] => []
  | (trailId, record) :: rest =>
    let thisHash := hashEvent trailId (UInt64.ofNat position) record prevHash
    ⟨UInt64.ofNat position, trailId, record, prevHash, thisHash⟩ ::
      rebuildFrom (position + 1) thisHash rest

/-- The chain that records entries. -/
def rebuild (entries : List (String × EvaluationRecord)) : List AuditEvent :=
  rebuildFrom 0 genesisHash entries

variable {position : Nat} {prevHash : String}

theorem map_entry_rebuildFrom (entries : List (String × EvaluationRecord)) :
    (rebuildFrom position prevHash entries).map AuditEvent.entry = entries := by
  induction entries generalizing position prevHash with
  | nil => rfl
  | cons entry rest ih => rw [rebuildFrom, List.map_cons, ih, AuditEvent.entry]

/-! ## The check -/

/-- The tests of an event say that it is made of what it records, at its place and after a hash. -/
theorem AuditEvent.eq_make_iff {e : AuditEvent} {sequence : UInt64} {prevHash : String} :
    e = make e.trailId sequence e.record prevHash ↔
      e.sequence = sequence ∧ e.prevHash = prevHash ∧ e.expectedHash = e.thisHash := by
  obtain ⟨sequence', trailId, record, prevHash', thisHash⟩ := e
  rw [make, expectedHash, AuditEvent.mk.injEq]
  constructor
  · rintro ⟨rfl, -, -, rfl, hhash⟩
    exact ⟨rfl, rfl, hhash.symm⟩
  · rintro ⟨rfl, rfl, hhash⟩
    exact ⟨rfl, rfl, rfl, rfl, hhash.symm⟩

/-- From any place on and after any hash, the check accepts what is rebuilt and nothing else. -/
theorem verifyFrom_iff {events : List AuditEvent} : verifyFrom position prevHash events = true ↔
    events = rebuildFrom position prevHash (events.map AuditEvent.entry) := by
  induction events generalizing position prevHash with
  | nil => exact ⟨fun _ => rfl, fun _ => rfl⟩
  | cons e rest ih =>
    have hcheck : verifyFrom position prevHash (e :: rest) = true ↔
        e = .make e.trailId (UInt64.ofNat position) e.record prevHash ∧
          verifyFrom (position + 1) e.thisHash rest = true := by
      simp only [verifyFrom, Bool.and_eq_true, beq_iff_eq, AuditEvent.eq_make_iff, and_assoc]
    have hrebuild : rebuildFrom position prevHash ((e :: rest).map AuditEvent.entry) =
        .make e.trailId (UInt64.ofNat position) e.record prevHash ::
          rebuildFrom (position + 1)
            (hashEvent e.trailId (UInt64.ofNat position) e.record prevHash)
            (rest.map AuditEvent.entry) := rfl
    rw [hcheck, hrebuild, List.cons.injEq, ih]
    -- The rest is rebuilt after the hash of the event, which is the one that was computed.
    refine and_congr_right fun he => ?_
    have hhash : e.thisHash = hashEvent e.trailId (UInt64.ofNat position) e.record prevHash :=
      congrArg AuditEvent.thisHash he
    rw [hhash]

theorem verifyChain_rebuild (entries : List (String × EvaluationRecord)) :
    verifyChain (rebuild entries) = true := by
  rw [verifyChain, verifyFrom_iff, rebuild, map_entry_rebuildFrom]

/-- An event follows others exactly if it is the next one that records what it does. -/
theorem AuditEvent.follows_iff {e : AuditEvent} {events : List AuditEvent} : e.Follows events ↔
    e = .make e.trailId (UInt64.ofNat events.length) e.record (lastHash events) := by
  rw [eq_make_iff]
  exact ⟨fun h => ⟨h.sequence, h.prevHash, h.thisHash⟩, fun h => ⟨h.1, h.2.1, h.2.2⟩⟩

/-- Events of a chain are numbered from zero, as long as they can be counted in 64 bits. -/
theorem map_sequence_of_verifyChain {events : List AuditEvent} (h : verifyChain events = true)
    (h64 : events.length < 2 ^ 64) : events.map (·.sequence.toNat) = List.range events.length := by
  refine List.ext_getElem (by rw [List.length_map, List.length_range]) fun i hi _ => ?_
  rw [List.length_map] at hi
  rw [List.getElem_map, List.getElem_range]
  exact toNat_sequence_of_verifyChain h (List.getElem?_eq_getElem hi) (Nat.lt_trans hi h64)

/-! ## Appending -/

namespace Trail

/-- An open trail that holds events. -/
def holding (id : String) (events : List AuditEvent) : Trail :=
  ⟨id, events, ReleaseGate.lastHash events, false⟩

theorem append_holding (id : String) (events : List AuditEvent) (record : EvaluationRecord) :
    (holding id events).append record = .ok (holding id (events ++
      [.make id (UInt64.ofNat events.length) record (ReleaseGate.lastHash events)])) := by
  rw [holding, holding, lastHash_concat]
  rfl

/-- Appends add the events that are rebuilt from the trail and the records. -/
theorem foldlM_append_holding (id : String) (records : List EvaluationRecord)
    (events : List AuditEvent) : records.foldlM append (holding id events) =
      .ok (holding id (events ++
        rebuildFrom events.length (ReleaseGate.lastHash events)
          (records.map fun record => (id, record)))) := by
  induction records generalizing events with
  | nil =>
    rw [List.map_nil, rebuildFrom, List.append_nil]
    rfl
  | cons record rest ih =>
    have hlength : ∀ e : AuditEvent, (events ++ [e]).length = events.length + 1 := by simp
    rw [List.foldlM_cons, append_holding]
    refine (ih _).trans ?_
    rw [hlength, lastHash_concat, List.append_assoc]
    rfl

end Trail

/-- The check accepts exactly the canonical chains, those that are rebuilt from what they record:
places counted from zero, and hashes computed one after the other from 64 zeros on. So it accepts
what appends build, entries have one chain, and the event that an append adds is the only one that
continues a chain. -/
theorem verifyChain_canonical (events : List AuditEvent) :
    (verifyChain events = true ↔ events = rebuild (events.map AuditEvent.entry)) ∧
    (verifyChain events = true → events.length < 2 ^ 64 →
      events.map (·.sequence.toNat) = List.range events.length) ∧
    (∀ (id : String) (records : List EvaluationRecord),
      ∃ trail, records.foldlM Trail.append (Trail.new id) = .ok trail ∧
        trail.events = rebuild (records.map fun record => (id, record)) ∧
        verifyChain trail.events = true) ∧
    (∀ events' : List AuditEvent, verifyChain events = true → verifyChain events' = true →
      events.map AuditEvent.entry = events'.map AuditEvent.entry → events = events') ∧
    (verifyChain events = true → ∀ e : AuditEvent, verifyChain (events ++ [e]) = true ↔
      (Trail.holding e.trailId events).append e.record =
        .ok (Trail.holding e.trailId (events ++ [e]))) := by
  have hcanonical : ∀ events, verifyChain events = true ↔
      events = rebuild (events.map AuditEvent.entry) := fun _ => verifyFrom_iff
  refine ⟨hcanonical events, map_sequence_of_verifyChain, ?_, ?_, ?_⟩
  · intro id records
    let chain := rebuild (records.map fun record => (id, record))
    exact ⟨.holding id chain, Trail.foldlM_append_holding id records [], rfl, verifyChain_rebuild _⟩
  · intro events' hverify hverify' hentries
    rw [(hcanonical events).mp hverify, hentries, ← (hcanonical events').mp hverify']
  · intro hverify e
    rw [verifyChain_concat, and_iff_right hverify, AuditEvent.follows_iff, Trail.append_holding]
    constructor
    · intro he
      rw [← he]
    · intro happend
      have hevents := congrArg Trail.events (Except.ok.inj happend)
      exact (List.cons.inj (List.append_cancel_left hevents)).1.symm

end ReleaseGate

import ReleaseGate.Audit.Record
import ReleaseGate.Audit.Sha256

/-!
# Hash chains of events

An event is a record with its place in a chain. Its hash covers the trail it belongs to, its place,
the hash of the event before it, and the record, so that no event can be changed, moved or dropped
from the middle without breaking the chain.

* `hashInput`, `hashEvent`: what is hashed, and its digest in hexadecimal.
* `verifyFrom`, `verifyChain`: whether events are a chain.
* `AuditLog`: an exported chain.
-/

namespace ReleaseGate

/-- A record at its place in a chain. -/
structure AuditEvent where
  sequence : UInt64
  trailId : String
  record : EvaluationRecord
  prevHash : String
  thisHash : String

/-- What stands for the hash before the first event: 64 zeros. -/
def genesisHash : String := String.ofList (List.replicate 64 '0')

/-- The UTF-8 bytes of a text. -/
def utf8 (text : String) : List UInt8 := text.toUTF8.toList

/-- The eight bytes of a place in a chain, lowest first. -/
def sequenceBytes (sequence : UInt64) : List UInt8 :=
  (Sha256.bigEndian 8 sequence.toNat).reverse

/-- What the hash of an event covers: trail, place, hash before it, and record. -/
def hashInput (trailId : String) (sequence : UInt64) (record : EvaluationRecord)
    (prevHash : String) : List UInt8 :=
  utf8 trailId ++ sequenceBytes sequence ++ utf8 prevHash ++ utf8 record.json

/-- The hash of an event. -/
def hashEvent (trailId : String) (sequence : UInt64) (record : EvaluationRecord)
    (prevHash : String) : String :=
  String.ofList (hexOfBytes (Sha256.digest (hashInput trailId sequence record prevHash)))

namespace AuditEvent

/-- The event of a record at a place of a chain. -/
def make (trailId : String) (sequence : UInt64) (record : EvaluationRecord) (prevHash : String) :
    AuditEvent :=
  ⟨sequence, trailId, record, prevHash, hashEvent trailId sequence record prevHash⟩

/-- The hash that an event should have. -/
def expectedHash (e : AuditEvent) : String := hashEvent e.trailId e.sequence e.record e.prevHash

/-- An event as a record of a document. -/
def content (e : AuditEvent) : Content :=
  .record [("sequence", .whole e.sequence.toNat), ("trail_id", .text e.trailId),
    ("record", e.record.content), ("prev_hash", .text e.prevHash),
    ("this_hash", .text e.thisHash)]

/-- The keys of an event. -/
def keys : List String := ["sequence", "trail_id", "record", "prev_hash", "this_hash"]

/-- The event in a document. -/
def read? (node : Json.Node) : Option AuditEvent := do
  let fields ← Document.record? keys node
  let sequence ← fields.required "sequence" Json.Node.count?
  let trailId ← fields.required "trail_id" Document.text?
  let record ← fields.required "record" EvaluationRecord.read?
  let prevHash ← fields.required "prev_hash" Document.text?
  let thisHash ← fields.required "this_hash" Document.text?
  return { sequence := UInt64.ofNat sequence, trailId, record, prevHash, thisHash }

end AuditEvent

/-- Whether events continue a chain at a place, after a hash: each has the next place, the hash of
the event before it, and the hash that it should have. -/
def verifyFrom (position : Nat) (prevHash : String) : List AuditEvent → Bool
  | [] => true
  | e :: rest =>
    e.sequence == UInt64.ofNat position && e.prevHash == prevHash &&
      e.expectedHash == e.thisHash && verifyFrom (position + 1) e.thisHash rest

/-- Whether events are a chain from its start. -/
def verifyChain (events : List AuditEvent) : Bool := verifyFrom 0 genesisHash events

/-- An exported chain. -/
structure AuditLog where
  trailId : String
  events : List AuditEvent
  exportedAt : Instant
  /-- The hash of the last event; empty if there is none. -/
  terminalHash : String

namespace AuditLog

/-- How many recorded passes ended in a denial. -/
def deniedCount (log : AuditLog) : Nat := log.events.countP fun e => !e.record.allowed

/-- The fields before the time of the export. -/
def chainFields (log : AuditLog) : List (String × Content) :=
  [("trail_id", .text log.trailId), ("events", .list (log.events.map AuditEvent.content))]

/-- A log as a record of a document. -/
def content (log : AuditLog) : Content :=
  .record (log.chainFields ++
    [("exported_at", .text log.exportedAt.text), ("terminal_hash", .text log.terminalHash)])

/-- The log in a document. -/
def read? (node : Json.Node) : Option AuditLog := do
  let fields ← Document.record? ["trail_id", "events", "exported_at", "terminal_hash"] node
  let trailId ← fields.required "trail_id" Document.text?
  let events ← fields.required "events" (Document.list? AuditEvent.read?)
  let exportedAt ← fields.required "exported_at" Instant.readNode?
  let terminalHash ← fields.required "terminal_hash" Document.text?
  return { trailId, events, exportedAt, terminalHash }

end AuditLog

end ReleaseGate

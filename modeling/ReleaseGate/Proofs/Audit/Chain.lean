import Mathlib.Data.List.Induction
import ReleaseGate.Proofs.Audit.HashInput

/-!
# Chains, read from their end

A chain is checked from its start, and it grows and is tampered with at its end. So what the check
accepts is said here for the last event: it follows the events before it.

* `verifyChain_concat`: a chain with one more event is a chain if the event follows it.
* `verifyChain_iff`: a chain is a list in which every event follows those before it.
* `sequence_of_verifyChain`: every event of a chain says at which place it is.
* `length_utf8_lastHash`: the hash that the next event links to has 64 bytes.
-/

namespace ReleaseGate

/-- The hash that the event after these links to: that of the last of them. -/
def lastHash (events : List AuditEvent) : String :=
  (events.getLast?.map (·.thisHash)).getD genesisHash

@[simp] theorem lastHash_nil : lastHash [] = genesisHash := rfl

@[simp] theorem lastHash_concat (events : List AuditEvent) (e : AuditEvent) :
    lastHash (events ++ [e]) = e.thisHash := by
  rw [lastHash, List.getLast?_concat, Option.map_some, Option.getD_some]

/-- What a last event has to be: at the next place, linked to the event before it, and with the
hash that it should have. -/
structure AuditEvent.Follows (e : AuditEvent) (events : List AuditEvent) : Prop where
  sequence : e.sequence = UInt64.ofNat events.length
  prevHash : e.prevHash = lastHash events
  thisHash : e.expectedHash = e.thisHash

private theorem verifyFrom_cons (position : Nat) (prevHash : String) (e : AuditEvent)
    (rest : List AuditEvent) : verifyFrom position prevHash (e :: rest) =
      ((e.sequence == UInt64.ofNat position && e.prevHash == prevHash &&
        e.expectedHash == e.thisHash) && verifyFrom (position + 1) e.thisHash rest) := rfl

/-- The check of two parts: the second one continues where the first one ends. -/
theorem verifyFrom_concat (position : Nat) (prevHash : String) (events : List AuditEvent)
    (e : AuditEvent) : verifyFrom position prevHash (events ++ [e]) =
      (verifyFrom position prevHash events && verifyFrom (position + events.length)
        ((events.getLast?.map (·.thisHash)).getD prevHash) [e]) := by
  induction events generalizing position prevHash with
  | nil => rfl
  | cons first rest ih =>
    have hlast : ((first :: rest).getLast?.map (·.thisHash)).getD prevHash =
        (rest.getLast?.map (·.thisHash)).getD first.thisHash := by
      rw [List.getLast?_cons]
      cases rest.getLast? <;> rfl
    have hposition : position + (first :: rest).length = position + 1 + rest.length := by
      rw [List.length_cons]
      omega
    rw [hlast, hposition, List.cons_append, verifyFrom_cons, verifyFrom_cons position, ih,
      Bool.and_assoc _ (verifyFrom _ _ rest)]

/-- A chain with one more event is a chain if the event follows it. -/
theorem verifyChain_concat {events : List AuditEvent} {e : AuditEvent} :
    verifyChain (events ++ [e]) = true ↔ verifyChain events = true ∧ e.Follows events := by
  rw [verifyChain, verifyFrom_concat, Bool.and_eq_true, Nat.zero_add]
  refine and_congr_right fun _ => ⟨fun h => ?_, fun h => ?_⟩
  · rw [verifyFrom, verifyFrom, Bool.and_true, Bool.and_eq_true, Bool.and_eq_true, beq_iff_eq,
      beq_iff_eq, beq_iff_eq] at h
    exact ⟨h.1.1, h.1.2, h.2⟩
  · rw [verifyFrom, verifyFrom, Bool.and_true, Bool.and_eq_true, Bool.and_eq_true, beq_iff_eq,
      beq_iff_eq, beq_iff_eq]
    exact ⟨⟨h.sequence, h.prevHash⟩, h.thisHash⟩

/-- A chain is a list in which every event follows those before it. -/
theorem verifyChain_iff {events : List AuditEvent} : verifyChain events = true ↔
    ∀ (i : Nat) (e : AuditEvent), events[i]? = some e → e.Follows (events.take i) := by
  induction events using List.reverseRecOn with
  | nil => simp [verifyChain, verifyFrom]
  | append_singleton events last ih =>
    rw [verifyChain_concat, ih]
    constructor
    · rintro ⟨hevents, hlast⟩ i e hi
      rcases Nat.lt_trichotomy i events.length with hlt | rfl | hgt
      · rw [List.getElem?_append_left hlt] at hi
        rw [List.take_append_of_le_length (Nat.le_of_lt hlt)]
        exact hevents i e hi
      · rw [List.getElem?_concat_length, Option.some.injEq] at hi
        rw [List.take_left, ← hi]
        exact hlast
      · rw [List.getElem?_eq_none (by rw [List.length_append, List.length_singleton]; omega)] at hi
        cases hi
    · intro h
      refine ⟨fun i e hi => ?_, ?_⟩
      · obtain ⟨hlt, -⟩ := List.getElem?_eq_some_iff.mp hi
        have hfollows := h i e (by rw [List.getElem?_append_left hlt, hi])
        rwa [List.take_append_of_le_length (Nat.le_of_lt hlt)] at hfollows
      · have hfollows := h events.length last List.getElem?_concat_length
        rwa [List.take_left] at hfollows

section Places

variable {events : List AuditEvent} {i : Nat} {e : AuditEvent}

/-- An event of a chain says at which place it is. -/
theorem sequence_of_verifyChain (h : verifyChain events = true) (hi : events[i]? = some e) :
    e.sequence = UInt64.ofNat i := by
  obtain ⟨hlt, -⟩ := List.getElem?_eq_some_iff.mp hi
  rw [(verifyChain_iff.mp h i e hi).sequence, List.length_take, Nat.min_eq_left (Nat.le_of_lt hlt)]

/-- The place of an event is exact if it fits in 64 bits. -/
theorem toNat_sequence_of_verifyChain (h : verifyChain events = true) (hi : events[i]? = some e)
    (h64 : i < 2 ^ 64) : e.sequence.toNat = i := by
  rw [sequence_of_verifyChain h hi, UInt64.toNat_ofNat', Nat.mod_eq_of_lt h64]

end Places

/-- The hash that the event after a chain links to has 64 bytes. -/
theorem length_utf8_lastHash {events : List AuditEvent} (h : verifyChain events = true) :
    (utf8 (lastHash events)).length = 64 := by
  rcases List.eq_nil_or_concat events with rfl | ⟨init, e, rfl⟩
  · exact length_utf8_genesisHash
  · rw [List.concat_eq_append] at h ⊢
    rw [lastHash_concat, ← (verifyChain_concat.mp h).2.thisHash]
    exact length_utf8_hashEvent _ _ _ _

end ReleaseGate

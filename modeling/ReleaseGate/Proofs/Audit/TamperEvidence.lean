import Mathlib.Data.List.Forall2
import ReleaseGate.Proofs.Audit.Chain
import ReleaseGate.Time.Epoch

/-!
# Tamper evidence

Who knows the hash of the last event of a chain knows the chain. Another chain with the same last
hash is the same but for what the text of a record does not show, or the two chains have hashed
different bytes to one digest. Nothing is assumed of the digest: the bytes are exhibited.

The proof walks both chains from their ends. Equal hashes of two events are equal digests, so either
the bytes differ, and are what is looked for, or the events agree, and so do the hashes that they
link to. That the chains are equally long is known from the places of the last events.

* `AuditEvent.agrees_or_collides`: the step, for two events that follow chains.
* `forall₂_agrees_or_collide`: the walk, for chains of one length.
* `verifyChain_binds`: the last hash of a chain binds all of it.
-/

namespace ReleaseGate

/-- The bytes that the check of a chain hashes for an event. -/
def AuditEvent.covered (e : AuditEvent) : List UInt8 :=
  hashInput e.trailId e.sequence e.record e.prevHash

/-- Two events agree if all that is written of them is the same. -/
structure AuditEvent.Agrees (e f : AuditEvent) : Prop where
  trailId : e.trailId = f.trailId
  sequence : e.sequence = f.sequence
  prevHash : e.prevHash = f.prevHash
  thisHash : e.thisHash = f.thisHash
  json : e.record.json = f.record.json

/-- Two events collide if their hashes cover different bytes with one digest. -/
structure AuditEvent.Collides (e f : AuditEvent) : Prop where
  covered_ne : e.covered ≠ f.covered
  digest_eq : Sha256.digest e.covered = Sha256.digest f.covered

/-- Two chains collide if an event of the one collides with an event of the other. -/
def Collide (a b : List AuditEvent) : Prop := ∃ e ∈ a, ∃ f ∈ b, e.Collides f

variable {a b : List AuditEvent}

theorem Collide.concat (h : Collide a b) (e f : AuditEvent) : Collide (a ++ [e]) (b ++ [f]) := by
  obtain ⟨x, hx, y, hy, hxy⟩ := h
  exact ⟨x, List.mem_append_left _ hx, y, List.mem_append_left _ hy, hxy⟩

theorem AuditEvent.Collides.collide_concat {e f : AuditEvent} (h : e.Collides f)
    (a b : List AuditEvent) : Collide (a ++ [e]) (b ++ [f]) :=
  ⟨e, List.mem_append_right _ (List.mem_singleton_self e), f,
    List.mem_append_right _ (List.mem_singleton_self f), h⟩

/-! ## The walk -/

/-- Last events of chains with equal hashes agree or collide. -/
theorem AuditEvent.agrees_or_collides {e f : AuditEvent} (ha : verifyChain (a ++ [e]) = true)
    (hb : verifyChain (b ++ [f]) = true) (hash : e.thisHash = f.thisHash) :
    e.Agrees f ∨ e.Collides f := by
  obtain ⟨hchain, he⟩ := verifyChain_concat.mp ha
  obtain ⟨hchain', hf⟩ := verifyChain_concat.mp hb
  by_cases hcovered : e.covered = f.covered
  · obtain ⟨htrail, hsequence, hprev, hjson⟩ := hashInput_inj
      (by rw [he.prevHash, length_utf8_lastHash hchain])
      (by rw [hf.prevHash, length_utf8_lastHash hchain']) hcovered
    exact .inl ⟨htrail, hsequence, hprev, hash, hjson⟩
  · have hexpected : e.expectedHash = f.expectedHash := by
      rw [he.thisHash, hash, hf.thisHash]
    exact .inr ⟨hcovered, digest_eq_of_hashEvent_eq hexpected⟩

/-- Chains of one length with one last hash agree everywhere or collide. -/
theorem forall₂_agrees_or_collide (ha : verifyChain a = true) (hb : verifyChain b = true)
    (hlength : a.length = b.length) (hash : lastHash a = lastHash b) :
    List.Forall₂ AuditEvent.Agrees a b ∨ Collide a b := by
  induction a using List.reverseRecOn generalizing b with
  | nil =>
    obtain rfl : b = [] := List.eq_nil_of_length_eq_zero hlength.symm
    exact .inl .nil
  | append_singleton a e ih =>
    rcases List.eq_nil_or_concat b with rfl | ⟨b, f, rfl⟩
    · rw [List.length_append, List.length_singleton, List.length_nil] at hlength
      omega
    · rw [List.concat_eq_append] at hb hlength hash ⊢
      rw [lastHash_concat, lastHash_concat] at hash
      rcases AuditEvent.agrees_or_collides ha hb hash with hagree | hcollide
      · obtain ⟨ha', he⟩ := verifyChain_concat.mp ha
        obtain ⟨hb', hf⟩ := verifyChain_concat.mp hb
        have hlength' : a.length = b.length := by
          simpa using hlength
        -- The events agree on the hash before them, which is where the walk goes on.
        have hash' : lastHash a = lastHash b := by
          rw [← he.prevHash, hagree.prevHash, hf.prevHash]
        rcases ih ha' hb' hlength' hash' with hall | hcollide
        · exact .inl (List.rel_append hall (.cons hagree .nil))
        · exact .inr (hcollide.concat e f)
      · exact .inr (hcollide.collide_concat a b)

/-! ## The last hash -/

/-- Events at one place follow equally many events, as long as these can be counted in 64 bits. -/
theorem AuditEvent.Follows.length_eq {e f : AuditEvent} (he : e.Follows a) (hf : f.Follows b)
    (h : e.sequence = f.sequence) (ha : a.length < 2 ^ 64) (hb : b.length < 2 ^ 64) :
    a.length = b.length := by
  rw [he.sequence, hf.sequence] at h
  have hnat := congrArg UInt64.toNat h
  rw [UInt64.toNat_ofNat', UInt64.toNat_ofNat'] at hnat
  omega

/-- The last hash of a chain binds all of it: a chain with the same last hash has as many events and
agrees with it at every place, or two events of the chains collide. -/
theorem verifyChain_binds (a b : List AuditEvent) (ha : a ≠ []) (hb : b ≠ [])
    (hlengthA : a.length < 2 ^ 64) (hlengthB : b.length < 2 ^ 64)
    (hverifyA : verifyChain a = true) (hverifyB : verifyChain b = true)
    (hash : (a.getLast ha).thisHash = (b.getLast hb).thisHash) :
    (a.length = b.length ∧ ∀ i (hi : i < a.length) (hi' : i < b.length), a[i].Agrees b[i]) ∨
      Collide a b := by
  obtain ⟨initA, e, rfl⟩ : ∃ init e, a = init ++ [e] :=
    ⟨_, _, (List.dropLast_append_getLast ha).symm⟩
  obtain ⟨initB, f, rfl⟩ : ∃ init f, b = init ++ [f] :=
    ⟨_, _, (List.dropLast_append_getLast hb).symm⟩
  rw [List.getLast_concat, List.getLast_concat] at hash
  rcases AuditEvent.agrees_or_collides hverifyA hverifyB hash with hagree | hcollide
  · rw [List.length_append, List.length_singleton] at hlengthA hlengthB
    have hinit : initA.length = initB.length :=
      (verifyChain_concat.mp hverifyA).2.length_eq (verifyChain_concat.mp hverifyB).2
        hagree.sequence (by omega) (by omega)
    have hlength : (initA ++ [e]).length = (initB ++ [f]).length := by
      rw [List.length_append, List.length_append, hinit, List.length_singleton,
        List.length_singleton]
    have hlast : lastHash (initA ++ [e]) = lastHash (initB ++ [f]) := by
      rw [lastHash_concat, lastHash_concat, hash]
    rcases forall₂_agrees_or_collide hverifyA hverifyB hlength hlast with hall | hcollide
    · exact .inl ⟨hlength, fun i hi hi' => hall.get hi hi'⟩
    · exact .inr hcollide
  · exact .inr (hcollide.collide_concat initA initB)

/-- A record of a pass over a context with this score. -/
def recordOfScore (score : Binary64) : EvaluationRecord :=
  .ofPass ⟨.ofNat 0, .ofClock 0⟩
    { actor := "agent", action := "deploy", resource := "prod", timestamp := .ofClock 0,
      currentScore := score } []

/-- A chain of two such records. -/
def chainOfScore (score : Binary64) : List AuditEvent :=
  let first := AuditEvent.make "trail" 0 (recordOfScore score) genesisHash
  [first, .make "trail" 1 (recordOfScore score) first.thisHash]

/-- JSON has no numeral for a score that is not finite, so that these chains differ and still have
the same hashes. -/
theorem verifyChain_binds_nan_infinity :
    (chainOfScore .nan).length = (chainOfScore (.infinity false)).length ∧
      (∀ i (_ : i < (chainOfScore .nan).length) (_ : i < (chainOfScore (.infinity false)).length),
        (chainOfScore .nan)[i].Agrees (chainOfScore (.infinity false))[i]) ∨
      Collide (chainOfScore .nan) (chainOfScore (.infinity false)) := by
  have hverify : ∀ score, verifyChain (chainOfScore score) = true := by
    intro score
    simp [chainOfScore, verifyChain, verifyFrom, AuditEvent.make, AuditEvent.expectedHash]
  have hjson : (recordOfScore .nan).json = (recordOfScore (.infinity false)).json := rfl
  have hhash : ∀ sequence prev, hashEvent "trail" sequence (recordOfScore .nan) prev =
      hashEvent "trail" sequence (recordOfScore (.infinity false)) prev := by
    intro sequence prev
    rw [hashEvent, hashEvent, hashInput, hashInput, hjson]
  refine verifyChain_binds _ _ (List.cons_ne_nil _ _) (List.cons_ne_nil _ _) (by decide) (by decide)
    (hverify _) (hverify _) ?_
  show hashEvent _ _ _ (hashEvent _ _ _ _) = hashEvent _ _ _ (hashEvent _ _ _ _)
  rw [hhash, hhash]

end ReleaseGate

import ReleaseGate.Proofs.Audit.Canonical
import ReleaseGate.Time.Epoch

/-!
# Selections of a chain

Who holds a chain may leave events out, repeat them and put them in another order. All of that is
found out, whatever the hashes are, since every event says at which place it belongs. Only the end
of a chain can be cut off: what is left is a chain.

* `getElem?_of_verifyChain`: an event of two chains has one place.
* `verifyChain_of_isPrefix`: the beginning of a chain is a chain.
* `verifyChain_selection`: a selection is a chain exactly if it is a beginning.
-/

namespace ReleaseGate

variable {chain selection : List AuditEvent}

/-- An event of two chains is at the same place in both. -/
theorem getElem?_of_verifyChain (hselection : verifyChain selection = true)
    (hchain : verifyChain chain = true) (h64 : selection.length < 2 ^ 64)
    (h64' : chain.length < 2 ^ 64) {i : Nat} {e : AuditEvent} (hi : selection[i]? = some e)
    (hmem : e ∈ chain) : chain[i]? = some e := by
  obtain ⟨j, hj⟩ := List.mem_iff_getElem?.mp hmem
  obtain ⟨hlt, -⟩ := List.getElem?_eq_some_iff.mp hi
  obtain ⟨hlt', -⟩ := List.getElem?_eq_some_iff.mp hj
  have hij : i = j := by
    rw [← toNat_sequence_of_verifyChain hselection hi (Nat.lt_trans hlt h64),
      toNat_sequence_of_verifyChain hchain hj (Nat.lt_trans hlt' h64')]
  rw [hij, hj]

/-- The beginning of a chain is a chain. -/
theorem verifyChain_of_isPrefix (hstart : selection <+: chain)
    (hchain : verifyChain chain = true) : verifyChain selection = true := by
  obtain ⟨rest, rfl⟩ := hstart
  induction rest using List.reverseRecOn with
  | nil => rwa [List.append_nil] at hchain
  | append_singleton rest e ih =>
    rw [← List.append_assoc] at hchain
    exact ih (verifyChain_concat.mp hchain).1

/-- Events of a chain, selected in any way, are a chain exactly if they are its beginning. -/
theorem verifyChain_selection (hchain : verifyChain chain = true) (h64 : chain.length < 2 ^ 64)
    (h64' : selection.length < 2 ^ 64) (hmem : ∀ e ∈ selection, e ∈ chain) :
    verifyChain selection = true ↔ selection <+: chain := by
  refine ⟨fun hselection => ?_, fun hstart => verifyChain_of_isPrefix hstart hchain⟩
  refine List.prefix_iff_getElem?.mpr fun i hi => ?_
  exact getElem?_of_verifyChain hselection hchain h64' h64 (List.getElem?_eq_getElem hi)
    (hmem _ (List.getElem_mem hi))

/-- A record of a request of an action. -/
def requestRecord (action : String) : EvaluationRecord :=
  .ofPass ⟨.ofNat 0, .ofClock 0⟩
    { actor := "agent", action, resource := "prod", timestamp := .ofClock 0 } []

/-- A chain of three requests. -/
def threeRequests : List AuditEvent :=
  rebuild (["build", "sign", "deploy"].map fun action => ("trail", requestRecord action))

/-- A chain with a gap is no chain. -/
theorem verifyChain_selection_gap :
    verifyChain threeRequests = true ∧ threeRequests.length < 2 ^ 64 ∧
      (threeRequests.eraseIdx 1).length < 2 ^ 64 ∧
      (∀ e ∈ threeRequests.eraseIdx 1, e ∈ threeRequests) ∧
      (verifyChain (threeRequests.eraseIdx 1) = true ↔
        threeRequests.eraseIdx 1 <+: threeRequests) ∧
      ¬threeRequests.eraseIdx 1 <+: threeRequests := by
  have hchain : verifyChain threeRequests = true := verifyChain_rebuild _
  have h64 : threeRequests.length < 2 ^ 64 := by decide
  have h64' : (threeRequests.eraseIdx 1).length < 2 ^ 64 := by decide
  have hmem : ∀ e ∈ threeRequests.eraseIdx 1, e ∈ threeRequests :=
    fun e he => List.mem_of_mem_eraseIdx he
  refine ⟨hchain, h64, h64', hmem, verifyChain_selection hchain h64 h64' hmem, fun hstart => ?_⟩
  have hsequences : [0, 2] <+: [(0 : UInt64), 1, 2] := hstart.map AuditEvent.sequence
  exact absurd hsequences (by decide)

end ReleaseGate

import ReleaseGate.Fault
import ReleaseGate.Text.Blank

/-!
# Checks

A check passes or gives the first fault that it finds. Checks come one after the other, and texts
are checked for being blank.

* `seq_eq_ok`, `seq_eq_error`: how checks in sequence end.
* `firstOf`, `firstOf_append`: the check that finds these faults, in this order.
* `Speaks`, `isBlankText_eq_false`, `isBlankText_eq_true`: the texts that are not blank.
-/

namespace ReleaseGate

section Sequence

variable {α : Type} {first : Except Fault Unit} {second : Except Fault α} {a : α} {fault : Fault}

theorem seq_eq_ok : (do first; second) = .ok a ↔ first = .ok () ∧ second = .ok a := by
  cases first with
  | ok => simp [bind, Except.bind]
  | error => simp [bind, Except.bind]

theorem seq_eq_error : (do first; second) = .error fault ↔
    first = .error fault ∨ first = .ok () ∧ second = .error fault := by
  cases first with
  | ok => simp [bind, Except.bind]
  | error => simp [bind, Except.bind]

end Sequence

/-! ## Faults in order -/

/-- The check that finds these faults, in this order. It gives the first of them. -/
def firstOf : List Fault → Except Fault Unit
  | [] => .ok ()
  | fault :: _ => .error fault

section FirstOf

variable {faults more : List Fault} {check : Except Fault Unit}

theorem firstOf_eq_error {fault : Fault} :
    firstOf faults = .error fault ↔ faults.head? = some fault := by
  cases faults <;> simp [firstOf]

/-- A check that is the first of more faults once these are ruled out finds both, one after the
other. -/
theorem seq_firstOf (h : faults = [] → check = firstOf more) :
    (do firstOf faults; check) = firstOf (faults ++ more) := by
  cases faults with
  | nil => exact h rfl
  | cons fault rest => rfl

theorem firstOf_append (faults more : List Fault) :
    firstOf (faults ++ more) = (do firstOf faults; firstOf more) :=
  (seq_firstOf fun _ => rfl).symm

end FirstOf

/-! ## Blank texts -/

/-- A text with a character that is not blank. -/
def Speaks (text : String) : Prop := ∃ c ∈ text.toList, isBlankChar c = false

instance (text : String) : Decidable (Speaks text) :=
  inferInstanceAs (Decidable (∃ c ∈ text.toList, isBlankChar c = false))

theorem isBlankText_eq_false {text : String} : isBlankText text = false ↔ Speaks text := by
  rw [isBlankText, List.all_eq_false, Speaks]
  simp only [Bool.not_eq_true]

theorem isBlankText_eq_true {text : String} : isBlankText text = true ↔ ¬Speaks text := by
  rw [← isBlankText_eq_false, Bool.not_eq_false]

end ReleaseGate

import ReleaseGate.Content
import ReleaseGate.Json.Node

/-!
# Facts

Facts are values under text keys: the metadata of a request and the evidence of a decision. Keys
ascend strictly at every level, so facts have one form however they were put together.

* `Facts.insert`: one fact is added or replaced; `Facts.note` does it for a `Fact`.
* `Facts.read?`: the facts of an object whose keys come in any order; the last of a key wins.
* `Facts.holds`: whether a fact is known and true.
-/

namespace ReleaseGate

/-- One fact: a value under a key, in order at every level. -/
structure Fact where
  key : String
  value : Json.Value
  ordered : value.Ordered

/-- Values under keys, in order at every level. -/
structure Facts where
  fields : KeyMap Json.Value
  ordered : ∀ e ∈ fields.entries, e.2.Ordered

namespace Facts

/-- No facts. -/
def empty : Facts := ⟨.empty, fun _ h => nomatch h⟩

instance : Inhabited Facts := ⟨empty⟩

/-- Add or replace a fact. -/
def insert (facts : Facts) (key : String) (value : Json.Value) (h : value.Ordered) : Facts :=
  ⟨facts.fields.insert key value, fun e he => by
    rcases mem_insertEntry he with rfl | he
    · exact h
    · exact facts.ordered e he⟩

/-- Add or replace one fact. -/
def note (facts : Facts) (fact : Fact) : Facts := facts.insert fact.key fact.value fact.ordered

/-- Add a text. -/
def insertText (facts : Facts) (key text : String) : Facts :=
  facts.insert key (.string text) trivial

/-- Add a truth value. -/
def insertFlag (facts : Facts) (key : String) (flag : Bool) : Facts :=
  facts.insert key (.bool flag) trivial

/-- Add a number, or null for what is not finite. -/
def insertReal (facts : Facts) (key : String) (x : Binary64) : Facts :=
  facts.insert key (.ofBinary64 x) (Json.Value.ordered_ofBinary64 x)

/-- The value of a fact. -/
def get? (facts : Facts) (key : String) : Option Json.Value := facts.fields.get? key

/-- Whether a fact is known and its value true. -/
def holds (facts : Facts) (key : String) : Bool :=
  (facts.get? key).any Json.Value.isTruthy

theorem ordered_of_lookup {key : String} {value : Json.Value} {entries : List (String × Json.Value)}
    (h : ∀ e ∈ entries, e.2.Ordered) (found : entries.lookup key = some value) :
    value.Ordered := by
  induction entries with
  | nil => simp at found
  | cons e rest ih =>
    rw [List.lookup_cons] at found
    split at found
    · cases found
      exact h e List.mem_cons_self
    · exact ih (fun x hx => h x (List.mem_cons_of_mem _ hx)) found

/-- Copy a fact under another key, or note null if it is not known. -/
def insertFrom (facts : Facts) (key : String) (source : Facts) (sourceKey : String) : Facts :=
  match h : source.get? sourceKey with
  | some value => facts.insert key value (ordered_of_lookup source.ordered h)
  | none => facts.insert key .null trivial

/-- The content of facts. -/
def content (facts : Facts) : Content := .ofValue (.object facts.fields.entries)

/-- The facts of an object. -/
def read? (node : Json.Node) : Option Facts :=
  match h : node.value? with
  | some (.object entries) =>
    have ordered := Json.Node.value?_ordered h
    some ⟨⟨entries, ordered.1⟩, Json.Value.fieldsOrdered_iff.1 ordered.2⟩
  | _ => none

end Facts

end ReleaseGate

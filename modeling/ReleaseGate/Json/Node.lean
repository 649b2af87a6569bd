import ReleaseGate.Document
import ReleaseGate.Json.Reader

/-!
# JSON as a document

A node is a tree and the number of levels that may still be entered below it; entering more than
`deepest` levels is refused.

* a record is an object, or an array of its fields in order;
* a tag is a string, or an object with the tag as its only key and null as its value;
* a number is a numeral that does not exceed the largest finite number.

`Node.value?_ordered`: a value read from a node has its keys in order, whatever order the text has.
-/

namespace ReleaseGate.Json

/-- The levels a text may nest. -/
def deepest : Nat := 127

/-- A tree and the levels that may be entered below it. -/
structure Node where
  room : Nat
  tree : Tree

namespace Tree

mutual

/-- The value of a tree of at most `room` levels. -/
def value? (room : Nat) : Tree → Option Value
  | null => some .null
  | bool b => some (.bool b)
  | numeral spelling => (number? (numeral spelling)).map Value.number
  | string content => content.map Value.string
  | array items =>
    match room with
    | 0 => none
    | room + 1 => (itemValues? room items).map Value.array
  | object fields =>
    match room with
    | 0 => none
    | room + 1 => (fieldValues? room [] fields).map Value.object

/-- The values of items. -/
def itemValues? (room : Nat) : List Tree → Option (List Value)
  | [] => some []
  | item :: rest => do
    let value ← value? room item
    let values ← itemValues? room rest
    some (value :: values)

/-- The fields of an object put in order; the last of a repeated key wins. -/
def fieldValues? (room : Nat) (found : List (String × Value)) :
    List (Option String × Tree) → Option (List (String × Value))
  | [] => some found
  | (key, item) :: rest => do
    let key ← key
    let value ← value? room item
    fieldValues? room (insertEntry key value found) rest

end

mutual

theorem value?_ordered {room : Nat} : ∀ {tree : Tree} {value : Value},
    tree.value? room = some value → value.Ordered
  | null, value, h => by simp [value?] at h; subst h; simp [Value.Ordered]
  | bool b, value, h => by simp [value?] at h; subst h; simp [Value.Ordered]
  | numeral spelling, value, h => by
    simp only [value?, Option.map_eq_some_iff] at h
    obtain ⟨_, _, rfl⟩ := h
    simp [Value.Ordered]
  | string content, value, h => by
    simp only [value?, Option.map_eq_some_iff] at h
    obtain ⟨_, _, rfl⟩ := h
    simp [Value.Ordered]
  | array items, value, h => by
    cases room with
    | zero => simp [value?] at h
    | succ room =>
      simp only [value?, Option.map_eq_some_iff] at h
      obtain ⟨values, hv, rfl⟩ := h
      simpa [Value.Ordered] using itemValues?_ordered hv
  | object fields, value, h => by
    cases room with
    | zero => simp [value?] at h
    | succ room =>
      simp only [value?, Option.map_eq_some_iff] at h
      obtain ⟨values, hv, rfl⟩ := h
      have := fieldValues?_ordered hv List.Pairwise.nil (by simp)
      exact ⟨this.1, Value.fieldsOrdered_iff.2 this.2⟩

theorem itemValues?_ordered {room : Nat} : ∀ {items : List Tree} {values : List Value},
    itemValues? room items = some values → Value.ItemsOrdered values
  | [], values, h => by simp [itemValues?] at h; subst h; simp [Value.ItemsOrdered]
  | item :: rest, values, h => by
    simp only [itemValues?, Option.bind_eq_bind, Option.bind_eq_some_iff, Option.some.injEq] at h
    obtain ⟨v, hv, vs, hvs, rfl⟩ := h
    exact ⟨value?_ordered hv, itemValues?_ordered hvs⟩

theorem fieldValues?_ordered {room : Nat} : ∀ {fields : List (Option String × Tree)}
    {found values : List (String × Value)},
    fieldValues? room found fields = some values → KeysAscend found →
    (∀ e ∈ found, e.2.Ordered) → KeysAscend values ∧ ∀ e ∈ values, e.2.Ordered
  | [], found, values, h, hk, hv => by
    simp [fieldValues?] at h; subst h; exact ⟨hk, hv⟩
  | (key, item) :: rest, found, values, h, hk, hv => by
    simp only [fieldValues?, Option.bind_eq_bind, Option.bind_eq_some_iff] at h
    obtain ⟨k, _, v, hval, h⟩ := h
    refine fieldValues?_ordered h (keysAscend_insertEntry hk) (fun e he => ?_)
    rcases mem_insertEntry he with rfl | he
    · exact value?_ordered hval
    · exact hv e he

end

/-- The node of a whole text. -/
def node (tree : Tree) : Node := ⟨deepest, tree⟩

end Tree

namespace Node

/-- The node of a text. -/
def read? (text : String) : Option Node := (Tree.read? text).map Tree.node

/-- The items below, if there is room for them. -/
def items? : Node → Option (List Node)
  | ⟨room + 1, .array items⟩ => some (items.map (Node.mk room))
  | _ => none

/-- The fields below, if there is room for them and each key is a text. -/
def entries? : Node → Option (List (String × Node))
  | ⟨room + 1, .object fields⟩ =>
    fields.mapM fun (key, tree) => key.map fun key => (key, Node.mk room tree)
  | _ => none

/-- The fields with known keys, of an object or by place in an array. -/
def record? (keys : List String) (node : Node) : Option (Fields Node) :=
  match node.tree with
  | .array _ => node.items?.bind fun items =>
    if items.length ≤ keys.length then some (keys.zip items) else none
  | _ => node.entries?.bind (Fields.known keys)

/-- A string, or an object with one key and null. -/
def tag? (node : Node) : Option String :=
  match node.tree with
  | .string content => content
  | .object _ =>
    match node.entries? with
    | some [(tag, ⟨_, .null⟩)] => some tag
    | _ => none
  | _ => none

instance : Document Node where
  text? node := match node.tree with
    | .string content => content
    | _ => none
  tag? := tag?
  flag? node := match node.tree with
    | .bool b => some b
    | _ => none
  real? node := node.tree.real?
  items? := items?
  entries? := entries?
  record? := record?

/-- A whole number that fits 64 bits without sign. -/
def count? (node : Node) : Option Nat :=
  match node.tree.integer? with
  | some i => if 0 ≤ i ∧ i < 0x10000000000000000 then some i.toNat else none
  | none => none

/-- A value of any shape. -/
def value? (node : Node) : Option Value := node.tree.value? node.room

/-- A value read from a node has its keys in order. -/
theorem value?_ordered {node : Node} {value : Value} (h : node.value? = some value) :
    value.Ordered :=
  Tree.value?_ordered h

end Node

end ReleaseGate.Json

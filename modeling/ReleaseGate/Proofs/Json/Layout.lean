import ReleaseGate.Json.Reader
import ReleaseGate.Json.Writer

/-!
# Layouts

The two ways of writing a tree differ in their blanks only: a layout says which blanks stand in
front of items, fields and closing brackets, and which behind a colon.

* `Tree.layOut`: the text of a tree in a layout.
* `Tree.compact_eq_layOut`, `Tree.prettyAt_eq_layOut`: one line and many lines are layouts.
-/

namespace ReleaseGate.Json

/-- Characters that stand between tokens. -/
def Blanks (cs : List Char) : Prop := ∀ c ∈ cs, isBlank c = true

theorem skipBlanks_append {blanks : List Char} (h : Blanks blanks) (text : List Char) :
    skipBlanks (blanks ++ text) = skipBlanks text :=
  List.dropWhile_append_of_pos h

theorem skipBlanks_cons {c : Char} (h : isBlank c = false) (text : List Char) :
    skipBlanks (c :: text) = c :: text := by
  simp [skipBlanks, h]

/-- The blanks between the tokens of a text. -/
structure Layout where
  /-- In front of an item, a field or a closing bracket of a level. -/
  gap : Nat → List Char
  /-- Behind a colon. -/
  colonGap : List Char
  gap_blanks : ∀ level, Blanks (gap level)
  colonGap_blanks : Blanks colonGap

namespace Layout

/-- No blanks at all. -/
def compact : Layout := ⟨fun _ => [], [], by simp [Blanks], by simp [Blanks]⟩

theorem blanks_newLine (level : Nat) : Blanks (Tree.newLine level) := by
  intro c hc
  rcases List.mem_cons.mp hc with rfl | hc
  · decide
  · rw [List.eq_of_mem_replicate hc]
    decide

/-- A line for each item and field. -/
def pretty : Layout := ⟨Tree.newLine, [' '], blanks_newLine, by simp [Blanks, isBlank]⟩

end Layout

namespace Tree

mutual

/-- The text of a tree at a level. -/
def layOut (layout : Layout) (level : Nat) : Tree → List Char
  | null => ['n', 'u', 'l', 'l']
  | bool true => ['t', 'r', 'u', 'e']
  | bool false => ['f', 'a', 'l', 's', 'e']
  | numeral spelling => spelling
  | string content => writeString content
  | array [] => ['[', ']']
  | array (item :: rest) =>
    '[' :: (layout.gap (level + 1) ++ layOut layout (level + 1) item ++
      layItems layout level rest)
  | object [] => ['\x7b', '\x7d']
  | object ((key, value) :: rest) =>
    '\x7b' :: (layout.gap (level + 1) ++ writeString key ++ ':' :: layout.colonGap ++
      layOut layout (level + 1) value ++ layFields layout level rest)

/-- The items after the first, with the closing bracket. -/
def layItems (layout : Layout) (level : Nat) : List Tree → List Char
  | [] => layout.gap level ++ [']']
  | item :: rest =>
    ',' :: (layout.gap (level + 1) ++ layOut layout (level + 1) item ++
      layItems layout level rest)

/-- The fields after the first, with the closing brace. -/
def layFields (layout : Layout) (level : Nat) : List (Option String × Tree) → List Char
  | [] => layout.gap level ++ ['\x7d']
  | (key, value) :: rest =>
    ',' :: (layout.gap (level + 1) ++ writeString key ++ ':' :: layout.colonGap ++
      layOut layout (level + 1) value ++ layFields layout level rest)

end

mutual

theorem prettyAt_eq_layOut (level : Nat) : ∀ tree : Tree,
    tree.prettyAt level = tree.layOut .pretty level
  | null => rfl
  | bool true => rfl
  | bool false => rfl
  | numeral _ => rfl
  | string _ => rfl
  | array [] => rfl
  | array (item :: rest) => by
    simp [prettyAt, layOut, prettyAt_eq_layOut (level + 1) item, prettyItems_eq_layItems level rest,
      Layout.pretty]
  | object [] => rfl
  | object ((key, value) :: rest) => by
    simp [prettyAt, layOut, prettyAt_eq_layOut (level + 1) value,
      prettyFields_eq_layFields level rest, Layout.pretty]

theorem prettyItems_eq_layItems (level : Nat) : ∀ items : List Tree,
    prettyItems level items = layItems .pretty level items
  | [] => rfl
  | item :: rest => by
    simp [prettyItems, layItems, prettyAt_eq_layOut (level + 1) item,
      prettyItems_eq_layItems level rest, Layout.pretty]

theorem prettyFields_eq_layFields (level : Nat) : ∀ fields : List (Option String × Tree),
    prettyFields level fields = layFields .pretty level fields
  | [] => rfl
  | (key, value) :: rest => by
    simp [prettyFields, layFields, prettyAt_eq_layOut (level + 1) value,
      prettyFields_eq_layFields level rest, Layout.pretty]

end

mutual

/-- Without blanks the level does not matter. -/
theorem compact_eq_layOut (level : Nat) : ∀ tree : Tree,
    tree.compact = tree.layOut .compact level
  | null => rfl
  | bool true => rfl
  | bool false => rfl
  | numeral _ => rfl
  | string _ => rfl
  | array [] => rfl
  | array (item :: rest) => by
    have hitems := compactItems_eq_layItems level (item :: rest) (by simp)
    simpa [compact, layOut, layItems, Layout.compact] using hitems
  | object [] => rfl
  | object ((key, value) :: rest) => by
    have hfields := compactFields_eq_layFields level ((key, value) :: rest) (by simp)
    simpa [compact, layOut, layFields, Layout.compact] using hfields

theorem compactItems_eq_layItems (level : Nat) : ∀ items : List Tree, items ≠ [] →
    ',' :: compactItems items = layItems .compact level items
  | [], h => absurd rfl h
  | [item], _ => by
    simp [compactItems, layItems, compact_eq_layOut (level + 1) item, Layout.compact]
  | item :: next :: rest, _ => by
    have hitems := compactItems_eq_layItems level (next :: rest) (by simp)
    simp [compactItems, layItems, compact_eq_layOut (level + 1) item, hitems, Layout.compact]

theorem compactFields_eq_layFields (level : Nat) : ∀ fields : List (Option String × Tree),
    fields ≠ [] → ',' :: compactFields fields = layFields .compact level fields
  | [], h => absurd rfl h
  | [(key, value)], _ => by
    simp [compactFields, layFields, compact_eq_layOut (level + 1) value, Layout.compact]
  | (key, value) :: next :: rest, _ => by
    have hfields := compactFields_eq_layFields level (next :: rest) (by simp)
    simp [compactFields, layFields, compact_eq_layOut (level + 1) value, hfields, Layout.compact]

end

end Tree

end ReleaseGate.Json

import ReleaseGate.Json.Node
import ReleaseGate.Proofs.Json.Layout
import ReleaseGate.Proofs.Json.Numeral
import ReleaseGate.Proofs.Json.Text

/-!
# Texts read back

Whatever blanks a layout puts between tokens, the reader finds the tree of a content again, and
needs no more calls than it allows itself.

* `readTree_array`, `readItems_next`, `readFields_next`, ...: the reader, one rule per token.
* `Readable`: the reader takes the text of a tree from the front of any text.
* `readable_ofContent`: the tree of any content is readable.
* `read?_compactText`, `read?_prettyText`: both texts of a content read back as its tree.
-/

namespace ReleaseGate.Json

/-! ## The reader, token by token -/

theorem dropWord_append (word : String) (text : List Char) :
    dropWord word (word.toList ++ text) = some text := by
  simp [dropWord, ← String.length_toList]

namespace Tree

section Rules

variable {fuel : Nat} {text tail next rest : List Char}

theorem readTree_blanks {blanks : List Char} (h : Blanks blanks) :
    readTree fuel (blanks ++ text) = readTree fuel text := by
  cases fuel with
  | zero => simp [readTree]
  | succ fuel => rw [readTree, readTree, skipBlanks_append h]

theorem readItems_blanks {blanks : List Char} (h : Blanks blanks) :
    readItems fuel (blanks ++ text) = readItems fuel text := by
  cases fuel with
  | zero => simp [readItems]
  | succ fuel => rw [readItems, readItems, readTree_blanks h]

theorem readFields_blanks {blanks : List Char} (h : Blanks blanks) :
    readFields fuel (blanks ++ text) = readFields fuel text := by
  cases fuel with
  | zero => simp [readFields]
  | succ fuel => rw [readFields, readFields, skipBlanks_append h]

theorem readItems_last {item : Tree} (hitem : readTree fuel text = some (item, tail))
    (htail : skipBlanks tail = ']' :: rest) : readItems (fuel + 1) text = some ([item], rest) := by
  simp [readItems, hitem, htail]

theorem readItems_next {item : Tree} {items : List Tree}
    (hitem : readTree fuel text = some (item, tail)) (htail : skipBlanks tail = ',' :: next)
    (hnext : readItems fuel next = some (items, rest)) :
    readItems (fuel + 1) text = some (item :: items, rest) := by
  simp [readItems, hitem, htail, hnext]

theorem readFields_last {key : String} {value : Tree}
    (hvalue : readTree fuel text = some (value, tail)) (htail : skipBlanks tail = '\x7d' :: rest) :
    readFields (fuel + 1) (writeString (some key) ++ ':' :: text) =
      some ([(some key, value)], rest) := by
  have hkey := readString_escaped key (':' :: text)
  simp [readFields, writeString, quote, skipBlanks_cons, isBlank, hkey, hvalue, htail]

theorem readFields_next {key : String} {value : Tree} {fields : List (Option String × Tree)}
    (hvalue : readTree fuel text = some (value, tail)) (htail : skipBlanks tail = ',' :: next)
    (hnext : readFields fuel next = some (fields, rest)) :
    readFields (fuel + 1) (writeString (some key) ++ ':' :: text) =
      some ((some key, value) :: fields, rest) := by
  have hkey := readString_escaped key (':' :: text)
  simp [readFields, writeString, quote, skipBlanks_cons, isBlank, hkey, hvalue, htail, hnext]

theorem readTree_array {items : List Tree} {c : Char}
    (htext : skipBlanks text = c :: tail) (hclose : c ≠ ']')
    (hitems : readItems fuel (c :: tail) = some (items, rest)) :
    readTree (fuel + 1) ('[' :: text) = some (array items, rest) := by
  simp only [readTree, skipBlanks_cons (show isBlank '[' = false by decide), htext]
  split
  · next heq => exact absurd (List.cons.inj heq).1 hclose
  · simp [hitems]

theorem readTree_object {fields : List (Option String × Tree)} {c : Char}
    (htext : skipBlanks text = c :: tail) (hclose : c ≠ '\x7d')
    (hfields : readFields fuel (c :: tail) = some (fields, rest)) :
    readTree (fuel + 1) ('\x7b' :: text) = some (object fields, rest) := by
  simp only [readTree, skipBlanks_cons (show isBlank '\x7b' = false by decide), htext]
  split
  · next heq => exact absurd (List.cons.inj heq).1 hclose
  · simp [hfields]

/-- A text that starts as a numeral does. -/
theorem readTree_numeral {c : Char} {spelling : List Char} (hc : c = '-' ∨ c.isDigit = true)
    (h : readNumeral (c :: text) = some (spelling, rest)) :
    readTree (fuel + 1) (c :: text) = some (numeral spelling, rest) := by
  have hne : ∀ {d : Char}, d ≠ '-' → d.isDigit = false → c ≠ d := by
    rintro d hminus hdigit rfl
    rcases hc with rfl | hc
    · exact hminus rfl
    · exact ne_of_isDigit hc hdigit rfl
  have hblank : isBlank c = false := by
    simp only [isBlank, Bool.or_eq_false_iff, decide_eq_false_iff_not]
    exact ⟨⟨⟨hne (by decide) (by decide), hne (by decide) (by decide)⟩,
      hne (by decide) (by decide)⟩, hne (by decide) (by decide)⟩
  rw [readTree, skipBlanks_cons hblank]
  split
  · next heq => exact absurd (List.cons.inj heq).1 (hne (by decide) (by decide))
  · next heq => exact absurd (List.cons.inj heq).1 (hne (by decide) (by decide))
  · next heq => exact absurd (List.cons.inj heq).1 (hne (by decide) (by decide))
  · next heq => exact absurd (List.cons.inj heq).1 (hne (by decide) (by decide))
  · next heq => exact absurd (List.cons.inj heq).1 (hne (by decide) (by decide))
  · next heq => exact absurd (List.cons.inj heq).1 (hne (by decide) (by decide))
  · simp [h]

end Rules

end Tree

/-! ## Readable trees -/

/-- What separates and closes ends a numeral. -/
theorem endsNumeral_cons {c : Char} (hc : c = ',' ∨ c = ']' ∨ c = '\x7d') (text : List Char) :
    EndsNumeral (c :: text) := by
  rintro d ⟨⟩
  rcases hc with rfl | rfl | rfl <;> decide

theorem endsNumeral_of_blanks {blanks : List Char} (h : Blanks blanks) {c : Char}
    (hc : c = ',' ∨ c = ']' ∨ c = '\x7d') (text : List Char) :
    EndsNumeral (blanks ++ c :: text) := by
  cases blanks with
  | nil => exact endsNumeral_cons hc text
  | cons b blanks =>
    rintro d ⟨⟩
    have hb := h b List.mem_cons_self
    simp only [isBlank, Bool.or_eq_true, decide_eq_true_eq] at hb
    rcases hb with ((rfl | rfl) | rfl) | rfl <;> decide

/-- The start of a tree's text: no blank, and no bracket that closes. -/
def StartsTree (text : List Char) : Prop :=
  ∃ c cs, text = c :: cs ∧ isBlank c = false ∧ c ≠ ']'

/-- A tree that the reader takes from the front of any text, in any layout. Twice the length of its
text is depth enough. -/
structure Readable (tree : Tree) : Prop where
  starts : ∀ layout level, StartsTree (tree.layOut layout level)
  reads : ∀ {layout level fuel rest}, 2 * (tree.layOut layout level).length ≤ fuel →
    EndsNumeral rest →
    Tree.readTree (fuel + 1) (tree.layOut layout level ++ rest) = some (tree, rest)

section Lists

open ReleaseGate.Json.Tree

variable {layout : Layout} {level fuel : Nat} {rest : List Char}

theorem readItems_layItems {item : Tree} (hitem : Readable item) {items : List Tree}
    (hitems : ∀ t ∈ items, Readable t)
    (hfuel : 2 * (item.layOut layout (level + 1) ++ layItems layout level items).length ≤ fuel) :
    readItems fuel (item.layOut layout (level + 1) ++ (layItems layout level items ++ rest)) =
      some (item :: items, rest) := by
  induction items generalizing item fuel with
  | nil =>
    simp only [layItems, List.length_append, List.length_singleton] at hfuel
    obtain ⟨fuel, rfl⟩ : ∃ k, fuel = k + 2 := ⟨fuel - 2, by omega⟩
    have hgap := layout.gap_blanks level
    rw [layItems, List.append_assoc]
    have hends := endsNumeral_of_blanks hgap (.inr (.inl rfl)) rest
    refine readItems_last (hitem.reads (by omega) hends) ?_
    rw [skipBlanks_append hgap, List.singleton_append, skipBlanks_cons (by decide)]
  | cons next items ih =>
    simp only [layItems, List.length_append, List.length_cons] at hfuel
    obtain ⟨fuel, rfl⟩ : ∃ k, fuel = k + 2 := ⟨fuel - 2, by omega⟩
    have hlength : 2 * (next.layOut layout (level + 1) ++
        layItems layout level items).length ≤ fuel + 1 := by
      simp only [List.length_append]
      omega
    have hnext := ih (hitems next List.mem_cons_self) (fun t ht => hitems t (.tail _ ht)) hlength
    rw [layItems, List.cons_append]
    refine readItems_next (hitem.reads (by omega) (endsNumeral_cons (.inl rfl) _))
      (skipBlanks_cons (by decide) _) ?_
    rw [List.append_assoc, List.append_assoc, readItems_blanks (layout.gap_blanks (level + 1))]
    exact hnext

theorem readFields_layFields {key : String} {value : Tree} (hvalue : Readable value)
    {fields : List (Option String × Tree)}
    (hfields : ∀ f ∈ fields, f.1.isSome ∧ Readable f.2)
    (hfuel : 2 * (writeString (some key) ++ ':' :: (layout.colonGap ++
      (value.layOut layout (level + 1) ++ layFields layout level fields))).length ≤ fuel) :
    readFields fuel (writeString (some key) ++ ':' :: (layout.colonGap ++
      (value.layOut layout (level + 1) ++ (layFields layout level fields ++ rest)))) =
      some ((some key, value) :: fields, rest) := by
  induction fields generalizing key value fuel with
  | nil =>
    simp only [layFields, List.length_append, List.length_cons, List.length_nil] at hfuel
    obtain ⟨fuel, rfl⟩ : ∃ k, fuel = k + 2 := ⟨fuel - 2, by omega⟩
    have hgap := layout.gap_blanks level
    rw [layFields, List.append_assoc]
    refine readFields_last ((readTree_blanks layout.colonGap_blanks).trans (hvalue.reads (by omega)
      (endsNumeral_of_blanks hgap (.inr (.inr rfl)) rest))) ?_
    rw [skipBlanks_append hgap, List.singleton_append, skipBlanks_cons (by decide)]
  | cons next fields ih =>
    obtain ⟨nextKey, next⟩ := next
    obtain ⟨hkey, hnext⟩ := hfields (nextKey, next) List.mem_cons_self
    obtain ⟨nextKey, rfl⟩ := Option.isSome_iff_exists.mp hkey
    simp only [layFields, List.length_append, List.length_cons] at hfuel
    obtain ⟨fuel, rfl⟩ : ∃ k, fuel = k + 2 := ⟨fuel - 2, by omega⟩
    have hlength : 2 * (writeString (some nextKey) ++ ':' :: (layout.colonGap ++
        (next.layOut layout (level + 1) ++ layFields layout level fields))).length ≤ fuel + 1 := by
      simp only [List.length_append, List.length_cons]
      omega
    have hrest := ih hnext (fun f hf => hfields f (.tail _ hf)) hlength
    rw [layFields, List.cons_append]
    refine readFields_next ((readTree_blanks layout.colonGap_blanks).trans (hvalue.reads (by omega)
      (endsNumeral_cons (.inl rfl) _))) (skipBlanks_cons (by decide) _) ?_
    simp only [List.append_assoc, List.cons_append]
    rw [readFields_blanks (layout.gap_blanks (level + 1))]
    exact hrest

end Lists

namespace Readable

open ReleaseGate.Json.Tree

theorem null : Readable null where
  starts _ _ := ⟨'n', _, rfl, by decide, by decide⟩
  reads {_ _ fuel rest} _ _ := by
    have hword := dropWord_append "ull" rest
    simpa [layOut, readTree, skipBlanks_cons, isBlank] using hword

theorem bool (value : Bool) : Readable (bool value) := by
  cases value with
  | true =>
    refine ⟨fun _ _ => ⟨'t', _, rfl, by decide, by decide⟩, fun {_ _ fuel rest} _ _ => ?_⟩
    have hword := dropWord_append "rue" rest
    simpa [layOut, readTree, skipBlanks_cons, isBlank] using hword
  | false =>
    refine ⟨fun _ _ => ⟨'f', _, rfl, by decide, by decide⟩, fun {_ _ fuel rest} _ _ => ?_⟩
    have hword := dropWord_append "alse" rest
    simpa [layOut, readTree, skipBlanks_cons, isBlank] using hword

theorem text (content : String) : Readable (text content) where
  starts _ _ := ⟨'"', _, rfl, by decide, by decide⟩
  reads {_ _ fuel rest} _ _ := by
    have hread := readString_escaped content rest
    simp [Tree.text, layOut, writeString, quote, readTree, skipBlanks_cons, isBlank, hread]

theorem numeral (s : Spelling) : Readable (numeral s.text) := by
  have hstart : ∃ c cs, s.text = c :: cs ∧ (c = '-' ∨ c.isDigit = true) := by
    unfold Spelling.text signText
    cases s.negative with
    | true => exact ⟨'-', _, rfl, .inl rfl⟩
    | false =>
      obtain ⟨c, cs, hdigit, hcons⟩ := s.exists_digit_cons
      exact ⟨c, cs, hcons, .inr hdigit⟩
  obtain ⟨c, cs, hcons, hc⟩ := hstart
  refine ⟨fun _ _ => ⟨c, cs, hcons, ?_, ?_⟩, fun {layout level fuel rest} _ hrest => ?_⟩
  · rcases hc with rfl | hc
    · decide
    · simp [isBlank, ne_of_isDigit hc]
  · rcases hc with rfl | hc
    · decide
    · exact ne_of_isDigit hc (by decide)
  · have hread := s.readNumeral_text hrest
    rw [layOut, hcons]
    rw [hcons] at hread
    exact readTree_numeral hc hread

theorem array {items : List Tree} (h : ∀ t ∈ items, Readable t) : Readable (array items) := by
  cases items with
  | nil =>
    refine ⟨fun _ _ => ⟨'[', _, rfl, by decide, by decide⟩, fun _ _ => ?_⟩
    simp [layOut, readTree, skipBlanks_cons, isBlank]
  | cons item items =>
    refine ⟨fun _ _ => ⟨'[', _, by rw [layOut], by decide, by decide⟩,
      fun {layout level fuel rest} hfuel hrest => ?_⟩
    have hitem := h item List.mem_cons_self
    obtain ⟨c, cs, hcons, hblank, hclose⟩ := hitem.starts layout (level + 1)
    simp only [layOut, List.length_cons, List.length_append] at hfuel
    have hlength : 2 * (item.layOut layout (level + 1) ++
        layItems layout level items).length ≤ fuel := by
      simp only [List.length_append]
      omega
    have hread : readItems fuel (item.layOut layout (level + 1) ++
        (layItems layout level items ++ rest)) = some (item :: items, rest) :=
      readItems_layItems hitem (fun t ht => h t (.tail _ ht)) hlength
    rw [hcons] at hread
    rw [layOut, List.cons_append]
    refine readTree_array ?_ hclose hread
    rw [List.append_assoc, List.append_assoc, skipBlanks_append (layout.gap_blanks _), hcons]
    exact skipBlanks_cons hblank _

theorem object {fields : List (Option String × Tree)}
    (h : ∀ f ∈ fields, f.1.isSome ∧ Readable f.2) : Readable (object fields) := by
  cases fields with
  | nil =>
    refine ⟨fun _ _ => ⟨'\x7b', _, rfl, by decide, by decide⟩, fun _ _ => ?_⟩
    simp [layOut, readTree, skipBlanks_cons, isBlank]
  | cons field fields =>
    obtain ⟨key, value⟩ := field
    obtain ⟨hkey, hvalue⟩ := h (key, value) List.mem_cons_self
    obtain ⟨key, rfl⟩ := Option.isSome_iff_exists.mp hkey
    refine ⟨fun _ _ => ⟨'\x7b', _, by rw [layOut], by decide, by decide⟩,
      fun {layout level fuel rest} hfuel hrest => ?_⟩
    simp only [layOut, List.length_cons, List.length_append] at hfuel
    have hlength : 2 * (writeString (some key) ++ ':' :: (layout.colonGap ++
        (value.layOut layout (level + 1) ++ layFields layout level fields))).length ≤ fuel := by
      simp only [List.length_append, List.length_cons]
      omega
    have hread : readFields fuel (writeString (some key) ++ ':' :: (layout.colonGap ++
        (value.layOut layout (level + 1) ++ (layFields layout level fields ++ rest)))) =
        some ((some key, value) :: fields, rest) :=
      readFields_layFields hvalue (fun f hf => h f (.tail _ hf)) hlength
    rw [layOut, List.cons_append]
    refine readTree_object ?_ (by decide) hread
    simp only [List.append_assoc, List.cons_append]
    rw [skipBlanks_append (layout.gap_blanks _)]
    exact skipBlanks_cons (by decide) _

end Readable

/-! ## The tree of a content -/

theorem readable_integer (value : Int) : Readable (Tree.integer value) := by
  have hwhole : IsWhole (decimalDigits value.natAbs) := by
    by_cases hzero : value.natAbs = 0
    · rw [hzero]
      exact isWhole_zero
    · exact isWhole_of_head? hzero (digits_decimalDigits _) rfl
  have hreadable := Readable.numeral ⟨decide (value < 0), _, [], none, hwhole, by simp⟩
  simpa [Tree.integer, Spelling.text, Spelling.magnitude, signText, pointed, scaleText] using
    hreadable

theorem readable_real (x : Binary64) : Readable (Tree.real x) := by
  unfold Tree.real
  split
  · next hx =>
    obtain ⟨s, htext, -, -⟩ := spells_write hx
    rw [htext]
    exact .numeral s
  · exact .null

mutual

/-- The tree of any content is readable. -/
theorem readable_ofContent : ∀ content : Content, Readable (Tree.ofContent content)
  | .null => .null
  | .flag b => .bool b
  | .whole value => readable_integer value
  | .real x => readable_real x
  | .text content => .text content
  | .list items => .array (readable_ofItems items)
  | .record fields => .object (readable_ofFields fields)

theorem readable_ofItems : ∀ items : List Content, ∀ t ∈ Tree.ofItems items, Readable t
  | [] => by simp [Tree.ofItems]
  | item :: rest => by
    rw [Tree.ofItems, List.forall_mem_cons]
    exact ⟨readable_ofContent item, readable_ofItems rest⟩

theorem readable_ofFields : ∀ fields : List (String × Content),
    ∀ f ∈ Tree.ofFields fields, f.1.isSome ∧ Readable f.2
  | [] => by simp [Tree.ofFields]
  | (key, value) :: rest => by
    rw [Tree.ofFields, List.forall_mem_cons]
    exact ⟨⟨rfl, readable_ofContent value⟩, readable_ofFields rest⟩

end

/-- A whole text in any layout reads back. -/
theorem Readable.read?_layOut {tree : Tree} (h : Readable tree) (layout : Layout) :
    Tree.read? (String.ofList (tree.layOut layout 0)) = some tree := by
  have hread : Tree.readTree _ (tree.layOut layout 0 ++ []) = some (tree, []) :=
    h.reads (Nat.le_refl _) endsNumeral_nil
  rw [List.append_nil] at hread
  rw [Tree.read?, String.toList_ofList]
  exact Option.bind_eq_some_iff.mpr ⟨_, hread, rfl⟩

/-- The compact text of a content reads back as its tree. -/
theorem Node.read?_compactText (content : Content) :
    Node.read? (compactText content) = some (Tree.ofContent content).node := by
  rw [Node.read?, compactText, Tree.compact_eq_layOut 0, (readable_ofContent content).read?_layOut]
  rfl

/-- The text of a content on many lines reads back as its tree. -/
theorem Node.read?_prettyText (content : Content) :
    Node.read? (prettyText content) = some (Tree.ofContent content).node := by
  rw [Node.read?, prettyText, Tree.pretty, Tree.prettyAt_eq_layOut,
    (readable_ofContent content).read?_layOut]
  rfl

end ReleaseGate.Json

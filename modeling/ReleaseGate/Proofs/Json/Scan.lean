import ReleaseGate.Proofs.Text.Utf8

/-!
# Scanning compact JSON

A scan reads the bytes of a compact JSON text and keeps track of quotes and brackets only: how many
brackets are open, and whether it stands between tokens, in a string, or behind a backslash in one.
It says where a text ends, and so where another text can begin inside it.

* `read_compact`: a scan that stands inside brackets passes over any value and stands there again.
* `read_compactFields`: a scan behind an opening brace is at its end just behind the closing one.
* `eq_of_isSuffix`: a record text whose first key has a character that stands in strings only is
  never the end of a longer record text.
-/

namespace ReleaseGate.Json

/-- Where a scan stands. The depth counts the open brackets around the innermost one. -/
inductive Scan where
  /-- Between tokens, inside brackets. -/
  | between (depth : Nat)
  /-- In a string. -/
  | inText (depth : Nat)
  /-- Behind a backslash in a string. -/
  | escaped (depth : Nat)
  /-- Behind the bracket that closes the outermost one. -/
  | closed
  /-- Behind a character that cannot stand where it does. -/
  | lost
  deriving DecidableEq

/-- Whether a character stands in literals, in numerals or between items. -/
def isLoose (c : Char) : Bool := c.isDigit || ",:+-.aeflnrstu".toList.contains c

/-- Characters that stand in literals, in numerals or between items. -/
def Loose (cs : List Char) : Prop := ∀ c ∈ cs, isLoose c = true

-- Not by the instance for a bounded quantifier: with one for finite types in scope, that one would
-- go through all characters there are.
instance (cs : List Char) : Decidable (Loose cs) :=
  decidable_of_iff (cs.all isLoose = true) List.all_eq_true

theorem loose_cons {c : Char} {cs : List Char} : Loose (c :: cs) ↔ isLoose c = true ∧ Loose cs :=
  List.forall_mem_cons

theorem loose_append {cs ds : List Char} : Loose (cs ++ ds) ↔ Loose cs ∧ Loose ds :=
  List.forall_mem_append

namespace Scan

/-- Behind a closing bracket. -/
def behindBracket : (depth : Nat) → Scan
  | 0 => closed
  | depth + 1 => between depth

/-- One character on. -/
def step : Scan → Char → Scan
  | between depth, c =>
    if c = '"' then inText depth
    else if c = '[' ∨ c = '\x7b' then between (depth + 1)
    else if c = ']' ∨ c = '\x7d' then behindBracket depth
    else if isLoose c then between depth
    else lost
  | inText depth, c =>
    if c = '"' then between depth else if c = '\\' then escaped depth else inText depth
  | escaped depth, _ => inText depth
  | closed, _ => lost
  | lost, _ => lost

/-- All bytes of a list on, each byte as the character of its number. -/
def run (s : Scan) (bytes : List UInt8) : Scan :=
  bytes.foldl (fun s b => s.step (Char.ofNat b.toNat)) s

/-- All characters of a text on, each by its bytes. -/
def read (s : Scan) (cs : List Char) : Scan := s.run (cs.flatMap String.utf8EncodeChar)

/-! ## Characters -/

theorem run_append (s : Scan) (a b : List UInt8) : s.run (a ++ b) = (s.run a).run b :=
  List.foldl_append ..

@[simp] theorem run_lost (bytes : List UInt8) : lost.run bytes = lost := by
  induction bytes with
  | nil => rfl
  | cons b rest ih => exact ih

@[simp] theorem read_nil (s : Scan) : s.read [] = s := rfl

@[simp] theorem read_append (s : Scan) (a b : List Char) :
    s.read (a ++ b) = (s.read a).read b := by
  rw [read, List.flatMap_append, run_append]
  rfl

/-- A character below 128 is one step. -/
theorem read_cons {c : Char} (h : c.toNat < 128) (s : Scan) (cs : List Char) :
    s.read (c :: cs) = (s.step c).read cs := by
  have hb : (UInt8.ofNat c.toNat).toNat = c.toNat := by
    rw [UInt8.toNat_ofNat']
    omega
  rw [read, List.flatMap_cons, utf8EncodeChar_of_ascii h, run_append]
  show ((s.step (Char.ofNat (UInt8.ofNat c.toNat).toNat)).run _) = _
  rw [hb, Char.ofNat_toNat, read]

private theorem toNat_charOfByte (b : UInt8) : (Char.ofNat b.toNat).toNat = b.toNat := by
  have hb : b.toNat < 256 := b.toNat_lt
  have hv : b.toNat.isValidChar := Or.inl (by omega)
  rw [Char.ofNat, dif_pos hv]
  rfl

/-- Bytes from 128 on stand in strings and leave a scan there. -/
private theorem run_inText_of_le {bytes : List UInt8} (h : ∀ b ∈ bytes, 128 ≤ b.toNat)
    (depth : Nat) : (inText depth).run bytes = inText depth := by
  induction bytes with
  | nil => rfl
  | cons b rest ih =>
    have hb := h b List.mem_cons_self
    have hne : ∀ c : Char, c.toNat < 128 → Char.ofNat b.toNat ≠ c := by
      rintro c hc rfl
      rw [toNat_charOfByte] at hc
      omega
    have hstep : (inText depth).step (Char.ofNat b.toNat) = inText depth := by
      rw [step, if_neg (hne '"' (by decide)), if_neg (hne '\\' (by decide))]
    show ((inText depth).step (Char.ofNat b.toNat)).run rest = inText depth
    rw [hstep]
    exact ih fun x hx => h x (List.mem_cons_of_mem b hx)

/-- A character that needs no escape leaves a scan in its string. -/
theorem read_inText {c : Char} (hquote : c ≠ '"') (hslash : c ≠ '\\') (depth : Nat) :
    (inText depth).read [c] = inText depth := by
  by_cases h : c.toNat < 128
  · rw [read_cons h, step, if_neg hquote, if_neg hslash, read_nil]
  · rw [read, List.flatMap_singleton]
    exact run_inText_of_le (fun b hb => le_of_mem_utf8EncodeChar (by omega) hb) depth

/-! ## Tokens -/

/-- A loose character is below 128 and neither a quote nor a bracket. -/
private theorem isLoose_plain {c : Char} (h : isLoose c = true) :
    c.toNat < 128 ∧ c ≠ '"' ∧ ¬ (c = '[' ∨ c = '\x7b') ∧ ¬ (c = ']' ∨ c = '\x7d') := by
  rw [isLoose, Bool.or_eq_true] at h
  rcases h with h | h
  · have hle : c.toNat ≤ '9'.toNat := (Char.isDigit_iff_toNat.mp h).2
    refine ⟨Nat.lt_of_le_of_lt hle (by decide), ?_, ?_, ?_⟩
    · rintro rfl
      exact absurd h (by decide)
    · rintro (rfl | rfl) <;> exact absurd h (by decide)
    · rintro (rfl | rfl) <;> exact absurd h (by decide)
  · have hall : ",:+-.aeflnrstu".toList.all (fun c => decide (c.toNat < 128 ∧ c ≠ '"' ∧
        ¬ (c = '[' ∨ c = '\x7b') ∧ ¬ (c = ']' ∨ c = '\x7d'))) = true := by decide
    exact of_decide_eq_true (List.all_eq_true.mp hall c (List.contains_iff_mem.mp h))

/-- Loose characters leave a scan between tokens. -/
theorem read_loose {cs : List Char} (h : Loose cs) (depth : Nat) :
    (between depth).read cs = between depth := by
  induction cs with
  | nil => rfl
  | cons c rest ih =>
    have hc := h c List.mem_cons_self
    obtain ⟨hlt, hquote, hopen, hclose⟩ := isLoose_plain hc
    rw [read_cons hlt, step, if_neg hquote, if_neg hopen, if_neg hclose, if_pos hc]
    exact ih fun d hd => h d (List.mem_cons_of_mem c hd)

private theorem read_hexDigit (n depth : Nat) :
    (inText depth).read [hexDigit n] = inText depth := by
  have hplain : ∀ k < 16, Nat.digitChar k ≠ '"' ∧ Nat.digitChar k ≠ '\\' := by decide
  obtain ⟨hquote, hslash⟩ := hplain (n % 16) (Nat.mod_lt n (by decide))
  exact read_inText hquote hslash depth

/-- What stands for a character in quotes leaves a scan in its string. -/
theorem read_escape (c : Char) (depth : Nat) :
    (inText depth).read (escape c) = inText depth := by
  unfold escape
  split
  case h_8 =>
    split
    · show (inText depth).read (['\\', 'u', '0', '0'] ++ [hexDigit _] ++ [hexDigit _]) = _
      rw [read_append, read_append, show (inText depth).read ['\\', 'u', '0', '0'] =
        inText depth from rfl, read_hexDigit, read_hexDigit]
    · exact read_inText ‹_› ‹_› depth
  all_goals rfl

/-- A string in quotes takes a scan back to where it stood. -/
theorem read_quote (content : String) (depth : Nat) :
    (between depth).read (quote content) = between depth := by
  have hbody : ∀ cs : List Char, (inText depth).read (cs.flatMap escape) = inText depth := by
    intro cs
    induction cs with
    | nil => rfl
    | cons c rest ih => rw [List.flatMap_cons, read_append, read_escape, ih]
  rw [quote, List.cons_append, read_cons (by decide), read_append]
  show ((inText depth).read (content.toList.flatMap escape)).read ['"'] = between depth
  rw [hbody]
  rfl

/-! ## Numerals -/

private theorem loose_decimalDigits (n : Nat) : Loose (decimalDigits n) := by
  intro c hc
  rw [isLoose, Nat.isDigit_of_mem_toDigits (by decide) (by decide) hc, Bool.true_or]

private theorem loose_replicate (n : Nat) : Loose (List.replicate n '0') := by
  intro c hc
  rw [List.eq_of_mem_replicate hc]
  decide

private theorem loose_take {cs : List Char} (h : Loose cs) (n : Nat) : Loose (cs.take n) :=
  fun c hc => h c (List.mem_of_mem_take hc)

private theorem loose_drop {cs : List Char} (h : Loose cs) (n : Nat) : Loose (cs.drop n) :=
  fun c hc => h c (List.mem_of_mem_drop hc)

private theorem loose_writePositional {digits : List Char} (h : Loose digits) (exponent : Int) :
    Loose (realStyle.writePositional digits exponent) := by
  unfold RealStyle.writePositional
  split
  · rw [loose_append, loose_append]
    exact ⟨⟨h, loose_replicate _⟩, by decide⟩
  · dsimp only
    split
    · rw [loose_append, loose_cons]
      exact ⟨loose_take h _, by decide, loose_drop h _⟩
    · rw [List.cons_append, List.cons_append, loose_cons, loose_cons, loose_append]
      exact ⟨by decide, by decide, loose_replicate _, h⟩

private theorem loose_writeScientific {digits : List Char} (h : Loose digits) (exponent : Int) :
    Loose (realStyle.writeScientific digits exponent) := by
  have hexp : Loose (if exponent < 0 then '-' :: decimalDigits exponent.natAbs
      else realStyle.plusMark ++ decimalDigits exponent.natAbs) := by
    split
    · exact loose_cons.mpr ⟨by decide, loose_decimalDigits _⟩
    · exact loose_append.mpr ⟨by decide, loose_decimalDigits _⟩
  have hfrac : Loose (if (digits.drop 1).isEmpty then [] else '.' :: digits.drop 1) := by
    split
    · exact List.forall_mem_nil _
    · exact loose_cons.mpr ⟨by decide, loose_drop h 1⟩
  unfold RealStyle.writeScientific
  rw [loose_append, loose_append, loose_cons]
  exact ⟨⟨loose_take h 1, hfrac⟩, by decide, hexp⟩

/-- The numeral of a finite number has loose characters only. -/
theorem loose_write {x : Binary64} (hx : x.isFinite = true) : Loose (realStyle.write x) := by
  cases x with
  | nan => cases hx
  | number negative rank =>
    have hrank : rank.val ≠ Binary64.topRank := by simpa [Binary64.isFinite] using hx
    rw [RealStyle.write, if_neg hrank, loose_append]
    refine ⟨by cases negative <;> decide, ?_⟩
    split
    · decide
    · unfold RealStyle.writeDecimal
      dsimp only
      split
      · exact loose_writePositional (loose_decimalDigits _) _
      · exact loose_writeScientific (loose_decimalDigits _) _

/-! ## Values -/

open ReleaseGate.Json.Tree

/-- A field takes a scan back to where it stood if its value does. -/
private theorem read_field {depth : Nat} {value : Tree}
    (hvalue : (between depth).read value.compact = between depth) (key : String) :
    (between depth).read (writeString (some key) ++ ':' :: value.compact) = between depth := by
  rw [writeString, Option.getD_some, read_append, read_quote, read_cons (by decide)]
  exact hvalue

mutual

/-- A scan that stands inside brackets passes over any value and stands there again. -/
theorem read_compact (depth : Nat) : ∀ content : Content,
    (between depth).read (ofContent content).compact = between depth
  | .null => read_loose (by decide) depth
  | .flag true => read_loose (by decide) depth
  | .flag false => read_loose (by decide) depth
  | .whole value => by
    rw [ofContent, integer, compact]
    refine read_loose (loose_append.mpr ⟨?_, loose_decimalDigits _⟩) depth
    split <;> decide
  | .real x => by
    rw [ofContent, real]
    split
    · exact read_loose (loose_write ‹_›) depth
    · exact read_loose (by decide) depth
  | .text content => by
    rw [ofContent, Tree.text, compact, writeString, Option.getD_some]
    exact read_quote content depth
  | .list items => by
    rw [ofContent, compact, read_cons (by decide)]
    exact read_compactItems (depth + 1) items
  | .record fields => by
    rw [ofContent, compact, read_cons (by decide)]
    exact read_compactFields (depth + 1) fields

/-- A scan behind an opening bracket stands behind the closing one after the items. -/
theorem read_compactItems (depth : Nat) : ∀ items : List Content,
    (between depth).read (compactItems (ofItems items)) = behindBracket depth
  | [] => rfl
  | [item] => by
    rw [ofItems, ofItems, compactItems, read_append, read_compact depth item]
    rfl
  | item :: next :: rest => by
    have ih := read_compactItems depth (next :: rest)
    rw [ofItems] at ih
    rw [ofItems, ofItems, compactItems, read_append, read_compact depth item,
      read_cons (by decide)]
    exact ih

/-- A scan behind an opening brace stands behind the closing one after the fields. -/
theorem read_compactFields (depth : Nat) : ∀ fields : List (String × Content),
    (between depth).read (compactFields (ofFields fields)) = behindBracket depth
  | [] => rfl
  | [(key, value)] => by
    rw [ofFields, ofFields, compactFields, read_append, read_field (read_compact depth value) key]
    rfl
  | (key, value) :: next :: rest => by
    have ih := read_compactFields depth (next :: rest)
    rw [ofFields] at ih
    rw [ofFields, ofFields, compactFields, read_append, read_field (read_compact depth value) key,
      read_cons (by decide)]
    exact ih

end

/-! ## Texts inside texts -/

/-- Bytes that a scan passes over between tokens, and that do not go on from the middle of a
string, end no longer text than themselves: a scan would have some bracket still open behind them,
or be lost in them. -/
theorem eq_of_isSuffix {short rest : List UInt8} {first : UInt8}
    (hvalue : ∀ depth, (between depth).run short = between depth)
    (htext : ∀ depth, (inText depth).run short = lost)
    (hescape : ∀ depth, (escaped depth).run short = lost)
    (hclosed : (between 0).run rest = closed) (h : short <:+ first :: rest) :
    short = first :: rest := by
  obtain ⟨before, hbefore⟩ := h
  cases before with
  | nil => exact hbefore
  | cons b before =>
    exfalso
    rw [List.cons_append] at hbefore
    obtain ⟨-, hrest⟩ := List.cons.inj hbefore
    rw [← hrest, run_append] at hclosed
    cases hs : (between 0).run before with
    | between depth =>
      rw [hs, hvalue] at hclosed
      cases hclosed
    | inText depth =>
      rw [hs, htext] at hclosed
      cases hclosed
    | escaped depth =>
      rw [hs, hescape] at hclosed
      cases hclosed
    | closed =>
      cases short with
      | nil => cases htext 0
      | cons c cs =>
        rw [hs] at hclosed
        exact absurd ((run_lost cs).symm.trans hclosed) (by decide)
    | lost =>
      rw [hs, run_lost] at hclosed
      cases hclosed

end Scan

end ReleaseGate.Json

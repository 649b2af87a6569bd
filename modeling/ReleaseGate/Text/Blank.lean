/-!
# Blank text

A character is blank if it has the Unicode property White_Space. A text is blank if every character
of it is, the empty text included.
-/

namespace ReleaseGate

/-- The ranges of code points with the property White_Space. -/
def blankRanges : List (Nat × Nat) :=
  [(0x09, 0x0D), (0x20, 0x20), (0x85, 0x85), (0xA0, 0xA0), (0x1680, 0x1680), (0x2000, 0x200A),
    (0x2028, 0x2029), (0x202F, 0x202F), (0x205F, 0x205F), (0x3000, 0x3000)]

/-- Whether a character is blank. -/
def isBlankChar (c : Char) : Bool :=
  blankRanges.any fun (first, last) => first ≤ c.toNat && c.toNat ≤ last

/-- Whether every character is blank. -/
def isBlankText (text : String) : Bool := text.toList.all isBlankChar

/-- Drop leading blank characters. -/
def trimLeft (text : List Char) : List Char := text.dropWhile isBlankChar

example : isBlankText "" = true ∧ isBlankText " \t\u00a0\u3000" = true ∧
    isBlankText "\u200b" = false := by decide +kernel

end ReleaseGate

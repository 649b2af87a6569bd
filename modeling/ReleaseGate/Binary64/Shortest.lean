import ReleaseGate.Binary64.Numeral

/-!
# The fewest digits that read back

The magnitudes that round to a given rank form an interval, whose ends belong to it exactly when
the rank is even. The text of a number is the coarsest decimal grid that meets this interval, and
on that grid the point nearest to the magnitude.

* `shortest`: those digits and their power of ten.
* `RealStyle`: what a text format decides by itself, and `RealStyle.write`, the text of a number.
-/

namespace ReleaseGate

/-- Which of two equally near decimals is taken. -/
inductive Tie where
  /-- The one with the even last digit. -/
  | toEven
  /-- The larger one. -/
  | up
  deriving DecidableEq

/-- A natural number times a power of ten. -/
structure Decimal where
  digits : Nat
  exponent : Int
  deriving DecidableEq

namespace Binary64

/-- The step of the grid of multiples of `10 ^ exponent`, as half quanta over `gridDivisor`. -/
def gridStep (exponent : Int) : Nat := 2 * unit * Nat.pow 10 exponent.toNat

/-- The divisor that makes steps below one whole. -/
def gridDivisor (exponent : Int) : Nat := Nat.pow 10 (-exponent).toNat

/-- Whether the `c`-th point of a grid rounds to the rank. -/
def gridPointRoundsTo (rank : Nat) (exponent : Int) (c : Nat) : Bool :=
  let low := (quanta (rank - 1) + quanta rank) * gridDivisor exponent
  let high := (quanta rank + quanta (rank + 1)) * gridDivisor exponent
  let x := c * gridStep exponent
  if rank % 2 = 0 then low ≤ x && x ≤ high else low < x && x < high

/-- The point of a grid that rounds to the rank and is nearest to it, if there is one. Only the two
neighbours of the magnitude can be. -/
def nearestGridPoint? (tie : Tie) (rank : Nat) (exponent : Int) : Option Nat :=
  let value := 2 * quanta rank * gridDivisor exponent
  let below := value / gridStep exponent
  let rest := value % gridStep exponent
  let preferAbove : Bool :=
    if 2 * rest = gridStep exponent then
      match tie with
      | .toEven => decide (below % 2 = 1)
      | .up => true
    else decide (gridStep exponent < 2 * rest)
  let first := if preferAbove then below + 1 else below
  let second := if preferAbove then below else below + 1
  if gridPointRoundsTo rank exponent first then some first
  else if gridPointRoundsTo rank exponent second then some second
  else none

/-- The finest grid needed: a quantum is a whole multiple of `10 ^ (-finest)`. -/
def finestGrid : Int := -(finest : Int)

/-- The first grid that meets the rank's interval, from `10 ^ (finestGrid + n)` down. The finest
grid holds the magnitude itself. -/
def shortestFrom (tie : Tie) (rank : Nat) : Nat → Decimal
  | 0 => ⟨quanta rank * Nat.pow 5 finest, finestGrid⟩
  | n + 1 =>
    let exponent := finestGrid + (n + 1)
    match nearestGridPoint? tie rank exponent with
    | some c => ⟨c, exponent⟩
    | none => shortestFrom tie rank n

/-- Where the search for a grid starts: ten to this many steps above the finest grid exceeds the
magnitude, because `2 ^ 10 < 10 ^ 3.02`. -/
def coarsestGrid (rank : Nat) : Nat :=
  (finest + ((quanta rank).log2 + 1) * 302 / 1000 + 1) - finest * 301 / 1000

/-- The fewest digits that read back as the rank, nearest to its magnitude. -/
def shortest (tie : Tie) (rank : Nat) : Decimal := shortestFrom tie rank (coarsestGrid rank)

end Binary64

/-- The decimal digits of a natural number. -/
def decimalDigits (n : Nat) : List Char := Nat.toDigits 10 n

/-- What a text format decides about the spelling of numbers. -/
structure RealStyle where
  /-- Which of two equally near decimals is taken. -/
  tie : Tie
  /-- Whether a number whose first digit stands for `10 ^ exponent` is written without exponent. -/
  positional : Int → Bool
  /-- What follows a whole number written without exponent. -/
  wholeMark : List Char
  /-- What precedes an exponent that is not negative. -/
  plusMark : List Char
  /-- The word for infinity. -/
  infinity : List Char
  /-- The word for not-a-number. -/
  nan : List Char

namespace RealStyle

/-- Digits with a point where the power of ten asks for it. -/
def writePositional (style : RealStyle) (digits : List Char) (exponent : Int) : List Char :=
  if 0 ≤ exponent then digits ++ List.replicate exponent.toNat '0' ++ style.wholeMark
  else
    let places := (-exponent).toNat
    if places < digits.length then
      digits.take (digits.length - places) ++ '.' :: digits.drop (digits.length - places)
    else '0' :: '.' :: List.replicate (places - digits.length) '0' ++ digits

/-- One digit, the others behind a point, and the exponent of the first digit. -/
def writeScientific (style : RealStyle) (digits : List Char) (exponent : Int) : List Char :=
  let fraction := digits.drop 1
  digits.take 1 ++ (if fraction.isEmpty then [] else '.' :: fraction) ++ 'e' ::
    (if exponent < 0 then '-' :: decimalDigits exponent.natAbs
     else style.plusMark ++ decimalDigits exponent.natAbs)

/-- The text of a magnitude. -/
def writeDecimal (style : RealStyle) (x : Decimal) : List Char :=
  let digits := decimalDigits x.digits
  let first := x.exponent + digits.length - 1
  if style.positional first then style.writePositional digits x.exponent
  else style.writeScientific digits first

/-- The text of a number. -/
def write (style : RealStyle) : Binary64 → List Char
  | .nan => style.nan
  | .number negative rank =>
    (if negative then ['-'] else []) ++
      if rank.val = Binary64.topRank then style.infinity
      else if rank.val = 0 then '0' :: style.wholeMark
      else style.writeDecimal (Binary64.shortest style.tie rank.val)

/-- Messages write every digit in place, and whole numbers without a point. -/
def message : RealStyle where
  tie := .up
  positional _ := true
  wholeMark := []
  plusMark := []
  infinity := "inf".toList
  nan := "NaN".toList

end RealStyle

/-- The text of a number in messages and summaries. -/
def Binary64.text (x : Binary64) : String := String.ofList (RealStyle.message.write x)

end ReleaseGate

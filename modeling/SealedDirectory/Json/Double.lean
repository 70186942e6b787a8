/-!
# Shortest decimal text of a double

A finite double is `significand * 2 ^ power`.  The reals that round to it form an
interval around it, whose ends belong to it when the significand is even.  Among
the decimals with the fewest digits inside that interval the nearest one is
written.  All comparisons are made on natural numbers by clearing denominators.

Where the decimal point goes and how an exponent is spelled is a matter of the
format that the number is written in, and is given by a `Style`.
-/

namespace SealedDirectory.Double

/-- A nonnegative rational number as a quotient of naturals. -/
structure Ratio where
  top : Nat
  bottom : Nat

def Ratio.power (base : Nat) : Int → Ratio
  | .ofNat exponent => ⟨Nat.pow base exponent, 1⟩
  | .negSucc exponent => ⟨1, Nat.pow base (exponent + 1)⟩

/-- A rational number times a natural one. -/
def Ratio.scale (ratio : Ratio) (factor : Nat) : Ratio :=
  ⟨ratio.top * factor, ratio.bottom⟩

def Ratio.quotient (left right : Ratio) : Nat :=
  left.top * right.bottom / (left.bottom * right.top)

def Ratio.below (left right : Ratio) : Bool :=
  left.top * right.bottom < right.top * left.bottom

/-- A decimal number: `coefficient * 10 ^ exponent`. -/
structure Decimal where
  coefficient : Nat
  /-- The power of ten of the last digit. -/
  exponent : Int
  deriving DecidableEq, Repr

/-- The reals that round to a double. -/
structure Interval where
  value : Ratio
  low : Ratio
  high : Ratio
  closed : Bool

/-- The significand and the power of two of the bits of a finite double, its sign left aside. -/
def parts (bits : UInt64) : Nat × Int :=
  let field := bits.toNat / Nat.pow 2 52 % Nat.pow 2 11
  let fraction := bits.toNat % Nat.pow 2 52
  if field = 0 then (fraction, -1074) else (fraction + Nat.pow 2 52, Int.ofNat field - 1075)

def isNegative (bits : UInt64) : Bool :=
  Nat.pow 2 63 ≤ bits.toNat

/--
A double as a count of the smallest positive double, of which every finite double is a
multiple.  The infinite doubles count more than every finite one.
-/
def units (bits : UInt64) : Int :=
  let (significand, power) := parts bits
  let size : Int := significand * Nat.pow 2 (power + 1074).toNat
  if isNegative bits then -size else size

/-- How many of the smallest positive doubles make up the number one. -/
def unitsPerOne : Int := Nat.pow 2 1074

/-- The whole number that a double is, if it is one. -/
def whole? (bits : UInt64) : Option Int :=
  if units bits % unitsPerOne = 0 then some (units bits / unitsPerOne) else none

/--
The interval of a double.  It reaches half a unit to both sides, except that below
a power of two the neighbouring doubles are twice as dense.
-/
def Interval.ofParts (significand : Nat) (power : Int) : Interval :=
  let quarter := Ratio.power 2 (power - 2)
  let below := if significand = Nat.pow 2 52 ∧ -1074 < power then 1 else 2
  { value := quarter.scale (4 * significand)
    low := quarter.scale (4 * significand - below)
    high := quarter.scale (4 * significand + 2)
    closed := significand % 2 = 0 }

/-- Whether a rational number rounds to the double. -/
def Interval.holds (interval : Interval) (point : Ratio) : Bool :=
  if interval.closed then !point.below interval.low && !interval.high.below point
  else interval.low.below point && point.below interval.high

/-- The greatest power of ten that does not exceed a positive value, searched downward. -/
def leadingPower (value : Ratio) : (fuel : Nat) → (candidate : Int) → Int
  | 0, candidate => candidate
  | fuel + 1, candidate =>
      if value.below (Ratio.power 10 candidate) then
        leadingPower value fuel (candidate - 1)
      else candidate

/-- The distance of two rational numbers with the denominators cleared by both divisors. -/
def distance (left right : Ratio) : Nat :=
  let first := left.top * right.bottom
  let second := right.top * left.bottom
  max first second - min first second

/-- The nearer of the two neighbours of the value on a decimal grid, if one is in the interval. -/
def onGrid (interval : Interval) (exponent : Int) : Option Decimal :=
  let step := Ratio.power 10 exponent
  let below := interval.value.quotient step
  let above := below + 1
  let hasBelow := interval.holds (step.scale below)
  let hasAbove := interval.holds (step.scale above)
  if hasBelow && hasAbove then
    let left := distance interval.value (step.scale below)
    let right := distance interval.value (step.scale above)
    if left < right || (left == right && below % 2 == 0) then some ⟨below, exponent⟩
    else some ⟨above, exponent⟩
  else if hasBelow then some ⟨below, exponent⟩
  else if hasAbove then some ⟨above, exponent⟩
  else none

/-- The first grid with a decimal in the interval, from coarse to fine. -/
def onFinerGrids (interval : Interval) : (fuel : Nat) → (exponent : Int) → Decimal
  | 0, exponent => ⟨interval.value.quotient (Ratio.power 10 exponent), exponent⟩
  | fuel + 1, exponent =>
      match onGrid interval exponent with
      | some decimal => decimal
      | none => onFinerGrids interval fuel (exponent - 1)

/-- The shortest decimal that rounds to a finite double, its sign left aside. -/
def shortest (bits : UInt64) : Decimal :=
  let (significand, power) := parts bits
  if significand = 0 then ⟨0, 0⟩
  else
    let interval := Interval.ofParts significand power
    let leading := leadingPower interval.value 700 309
    onFinerGrids interval 17 leading

/-- How a number is laid out in a format. -/
structure Style where
  /-- Numbers below this power of ten are written with a plain point. -/
  plainBelow : Int
  /-- Numbers from this power of ten on are written with a plain point. -/
  plainFrom : Int
  /-- The sign of an exponent that is not negative. -/
  plusSign : String

/-- A digit string with a point after its first digit, unless it is one digit alone. -/
def pointed : List Char → List Char
  | [] => []
  | [digit] => [digit]
  | digit :: rest => digit :: '.' :: rest

/-- The text of a finite double in a style. -/
def Style.write (style : Style) (bits : UInt64) : String :=
  let sign := if isNegative bits then "-" else ""
  let decimal := shortest bits
  if decimal.coefficient = 0 then sign ++ "0.0"
  else
    let digits := (Nat.toDigits 10 decimal.coefficient)
    let trailing := (digits.reverse.takeWhile (· == '0')).length
    let digits := digits.take (digits.length - trailing)
    let last := decimal.exponent + trailing
    let leading := last + digits.length - 1
    if style.plainFrom ≤ leading ∧ leading < style.plainBelow then
      if 0 ≤ last then
        sign ++ String.ofList (digits ++ List.replicate last.toNat '0') ++ ".0"
      else if 0 ≤ leading then
        let whole := leading.toNat + 1
        sign ++ String.ofList (digits.take whole ++ '.' :: digits.drop whole)
      else
        sign ++ "0." ++ String.ofList (List.replicate (-leading - 1).toNat '0' ++ digits)
    else
      let mark := if leading < 0 then "-" else style.plusSign
      sign ++ String.ofList (pointed digits) ++ "e" ++ mark ++ toString leading.natAbs

end SealedDirectory.Double

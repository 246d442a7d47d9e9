import PropertyWeaver.Number.Binary

/-!
# Shortest decimal text of a float

A finite float is written with the fewest digits that read back as the same word: its rounding
interval is searched on ever finer decimal grids, and the first grid with a point inside the
interval gives the digits. The text is positional at every magnitude and has no fraction part when
that would be empty.
-/

set_option autoImplicit false

namespace PropertyWeaver

/-- The decimal number `coefficient * 10 ^ exponent`. -/
structure Decimal where
  coefficient : Nat
  exponent : Int
  deriving DecidableEq, Repr

namespace Decimal

def dropTrailingZeros (digits : List Char) : List Char :=
  (digits.reverse.dropWhile (· = '0')).reverse

/-- Positional text. No exponent is ever written, the integer part has at least one digit, and the
point appears only before a non-empty fraction. -/
def text (decimal : Decimal) : String :=
  if 0 ≤ decimal.exponent then
    toString (decimal.coefficient * Nat.pow 10 decimal.exponent.toNat)
  else
    let places := (-decimal.exponent).toNat
    let whole := decimal.coefficient / Nat.pow 10 places
    let digits := (toString (decimal.coefficient % Nat.pow 10 places)).toList
    let fraction := dropTrailingZeros (List.replicate (places - digits.length) '0' ++ digits)
    if fraction.isEmpty then toString whole
    else toString whole ++ "." ++ String.ofList fraction

end Decimal

/-- The reals that round to one float, and the float itself, in units of `2 ^ exponent`. The ends
belong to the interval when `closed` holds. -/
structure RoundingInterval where
  low : Nat
  centre : Nat
  high : Nat
  exponent : Int
  closed : Bool
  deriving DecidableEq, Repr

namespace RoundingInterval

/-- The interval of a positive finite value `significand * 2 ^ exponent`, in quarters of its last
bit. Below a power of two the neighbour is half as far, unless the exponent is already least. Ties
round to even, so the ends belong to an even significand. -/
def ofFinite (format : FloatFormat) (significand : Nat) (exponent : Int) : RoundingInterval where
  low :=
    if significand = Nat.pow 2 format.fractionBits ∧ format.leastExponent < exponent then
      4 * significand - 1
    else
      4 * significand - 2
  centre := 4 * significand
  high := 4 * significand + 2
  exponent := exponent - 2
  closed := significand % 2 = 0

/-- Factors `(up, down)` such that `n * 2 ^ exponent` is `n * up / down` multiples of
`10 ^ decimalExponent`. -/
def scale (interval : RoundingInterval) (decimalExponent : Int) : Nat × Nat :=
  (Nat.pow 2 interval.exponent.toNat * Nat.pow 10 (-decimalExponent).toNat,
    Nat.pow 2 (-interval.exponent).toNat * Nat.pow 10 decimalExponent.toNat)

/-- Whether a multiple of `10 ^ decimalExponent` rounds to the float. -/
def contains (interval : RoundingInterval) (decimalExponent : Int) (multiple : Nat) : Bool :=
  let (up, down) := interval.scale decimalExponent
  if interval.closed then
    interval.low * up ≤ multiple * down && multiple * down ≤ interval.high * up
  else
    interval.low * up < multiple * down && multiple * down < interval.high * up

/-- The point of the grid `10 ^ decimalExponent` that rounds to the float. Only the neighbours of
the float itself can; of two that do, the nearer is taken, and the upper one if both are equally
near. -/
def onGrid? (interval : RoundingInterval) (decimalExponent : Int) : Option Decimal :=
  let (up, down) := interval.scale decimalExponent
  let below := interval.centre * up / down
  let above := below + 1
  match interval.contains decimalExponent below, interval.contains decimalExponent above with
  | false, false => none
  | true, false => some ⟨below, decimalExponent⟩
  | false, true => some ⟨above, decimalExponent⟩
  | true, true =>
      if interval.centre * up - below * down < above * down - interval.centre * up then
        some ⟨below, decimalExponent⟩
      else
        some ⟨above, decimalExponent⟩

/-- The greatest power of ten that does not exceed the float. The search covers every magnitude of
the 64-bit format. -/
def leadingExponent (interval : RoundingInterval) : Int :=
  let candidates := (List.range 634).map fun (step : Nat) => (309 : Int) - (step : Int)
  let reached := candidates.find? fun (exponent : Int) =>
    let (up, down) := interval.scale exponent
    down ≤ interval.centre * up
  reached.getD (-325)

/-- The shortest decimal that rounds to the float: the first hit with one digit, two digits, and so
on. Seventeen digits tell any two 64-bit floats apart. -/
def shortest (interval : RoundingInterval) : Decimal :=
  let leading := interval.leadingExponent
  let hit := (List.range 17).findSome? fun (extra : Nat) =>
    interval.onGrid? (leading - (extra : Int))
  hit.getD ⟨0, 0⟩

end RoundingInterval

/-- Text of a word of the given format. NaN is written without a sign, zero with one. -/
def FloatFormat.text (format : FloatFormat) (word : Nat) : String :=
  let sign (negative : Bool) := if negative then "-" else ""
  match format.value word with
  | .nan => "NaN"
  | .infinite negative => sign negative ++ "inf"
  | .finite negative significand exponent =>
      let magnitude :=
        if significand = 0 then "0"
        else (RoundingInterval.ofFinite format significand exponent).shortest.text
      sign negative ++ magnitude

def Binary32.text (word : Binary32) : String :=
  FloatFormat.binary32.text word.bits.toNat

def Binary64.text (word : Binary64) : String :=
  FloatFormat.binary64.text word.bits.toNat

end PropertyWeaver

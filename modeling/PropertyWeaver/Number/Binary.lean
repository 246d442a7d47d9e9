/-!
# Binary floating-point words

Floats are kept as the words that a module image stores, so every NaN payload and the sign of zero
survive. A `FloatFormat` gives the number a word stands for, as an integer times a power of two.
-/

set_option autoImplicit false

namespace PropertyWeaver

/-- Widths of the exponent and of the fraction of a binary interchange format. -/
structure FloatFormat where
  exponentBits : Nat
  fractionBits : Nat
  deriving DecidableEq, Repr

/-- What a floating-point word stands for. A finite value is `significand * 2 ^ exponent`, negated
if `negative`; zero keeps its sign. -/
inductive FloatValue where
  | nan
  | infinite (negative : Bool)
  | finite (negative : Bool) (significand : Nat) (exponent : Int)
  deriving DecidableEq, Repr

namespace FloatFormat

def binary32 : FloatFormat := ⟨8, 23⟩

def binary64 : FloatFormat := ⟨11, 52⟩

/-- Exponent of the least significant bit of the smallest normal number, and of every subnormal. -/
def leastExponent (format : FloatFormat) : Int :=
  2 - (Nat.pow 2 (format.exponentBits - 1) : Int) - (format.fractionBits : Int)

/-- The value of a word of this format. Words wider than the format are not expected. -/
def value (format : FloatFormat) (word : Nat) : FloatValue :=
  let leadingBit := Nat.pow 2 format.fractionBits
  let exponents := Nat.pow 2 format.exponentBits
  let fraction := word % leadingBit
  let biased := word / leadingBit % exponents
  let negative := word / (leadingBit * exponents) % 2 = 1
  if biased = exponents - 1 then
    if fraction = 0 then .infinite negative else .nan
  else if biased = 0 then
    .finite negative fraction format.leastExponent
  else
    .finite negative (leadingBit + fraction) (format.leastExponent + (biased - 1 : Nat))

end FloatFormat

/-- Equality of numbers rather than of words: a NaN differs from everything, itself included, and
the two zeros are equal. Two words of one format that are neither are equal only if they agree. -/
def FloatValue.sameNumber : FloatValue → FloatValue → Bool
  | .nan, _ | _, .nan => false
  | .finite negative significand exponent, .finite negative' significand' exponent' =>
      (significand = 0 && significand' = 0) ||
        (negative = negative' && significand = significand' && exponent = exponent')
  | left, right => left = right

structure Binary32 where
  bits : UInt32
  deriving DecidableEq, Repr, Inhabited

structure Binary64 where
  bits : UInt64
  deriving DecidableEq, Repr, Inhabited

def Binary32.value (word : Binary32) : FloatValue :=
  FloatFormat.binary32.value word.bits.toNat

def Binary64.value (word : Binary64) : FloatValue :=
  FloatFormat.binary64.value word.bits.toNat

end PropertyWeaver

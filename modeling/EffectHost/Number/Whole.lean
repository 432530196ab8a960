import EffectHost.Number.Binary

/-!
# Whole numbers from script values

Handles, addresses, buses, masks and string numbers are whole numbers that arrive
as script values.  A value past the end of the wanted range stands for that end,
and a value that is not a number stands for zero.
-/

namespace EffectHost
namespace Number

/-- The least and greatest signed 64-bit number. -/
def leastSigned : Int := -(twoTo 63 : Int)

@[inherit_doc leastSigned]
def greatestSigned : Int := (twoTo 63 : Int) - 1

/-- The greatest unsigned 64-bit number. -/
def greatestUnsigned : Int := (twoTo 64 : Int) - 1

/-- The value, moved to the nearer end of the range where it lies outside. -/
def clamp (low high value : Int) : Int :=
  max low (min high value)

/-- The whole part of `mantissa * 2 ^ exponent`. -/
def wholePart (mantissa : Nat) (exponent : Int) : Nat :=
  if 0 ≤ exponent then mantissa * twoTo exponent.toNat
  else mantissa / twoTo (-exponent).toNat

/-- The whole number nearest to `mantissa * 2 ^ exponent`; a half goes up. -/
def nearestWhole (mantissa : Nat) (exponent : Int) : Nat :=
  if 0 ≤ exponent then mantissa * twoTo exponent.toNat
  else (2 * mantissa + twoTo (-exponent).toNat) / twoTo ((-exponent).toNat + 1)

/-- A signed whole number obtained from the magnitude by `whole`. -/
def toWholeBy (whole : Nat → Int → Nat) (low high : Int) (value : Float) : Int :=
  match reading value with
  | .nan => 0
  | .infinite negative => if negative then low else high
  | .finite negative mantissa exponent =>
    let magnitude : Int := whole mantissa exponent
    clamp low high (if negative then -magnitude else magnitude)

/-- Cut off the fraction. -/
def truncate (low high : Int) (value : Float) : Int :=
  toWholeBy wholePart low high value

/-- Round to the nearest whole number, halves away from zero. -/
def round (low high : Int) (value : Float) : Int :=
  toWholeBy nearestWhole low high value

/-- Cut off the fraction, as a signed 64-bit number. -/
def toSigned (value : Float) : Int :=
  truncate leastSigned greatestSigned value

/-- Round, as a signed 64-bit number. -/
def roundToSigned (value : Float) : Int :=
  round leastSigned greatestSigned value

/-- A natural number below 2 ^ 64, fraction cut off; negative values give zero. -/
def toNatural (value : Float) : Nat :=
  (truncate 0 greatestUnsigned value).toNat

/-- A natural number below 2 ^ 32, fraction cut off; negative values give zero. -/
def toNatural32 (value : Float) : Nat :=
  min (toNatural value) (twoTo 32 - 1)

/-- The value has no fraction.  The infinities have none either, but are no whole
numbers. -/
def isWhole (value : Float) : Bool :=
  match reading value with
  | .finite _ mantissa exponent => 0 ≤ exponent || mantissa % twoTo (-exponent).toNat == 0
  | _ => false

end Number
end EffectHost

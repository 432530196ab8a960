import EffectHost.Number.Power

/-!
# Binary interchange formats

Script values are double precision numbers; files, serialized data and state
blobs hold single precision words.  A word of either format is read as a sign, a
mantissa and a power of two, and a number of that shape is written back by
rounding to the nearest word, ties to even.  All of it is exact arithmetic on
natural numbers, so every conversion here can be computed inside a proof.

All words that are not numbers read alike, and one word is written for them.
-/

namespace EffectHost
namespace Number

/-- Field widths of a binary format.  A word holds, from the top, a sign bit, the
exponent and the fraction. -/
structure Format where
  fractionBits : Nat
  exponentBits : Nat
deriving DecidableEq

/-- What a word means: `mantissa * 2 ^ exponent` with a sign, or one of the two
special classes. -/
inductive Reading where
  | nan
  | infinite (negative : Bool)
  | finite (negative : Bool) (mantissa : Nat) (exponent : Int)
deriving DecidableEq, Repr

/-- The quotient of `value` by `2 ^ shift`, rounded to nearest, ties to even. -/
def shiftRounded (value shift : Nat) : Nat :=
  let quotient := value / twoTo shift
  let twice := 2 * (value % twoTo shift)
  if twoTo shift < twice || (twice == twoTo shift && quotient % 2 == 1) then quotient + 1
  else quotient

/-- A shift by nothing is exact. -/
@[simp] theorem shiftRounded_zero (value : Nat) : shiftRounded value 0 = value := by
  simp [shiftRounded, Nat.mod_one]

namespace Format

/-- Four byte words. -/
@[inline] def single : Format := ⟨23, 8⟩

/-- Eight byte words. -/
@[inline] def double : Format := ⟨52, 11⟩

/-- The exponent field of the infinities and of the words that are no numbers. -/
@[inline] def topField (format : Format) : Nat :=
  twoTo format.exponentBits - 1

/-- The exponent of the smallest positive number. -/
@[inline] def leastExponent (format : Format) : Int :=
  (2 : Int) - twoTo (format.exponentBits - 1) - format.fractionBits

/-- Read a word. -/
@[inline] def unpack (format : Format) (word : Nat) : Reading :=
  let fraction := word % twoTo format.fractionBits
  let field := word / twoTo format.fractionBits % twoTo format.exponentBits
  let negative := word / twoTo (format.fractionBits + format.exponentBits) % 2 == 1
  if field == format.topField then
    if fraction == 0 then .infinite negative else .nan
  else if field == 0 then .finite negative fraction format.leastExponent
  else .finite negative (twoTo format.fractionBits + fraction)
    (format.leastExponent + (field - 1 : Nat))

/-- The word of a magnitude, without its sign bit.  Adding the mantissa to the
exponent field carries over when rounding reaches the next power of two, and the
infinity is the word past the greatest number. -/
@[inline] def packMagnitude (format : Format) (mantissa : Nat) (exponent : Int) : Nat :=
  if mantissa == 0 then 0
  else
    let natural := exponent + Nat.log2 mantissa - format.fractionBits
    let target := max natural format.leastExponent
    let units :=
      if target ≤ exponent then mantissa * twoTo (exponent - target).toNat
      else shiftRounded mantissa (target - exponent).toNat
    let field := (target - format.leastExponent).toNat
    min (field * twoTo format.fractionBits + units)
      (format.topField * twoTo format.fractionBits)

/-- The word nearest to a reading. -/
@[inline] def pack (format : Format) (reading : Reading) : Nat :=
  let signed (negative : Bool) (magnitude : Nat) : Nat :=
    if negative then magnitude + twoTo (format.fractionBits + format.exponentBits)
    else magnitude
  let top := format.topField * twoTo format.fractionBits
  match reading with
  | .nan => top + twoTo (format.fractionBits - 1)
  | .infinite negative => signed negative top
  | .finite negative mantissa exponent =>
    signed negative (format.packMagnitude mantissa exponent)

end Format

/-- The exact meaning of a script value. -/
def reading (value : Float) : Reading :=
  Format.double.unpack value.toBits.toNat

/-- The script value nearest to a reading. -/
def ofReading (meaning : Reading) : Float :=
  Float.ofBits (Format.double.pack meaning).toUInt64

/-- The single precision word nearest to a script value. -/
def narrow (value : Float) : UInt32 :=
  (Format.single.pack (reading value)).toUInt32

/-- The script value of a single precision word, which is exact. -/
def widen (word : UInt32) : Float :=
  ofReading (Format.single.unpack word.toNat)

/-- A script value rounded to single precision. -/
def roundToSingle (value : Float) : Float :=
  widen (narrow value)

end Number
end EffectHost

import EffectHost.Number.Binary
import Mathlib

/-!
# The bits of script values

A script value is made from an eight byte word, of which it keeps a sign, a mantissa and an
exponent, and its bits are put together from these three.  They are the bits of the word
again, unless the word is no number: all such words stand for one value.
-/

namespace EffectHost
namespace Number

/-- A number between two powers of two has the lower power as its logarithm. -/
theorem log2_eq_of_bounds {value power : Nat} (low : 2 ^ power ≤ value)
    (high : value < 2 ^ (power + 1)) : value.log2 = power := by
  have positive : value ≠ 0 := by
    have least := Nat.two_pow_pos power
    omega
  exact (Nat.log2_eq_iff positive).mpr ⟨low, high⟩

open Float.Model (Format UnpackedFloat)
open Float.Model.UnpackedFloat

variable {word : BitVec Format.binary64.numBits}

/-- A word whose exponent and fraction are known is made up of its three fields. -/
theorem packComponents_of_fields {exponent : BitVec 11} {fraction : BitVec 52}
    (upper : unpackExponent word = exponent) (lower : unpackMantissa word = fraction) :
    packComponents .binary64 (.ofBitVec (unpackSign word)) exponent fraction = word := by
  have sign : (Sign.ofBitVec (unpackSign word)).toBitVec = unpackSign word := by
    rcases BitVec.eq_zero_or_eq_one (unpackSign word) with clear | raised
    · rw [clear]
      rfl
    · rw [raised]
      rfl
  subst upper lower
  rw [packComponents, sign]
  simp only [unpackSign, unpackExponent, unpackMantissa, BitVec.extractLsb]
  ext position inside
  grind

/-- The fraction of a subnormal word is too short for a mantissa with the implicit bit. -/
theorem pack_subnormal {sign : Sign} {fraction : BitVec 52} {exponent : Int}
    {positive : 0 < fraction.toNat} (least : exponent = -1074) :
    pack .binary64 (.finite sign fraction.toNat exponent positive) =
      packComponents .binary64 sign 0#11 fraction := by
  have short : fraction.toNat.log2 < 52 := (Nat.log2_lt (by omega)).mpr fraction.isLt
  have width : Format.binary64.mantissaBits = 53 := rfl
  subst least
  rw [pack]
  dsimp only
  rw [if_neg (by decide), if_neg (by omega), BitVec.ofNat_toNat, BitVec.setWidth_eq]

/-- The mantissa of a normal word is its fraction behind the implicit bit. -/
theorem pack_normal {sign : Sign} {field : BitVec 11} {fraction : BitVec 52} {mantissa : Nat}
    {exponent : Int} {positive : 0 < mantissa} (finite : field.toNat < 2047)
    (implicit : mantissa = 2 ^ 52 + fraction.toNat) (biased : exponent = field.toNat - 1075) :
    pack .binary64 (.finite sign mantissa exponent positive) =
      packComponents .binary64 sign field fraction := by
  have size : fraction.toNat < 2 ^ 52 := fraction.isLt
  have long : mantissa.log2 = 52 := log2_eq_of_bounds (by omega) (by omega)
  have same : (exponent + (1023 : Nat) + (52 : Nat)).toNat = field.toNat := by omega
  have low : BitVec.ofNat 52 mantissa = fraction := by
    apply BitVec.eq_of_toNat_eq
    rw [BitVec.toNat_ofNat]
    omega
  have upper : Format.binary64.exponentBias = 1023 := rfl
  rw [pack]
  dsimp only
  rw [upper, same, if_neg (by omega), if_pos (by rw [long]; rfl), low, BitVec.ofNat_toNat,
    BitVec.setWidth_eq]

/-- The implicit bit stands in front of the fraction. -/
theorem toNat_implicit (fraction : BitVec 52) :
    (1#1 ++ fraction).toNat = 2 ^ 52 + fraction.toNat := by
  rw [BitVec.toNat_append, ← Nat.shiftLeft_add_eq_or_of_lt fraction.isLt]
  rfl

/-- A valid word that is packed again after unpacking is the same word. -/
theorem pack_unpack_of_valid (valid : Format.binary64.Valid word) :
    pack .binary64 (unpack .binary64 word) = word := by
  rw [unpack]
  dsimp only
  split
  · next top =>
      split
      · next whole => exact packComponents_of_fields top whole
      · next other => exact (valid.eq_packedNaN top other).symm
  · next finite =>
      split
      · next least =>
          split
          · next zero => exact packComponents_of_fields least zero
          · next nonzero =>
              rw [pack_subnormal]
              · exact packComponents_of_fields least rfl
              · rw [least]
                rfl
      · next normal =>
          have inside : (unpackExponent word).toNat < 2047 := by
            have top : (unpackExponent word).toNat ≠ 2047 := fun same =>
              finite (BitVec.eq_of_toNat_eq same)
            have size : (unpackExponent word).toNat < 2 ^ 11 := (unpackExponent word).isLt
            omega
          rw [pack_normal inside (toNat_implicit _)]
          · exact packComponents_of_fields rfl rfl
          · rfl

/-- A script value that is made from a word has the word as its bits, unless the word is no
number. -/
theorem toBits_ofBits {bits : UInt64} (number : bits.toNat % 2 ^ 63 ≤ 2047 * 2 ^ 52) :
    (Float.ofBits bits).toBits = bits := by
  have valid : Format.binary64.Valid bits.toBitVec := by
    refine ⟨fun top nonzero => absurd number ?_⟩
    have field : bits.toNat / 2 ^ 52 % 2 ^ 11 = 2047 := by
      have upper := congrArg BitVec.toNat top
      simpa [unpackExponent, Nat.shiftRight_eq_div_pow] using upper
    have fraction : bits.toNat % 2 ^ 52 ≠ 0 := by
      intro whole
      apply nonzero
      apply BitVec.eq_of_toNat_eq
      simpa [unpackMantissa] using whole
    omega
  change UInt64.ofBitVec (pack .binary64 (unpack .binary64 bits.toBitVec)) = bits
  rw [pack_unpack_of_valid valid]

end Number
end EffectHost

import EffectHost.Proofs.Number.Nearest
import EffectHost.Proofs.Number.Single

/-!
# Script values by sign, mantissa and exponent

Script arithmetic unpacks a value, and a reading of the value has the same sign, mantissa and
exponent.  A number of full precision comes back when it is packed and unpacked, and a value
when it is unpacked and packed.
-/

namespace EffectHost
namespace Number

open Float.Model (UnpackedFloat Format)
open Float.Model.UnpackedFloat

/-- The sign of a packed number. -/
theorem ofBitVec_unpackSign {sign : Sign} {exponent : BitVec 11} {fraction : BitVec 52} :
    Sign.ofBitVec (unpackSign (packComponents .binary64 sign exponent fraction)) = sign := by
  have bit : unpackSign (packComponents .binary64 sign exponent fraction) = sign.toBitVec := by
    ext position only
    obtain rfl : position = 0 := by omega
    simp only [unpackSign, packComponents, BitVec.extractLsb, BitVec.getElem_cast,
      BitVec.getElem_extractLsb', BitVec.getLsbD_append]
    grind
  rw [bit]
  cases sign <;> rfl

/-- A number of full precision is unpacked as it was packed. -/
theorem unpack_pack {sign : Sign} {mantissa : ℕ} {exponent : ℤ}
    (canonical : Canonical mantissa exponent) (finite : exponent ≤ 971) :
    (Float.Model.pack (.finite sign mantissa exponent canonical.positive)).unpack =
      .finite sign mantissa exponent canonical.positive := by
  rcases canonical with ⟨positive, short, least, full⟩
  have bias : Format.binary64.exponentBias = 1023 := rfl
  change unpack .binary64 (pack .binary64 (.finite sign mantissa exponent positive)) = _
  by_cases normal : 2 ^ 52 ≤ mantissa
  · let field : BitVec 11 := .ofNat 11 (exponent + 1075).toNat
    let fraction : BitVec 52 := .ofNat 52 (mantissa - 2 ^ 52)
    have field_toNat : field.toNat = (exponent + 1075).toNat := by
      rw [BitVec.toNat_ofNat]
      omega
    have fraction_toNat : fraction.toNat = mantissa - 2 ^ 52 := by
      rw [BitVec.toNat_ofNat]
      omega
    have packed : pack .binary64 (.finite sign mantissa exponent positive) =
        packComponents .binary64 sign field fraction :=
      pack_normal (by omega) (by omega) (by omega)
    have inner : field ≠ -1#11 := fun top => by
      have same := congrArg BitVec.toNat top
      simp at same
      omega
    have some : field ≠ 0#11 := fun bottom => by
      have same := congrArg BitVec.toNat bottom
      simp at same
      omega
    have implicit : (1#1 ++ fraction).toNat = mantissa := by
      rw [toNat_implicit]
      omega
    have exponents : (field.toNat : ℤ) - (Format.binary64.exponentBias + (52 : ℕ)) = exponent := by
      omega
    rw [packed, unpack]
    simp only [unpackExponent_packComponents, unpackMantissa_packComponents, ofBitVec_unpackSign,
      if_neg inner, if_neg some, implicit]
    rw [exponents]
  · have lowest : exponent = -1074 := full.resolve_left normal
    let fraction : BitVec 52 := .ofNat 52 mantissa
    have fraction_toNat : fraction.toNat = mantissa := by
      rw [BitVec.toNat_ofNat]
      omega
    have packed : pack .binary64 (.finite sign mantissa exponent positive) =
        packComponents .binary64 sign 0#11 fraction := by
      have whole := @pack_subnormal sign fraction exponent (by omega) lowest
      simpa only [fraction_toNat] using whole
    have some : fraction ≠ 0#52 := fun none => by
      have same := congrArg BitVec.toNat none
      rw [fraction_toNat] at same
      simp at same
      omega
    have inner : (0#11 : BitVec 11) ≠ -1#11 := by decide
    have exponents : ((0#11).toNat : ℤ) - (Format.binary64.exponentBias + (52 : ℕ)) + 1 =
        exponent := by
      rw [bias, lowest]
      rfl
    rw [packed, unpack]
    simp only [unpackExponent_packComponents, unpackMantissa_packComponents, ofBitVec_unpackSign,
      if_neg inner, dif_neg some, fraction_toNat, if_true, exponents]

/-! ## Readings -/

/-- The sign as a script value has it. -/
def isNegative : Sign → Bool
  | .negative => true
  | .positive => false

/-- An unpacked number and the reading of the same word. -/
inductive Means : UnpackedFloat → Reading → Prop
  | nan : Means .notANumber .nan
  | infinite (sign : Sign) : Means (.infinity sign) (.infinite (isNegative sign))
  | zero (sign : Sign) : Means (.zero sign) (.finite (isNegative sign) 0 (-1074))
  | finite (sign : Sign) {mantissa : ℕ} {exponent : ℤ} (canonical : Canonical mantissa exponent)
      (finite : exponent ≤ 971) :
      Means (.finite sign mantissa exponent canonical.positive)
        (.finite (isNegative sign) mantissa exponent)

/-- A word is read field by field. -/
theorem unpack_double_eq (word : BitVec Format.binary64.numBits) :
    Format.double.unpack word.toNat =
      if (unpackExponent word).toNat = 2047 then
        if (unpackMantissa word).toNat = 0 then
          .infinite (isNegative (.ofBitVec (unpackSign word)))
        else .nan
      else if (unpackExponent word).toNat = 0 then
        .finite (isNegative (.ofBitVec (unpackSign word))) (unpackMantissa word).toNat (-1074)
      else
        .finite (isNegative (.ofBitVec (unpackSign word))) (2 ^ 52 + (unpackMantissa word).toNat)
          (-1074 + ((unpackExponent word).toNat - 1 : ℕ)) := by
  have size : word.toNat < 2 ^ 64 := word.isLt
  have field : (unpackExponent word).toNat = word.toNat / 2 ^ 52 % 2 ^ 11 := by
    simp [unpackExponent, Nat.shiftRight_eq_div_pow]
  have fraction : (unpackMantissa word).toNat = word.toNat % 2 ^ 52 := by
    simp [unpackMantissa]
  have bit : (unpackSign word).toNat = word.toNat / 2 ^ 63 % 2 := by
    simp [unpackSign, Nat.shiftRight_eq_div_pow]
  have sign : (isNegative (.ofBitVec (unpackSign word))).toNat = (unpackSign word).toNat := by
    rcases BitVec.eq_zero_or_eq_one (unpackSign word) with clear | raised
    · rw [clear]
      rfl
    · rw [raised]
      rfl
  apply Format.unpack_double (unpackMantissa word).isLt (unpackExponent word).isLt
  rw [Format.signBit, Format.fractionBits_double, Format.exponentBits_double, sign, field,
    fraction, bit]
  omega

/-- A script value is unpacked to what it is read as. -/
theorem means_unpack (value : Float) : Means value.toModel.unpack (reading value) := by
  let word : BitVec Format.binary64.numBits := value.toModel.toBits.toBitVec
  have short : (unpackMantissa word).toNat < 2 ^ 52 := (unpackMantissa word).isLt
  have read : reading value = Format.double.unpack word.toNat := rfl
  rw [read, unpack_double_eq]
  change Means (unpack .binary64 word) _
  rw [unpack]
  dsimp only
  by_cases top : (unpackExponent word).toNat = 2047
  · have top' : unpackExponent word = -1#11 := BitVec.eq_of_toNat_eq top
    rw [if_pos top, if_pos top']
    by_cases none : (unpackMantissa word).toNat = 0
    · have none' : unpackMantissa word = 0#52 := BitVec.eq_of_toNat_eq none
      rw [if_pos none, if_pos none']
      exact .infinite _
    · have some : unpackMantissa word ≠ 0#52 := fun same => none (congrArg BitVec.toNat same)
      rw [if_neg none, if_neg some]
      exact .nan
  · have inner : unpackExponent word ≠ -1#11 := fun same => top (congrArg BitVec.toNat same)
    rw [if_neg top, if_neg inner]
    by_cases bottom : (unpackExponent word).toNat = 0
    · have bottom' : unpackExponent word = 0#11 := BitVec.eq_of_toNat_eq bottom
      rw [if_pos bottom, if_pos bottom']
      by_cases none : unpackMantissa word = 0#52
      · rw [dif_pos none, none]
        exact .zero _
      · have positive : 0 < (unpackMantissa word).toNat :=
          Nat.pos_of_ne_zero fun same => none (BitVec.eq_of_toNat_eq same)
        have canonical : Canonical (unpackMantissa word).toNat (-1074) :=
          ⟨positive, by omega, le_refl _, .inr rfl⟩
        have exponent : ((unpackExponent word).toNat : ℤ) -
            (Format.binary64.exponentBias + Format.binary64.mantissaBitsWithoutImplicit) + 1 =
              -1074 := by
          rw [bottom]
          rfl
        simp only [dif_neg none, exponent]
        exact .finite _ canonical (by norm_num)
    · have some : unpackExponent word ≠ 0#11 := fun same => bottom (congrArg BitVec.toNat same)
      have inside : (unpackExponent word).toNat < 2 ^ 11 := (unpackExponent word).isLt
      have implicit : (1#1 ++ unpackMantissa word).toNat =
          2 ^ 52 + (unpackMantissa word).toNat := toNat_implicit _
      have exponent : ((unpackExponent word).toNat : ℤ) -
          (Format.binary64.exponentBias + Format.binary64.mantissaBitsWithoutImplicit) =
            -1074 + ((unpackExponent word).toNat - 1 : ℕ) := by
        change ((unpackExponent word).toNat : ℤ) - (1023 + 52) = _
        omega
      have canonical : Canonical (2 ^ 52 + (unpackMantissa word).toNat)
          (-1074 + ((unpackExponent word).toNat - 1 : ℕ)) :=
        ⟨by omega, by omega, by omega, .inl (by omega)⟩
      simp only [if_neg bottom, if_neg some, implicit, exponent]
      exact .finite _ canonical (by omega)

/-- A script value is determined by what it is unpacked to. -/
theorem ofModel_pack_unpack (value : Float) :
    Float.ofModel (.pack value.toModel.unpack) = value := by
  rcases value with ⟨⟨bits, valid⟩⟩
  have same := pack_unpack_of_valid valid
  apply congrArg Float.ofModel
  rw [Float.Model.pack, Float.Model.mk.injEq, Float.Model.unpack, same]

end Number
end EffectHost

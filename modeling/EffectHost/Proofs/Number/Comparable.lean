import EffectHost.Proofs.Number.Whole

/-!
# Values that equal themselves

Script values are compared by what they are unpacked to.  Every value but the one that is no
number equals itself.  Rounding gives a number, and so every natural number has a value that
equals itself, infinity included.
-/

namespace EffectHost
namespace Number

open Float.Model (UnpackedFloat Format)
open Float.Model.UnpackedFloat

/-- What is packed from a number has no fraction where the exponent field is full. -/
theorem exists_pack_eq {unpacked : UnpackedFloat} (number : unpacked ≠ .notANumber) :
    ∃ (sign : Sign) (field : BitVec 11) (fraction : BitVec 52),
      pack .binary64 unpacked = packComponents .binary64 sign field fraction ∧
        (field = -1#11 → fraction = 0#52) := by
  have bottom : (0#11 : BitVec 11) ≠ -1#11 := by decide
  cases unpacked with
  | notANumber => exact absurd rfl number
  | infinity sign => exact ⟨sign, -1#11, 0#52, rfl, fun _ => rfl⟩
  | zero sign => exact ⟨sign, 0#11, 0#52, rfl, fun _ => rfl⟩
  | finite sign mantissa exponent positive =>
      rw [pack]
      dsimp only
      split
      · exact ⟨sign, -1#11, 0#52, rfl, fun _ => rfl⟩
      · next small =>
          split
          · refine ⟨sign, _, _, rfl, fun top => ?_⟩
            have same := congrArg BitVec.toNat top
            simp at same small
            omega
          · exact ⟨sign, 0#11, _, rfl, fun top => absurd top bottom⟩

/-- A number stays one when it is packed. -/
theorem unpack_pack_ne_notANumber {unpacked : UnpackedFloat}
    (number : unpacked ≠ .notANumber) :
    (Float.Model.pack unpacked).unpack ≠ .notANumber := by
  rcases exists_pack_eq number with ⟨sign, field, fraction, packed, none⟩
  change unpack .binary64 (pack .binary64 unpacked) ≠ _
  rw [packed, unpack]
  simp only [unpackExponent_packComponents, unpackMantissa_packComponents]
  split
  · next top =>
      rw [if_pos (none top)]
      nofun
  · split
    · split <;> nofun
    · nofun

/-- A number equals itself. -/
theorem beq_self_of_unpack {value : Float} (number : value.toModel.unpack ≠ .notANumber) :
    (value == value) = true := by
  change (UnpackedFloat.compare value.toModel.unpack value.toModel.unpack == some .eq) = true
  cases parts : value.toModel.unpack with
  | notANumber => exact absurd parts number
  | infinity sign => cases sign <;> rfl
  | zero sign => rfl
  | finite sign mantissa exponent positive =>
      cases sign <;> simp [UnpackedFloat.compare, Ordering.then]

/-- Rounding gives a number. -/
theorem roundWithAccuracy_ne_notANumber (sign : Sign) (mantissa : ℕ) (exponent : ℤ)
    (accuracy : Accuracy) :
    roundWithAccuracy .binary64 sign mantissa exponent accuracy ≠ .notANumber := by
  unfold roundWithAccuracy
  dsimp only
  split <;> nofun

/-- A number in front of whole powers of ten is a number. -/
theorem ofScientific_ne_notANumber (digits power : ℕ) :
    UnpackedFloat.ofScientific .binary64 digits power ≠ .notANumber := by
  rw [UnpackedFloat.ofScientific]
  split
  · simp
  · split
    · simp
    · split
      · simp
      · rw [if_pos (Int.natCast_nonneg power)]
        exact roundWithAccuracy_ne_notANumber _ _ _ _

/-- Every natural number has a value that equals itself. -/
theorem beq_self_ofNat (number : ℕ) : (Float.ofNat number == Float.ofNat number) = true := by
  by_cases none : number = 0
  · subst none
    decide +kernel
  apply beq_self_of_unpack
  by_cases short : number < 2 ^ 53
  · rw [unpack_ofNat none short]
    nofun
  · change (Float.ofScientific number false 0).toModel.unpack ≠ _
    rw [Float.ofScientific, dif_neg fun fast => short fast.1]
    exact unpack_pack_ne_notANumber (ofScientific_ne_notANumber number 0)

end Number
end EffectHost

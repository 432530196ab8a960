import EffectHost.Number.Whole
import EffectHost.Proofs.Number.Scientific

/-!
# Whole numbers as script values

Bytes, sizes, frames and buses become script values and are made whole numbers again.  Nothing
is lost on the way: a natural number of at most 53 bits is exact as a script value, it comes
back when it is rounded or its fraction is cut off, and sums and products that are no longer
are exact as well.
-/

namespace EffectHost
namespace Number

open Float.Model (UnpackedFloat Format totalExponent)
open Float.Model.UnpackedFloat

variable {number first second mantissa : ℕ} {exponent one two : ℤ}

/-- A short number is exact as a script value. -/
theorem ofNat_eq_value (some : number ≠ 0) (short : number < 2 ^ 53) :
    Float.ofNat number = (canonical_of_short some short).value .positive := by
  have log : number.log2 ≤ 52 := Nat.lt_succ_iff.mp ((Nat.log2_lt some).mpr short)
  have rounds := roundsTo_self (number * 2 ^ (52 - number.log2)) (number.log2 - 52)
  rw [shifted_eq log, ← mul_one (number : ℚ), ← pow_zero (10 : ℚ)] at rounds
  exact float_ofScientific_whole some (by decide) (canonical_of_short some short) rounds

/-! ## Back to whole numbers -/

/-- A short number fills its mantissa when it is shifted. -/
theorem unpack_ofNat (some : number ≠ 0) (short : number < 2 ^ 53) :
    (Float.ofNat number).toModel.unpack =
      .finite .positive (number * 2 ^ (52 - number.log2)) (number.log2 - 52)
        (canonical_of_short some short).positive := by
  have log : number.log2 < 53 := (Nat.log2_lt some).mpr short
  rw [ofNat_eq_value some short]
  exact unpack_pack (canonical_of_short some short) (by omega)

theorem reading_ofNat (some : number ≠ 0) (short : number < 2 ^ 53) :
    reading (Float.ofNat number) =
      .finite false (number * 2 ^ (52 - number.log2)) (number.log2 - 52) := by
  have means := means_unpack (Float.ofNat number)
  rw [unpack_ofNat some short] at means
  generalize reading (Float.ofNat number) = meaning at means
  cases means
  rfl

/-- No number is below zero. -/
theorem not_ofNat_lt_zero (short : number < 2 ^ 53) : ¬ Float.ofNat number < 0.0 := by
  by_cases some : number = 0
  · subst some
    decide +kernel
  · have zero : (0.0 : Float).toModel.unpack = .zero .positive := rfl
    have above : (Float.ofNat number).toModel.unpack.lt (0.0 : Float).toModel.unpack = false := by
      rw [unpack_ofNat some short, zero]
      rfl
    intro below
    exact Bool.false_ne_true (above.symm.trans (of_decide_eq_true below))

theorem wholePart_shifted {log : ℕ} (small : log ≤ 52) (number : ℕ) :
    wholePart (number * 2 ^ (52 - log)) (log - 52) = number := by
  rw [wholePart]
  split
  · next whole =>
      have full : log = 52 := by omega
      subst full
      simp
  · have shift : (-((log : ℤ) - 52)).toNat = 52 - log := by omega
    rw [shift, twoTo, Nat.one_shiftLeft, Nat.mul_div_cancel _ (Nat.two_pow_pos _)]

theorem nearestWhole_shifted {log : ℕ} (small : log ≤ 52) (number : ℕ) :
    nearestWhole (number * 2 ^ (52 - log)) (log - 52) = number := by
  rw [nearestWhole]
  split
  · next whole =>
      have full : log = 52 := by omega
      subst full
      simp
  · have shift : (-((log : ℤ) - 52)).toNat = 52 - log := by omega
    have unit := Nat.two_pow_pos (52 - log)
    have halves : 2 * (number * 2 ^ (52 - log)) + 2 ^ (52 - log) =
        (2 * number + 1) * 2 ^ (52 - log) := by ring
    rw [shift, twoTo, twoTo, Nat.one_shiftLeft, Nat.one_shiftLeft, halves, Nat.pow_succ',
      Nat.mul_div_mul_right _ _ unit]
    omega

/-- Whoever gets the number back from its mantissa gets it back from its script value. -/
theorem toWholeBy_ofNat {whole : ℕ → ℤ → ℕ} (nothing : whole 0 (-1074) = 0)
    (shifted : ∀ {log : ℕ}, log ≤ 52 → ∀ number, whole (number * 2 ^ (52 - log)) (log - 52) = number)
    (low high : ℤ) (short : number < 2 ^ 53) :
    toWholeBy whole low high (Float.ofNat number) = clamp low high number := by
  rw [toWholeBy]
  by_cases some : number = 0
  · subst some
    have zero : reading (Float.ofNat 0) = .finite false 0 (-1074) := by decide +kernel
    rw [zero]
    dsimp only
    rw [nothing]
    rfl
  · have log : number.log2 < 53 := (Nat.log2_lt some).mpr short
    rw [reading_ofNat some short]
    dsimp only
    rw [shifted (Nat.le_of_lt_succ log)]
    rfl

theorem truncate_ofNat (low high : ℤ) (short : number < 2 ^ 53) :
    truncate low high (Float.ofNat number) = clamp low high number :=
  toWholeBy_ofNat (by decide) wholePart_shifted low high short

theorem round_ofNat (low high : ℤ) (short : number < 2 ^ 53) :
    round low high (Float.ofNat number) = clamp low high number :=
  toWholeBy_ofNat (by decide) nearestWhole_shifted low high short

/-- What lies in the range is not moved. -/
theorem clamp_of_mem {low high value : ℤ} (above : low ≤ value) (below : value ≤ high) :
    clamp low high value = value := by
  rw [clamp]
  omega

theorem toSigned_ofNat (short : number < 2 ^ 53) : toSigned (Float.ofNat number) = number := by
  rw [toSigned, truncate_ofNat _ _ short]
  have ends : leastSigned ≤ 0 ∧ 2 ^ 53 ≤ greatestSigned := by decide
  exact clamp_of_mem (by omega) (by omega)

theorem toNatural_ofNat (short : number < 2 ^ 53) : toNatural (Float.ofNat number) = number := by
  have most : (2 ^ 53 : ℤ) ≤ greatestUnsigned := by decide
  rw [toNatural, truncate_ofNat _ _ short, clamp_of_mem (by omega) (by omega), Int.toNat_natCast]

theorem toNatural32_ofNat (short : number < 2 ^ 32) :
    toNatural32 (Float.ofNat number) = number := by
  have most : twoTo 32 - 1 = 2 ^ 32 - 1 := rfl
  rw [toNatural32, toNatural_ofNat (by omega), most]
  omega

/-- Only zero becomes the value zero. -/
theorem ofNat_eq_zero_iff (short : number < 2 ^ 53) : Float.ofNat number = 0.0 ↔ number = 0 := by
  constructor
  · intro same
    have back := toNatural_ofNat short
    rw [same] at back
    rw [← back]
    decide +kernel
  · rintro rfl
    decide +kernel

/-! ## Arithmetic -/

/-- A mantissa that is shifted to full length is rounded to the value in whose interval the
number lies. -/
theorem round_eq {sign : Sign} (some : first ≠ 0) (canonical : Canonical mantissa exponent)
    (rounds : RoundsTo (first * 2 ^ one) mantissa exponent) :
    UnpackedFloat.round .binary64 sign first one =
      .finite sign mantissa exponent canonical.positive := by
  let target := Format.binary64.targetExponent (totalExponent first one)
  let shift := (one - target).toNat
  have long : (first <<< shift).log2 = first.log2 + shift := by
    rw [Nat.shiftLeft_eq]
    exact log2_mul_two_pow some shift
  have kept : Format.binary64.targetExponent (totalExponent (first <<< shift) (one - shift)) =
      target := by
    have total : totalExponent (first <<< shift) (one - shift) = totalExponent first one := by
      rw [totalExponent, totalExponent, long]
      push_cast
      ring
    rw [total]
  have same : ((first <<< shift : ℕ) : ℚ) * 2 ^ (one - shift : ℤ) = first * 2 ^ one := by
    rw [Nat.shiftLeft_eq, zpow_sub₀ (by norm_num), zpow_natCast]
    push_cast
    field_simp
  rw [UnpackedFloat.round, decreaseExponent]
  dsimp only
  refine roundWithAccuracy_eq (locates_exact _) ?_ canonical (same.symm ▸ rounds)
  change one - (shift : ℤ) ≤ _
  rw [kept]
  omega

/-- The sum of two positive numbers is rounded to the value in whose interval it lies. -/
theorem add_eq {positive : 0 < first} {positive' : 0 < second}
    (canonical : Canonical mantissa exponent)
    (rounds : RoundsTo (first * 2 ^ one + second * 2 ^ two) mantissa exponent) :
    UnpackedFloat.add .binary64 (.finite .positive first one positive)
        (.finite .positive second two positive') =
      .finite .positive mantissa exponent canonical.positive := by
  let least := min one two
  let sum := first <<< (one - least).toNat + second <<< (two - least).toNat
  have some : 0 < sum := by
    have left : 0 < first <<< (one - least).toNat := by
      rw [Nat.shiftLeft_eq]
      exact Nat.mul_pos positive (Nat.two_pow_pos _)
    exact Nat.add_pos_left left _
  have aligned (part : ℕ) {power : ℤ} (above : least ≤ power) :
      ((part <<< (power - least).toNat : ℕ) : ℚ) * 2 ^ least = part * 2 ^ power := by
    have split : power = (power - least).toNat + least := by omega
    conv_rhs => rw [split, zpow_add₀ (by norm_num), zpow_natCast]
    rw [Nat.shiftLeft_eq]
    push_cast
    ring
  have same : (sum : ℚ) * 2 ^ least = first * 2 ^ one + second * 2 ^ two := by
    rw [← aligned first (min_le_left _ _), ← aligned second (min_le_right _ _)]
    push_cast [sum]
    ring
  have above : compare (sum : ℤ) 0 = .gt := Int.compare_eq_gt.mpr (by omega)
  have added : UnpackedFloat.add .binary64 (.finite .positive first one positive)
      (.finite .positive second two positive') =
        UnpackedFloat.normalize .binary64 (sum : ℤ) least .positive := rfl
  rw [added, UnpackedFloat.normalize, above]
  exact round_eq some.ne' canonical (same.symm ▸ rounds)

/-- The sum of two positive values is the value in whose interval it lies. -/
theorem value_add {m₁ m₂ : ℕ} {e₁ e₂ : ℤ} (left : Canonical m₁ e₁) (right : Canonical m₂ e₂)
    (finite : e₁ ≤ 971) (finite' : e₂ ≤ 971) (canonical : Canonical mantissa exponent)
    (rounds : RoundsTo (m₁ * 2 ^ e₁ + m₂ * 2 ^ e₂) mantissa exponent) :
    left.value .positive + right.value .positive = canonical.value .positive := by
  have sum : UnpackedFloat.add .binary64 (.finite .positive m₁ e₁ left.positive)
      (.finite .positive m₂ e₂ right.positive) =
        .finite .positive mantissa exponent canonical.positive :=
    add_eq canonical rounds
  rw [← unpack_pack left finite, ← unpack_pack right finite'] at sum
  exact congrArg (fun result => Float.ofModel (.pack result)) sum

/-- Zero is added to a positive number without effect, on either side. -/
theorem zero_add_value (canonical : Canonical mantissa exponent) (finite : exponent ≤ 971) :
    Float.ofNat 0 + canonical.value .positive = canonical.value .positive ∧
      canonical.value .positive + Float.ofNat 0 = canonical.value .positive := by
  have zero : (Float.ofNat 0).toModel.unpack = .zero .positive := rfl
  have some : (Float.Model.pack (.finite .positive mantissa exponent canonical.positive)).unpack =
      .finite .positive mantissa exponent canonical.positive := unpack_pack canonical finite
  constructor
  · change Float.ofModel (.pack (UnpackedFloat.add .binary64 (Float.ofNat 0).toModel.unpack
      (Float.Model.pack (.finite .positive mantissa exponent canonical.positive)).unpack)) = _
    rw [zero, some]
    rfl
  · change Float.ofModel (.pack (UnpackedFloat.add .binary64
      (Float.Model.pack (.finite .positive mantissa exponent canonical.positive)).unpack
      (Float.ofNat 0).toModel.unpack)) = _
    rw [zero, some]
    rfl

/-- A sum of numbers is exact if it is short. -/
theorem ofNat_add (short : first + second < 2 ^ 53) :
    Float.ofNat first + Float.ofNat second = Float.ofNat (first + second) := by
  by_cases none : first = 0
  · subst none
    by_cases none' : second = 0
    · subst none'
      decide +kernel
    · have log : second.log2 < 53 := (Nat.log2_lt none').mpr (by omega)
      rw [Nat.zero_add, ofNat_eq_value none' (by omega)]
      exact (zero_add_value _ (by omega)).1
  · have log : first.log2 < 53 := (Nat.log2_lt none).mpr (by omega)
    by_cases none' : second = 0
    · subst none'
      rw [Nat.add_zero, ofNat_eq_value none (by omega)]
      exact (zero_add_value _ (by omega)).2
    · have log' : second.log2 < 53 := (Nat.log2_lt none').mpr (by omega)
      have some : first + second ≠ 0 := by omega
      have total : (first + second).log2 < 53 := (Nat.log2_lt some).mpr short
      have rounds := roundsTo_self ((first + second) * 2 ^ (52 - (first + second).log2))
        ((first + second).log2 - 52)
      rw [shifted_eq (Nat.le_of_lt_succ total)] at rounds
      rw [ofNat_eq_value none (by omega), ofNat_eq_value none' (by omega),
        ofNat_eq_value some short]
      refine value_add _ _ (by omega) (by omega) _ ?_
      rw [shifted_eq (Nat.le_of_lt_succ log), shifted_eq (Nat.le_of_lt_succ log')]
      exact_mod_cast rounds

/-- A product of positive numbers is exact if it is short. -/
theorem ofNat_mul (some : first ≠ 0) (some' : second ≠ 0) (short : first * second < 2 ^ 53) :
    Float.ofNat first * Float.ofNat second = Float.ofNat (first * second) := by
  have left : first < 2 ^ 53 :=
    (Nat.le_mul_of_pos_right first (Nat.pos_of_ne_zero some')).trans_lt short
  have right : second < 2 ^ 53 :=
    (Nat.le_mul_of_pos_left second (Nat.pos_of_ne_zero some)).trans_lt short
  have log : first.log2 < 53 := (Nat.log2_lt some).mpr left
  have log' : second.log2 < 53 := (Nat.log2_lt some').mpr right
  have product : first * second ≠ 0 := Nat.mul_ne_zero some some'
  have total : (first * second).log2 < 53 := (Nat.log2_lt product).mpr short
  have full := (canonical_of_short some left).full.resolve_right (by omega)
  have full' := (canonical_of_short some' right).full.resolve_right (by omega)
  have rounds := roundsTo_self (first * second * 2 ^ (52 - (first * second).log2))
    ((first * second).log2 - 52)
  rw [shifted_eq (Nat.le_of_lt_succ total)] at rounds
  rw [ofNat_eq_value some left, ofNat_eq_value some' right, ofNat_eq_value product short]
  refine value_mul _ _ (by omega) (by omega) ?_ _ ?_
  · calc 2 ^ 53 ≤ 2 ^ 52 * 2 ^ 52 := by decide
      _ ≤ _ := Nat.mul_le_mul full full'
  · rw [shifted_eq (Nat.le_of_lt_succ log), shifted_eq (Nat.le_of_lt_succ log')]
    exact_mod_cast rounds

end Number
end EffectHost

import Mathlib.Algebra.Order.Field.Power
import Mathlib.Algebra.Order.Field.Rat
import Mathlib.Tactic.FieldSimp
import Mathlib.Tactic.Linarith
import Mathlib.Tactic.NormNum
import Mathlib.Tactic.Ring

/-!
# Rounding to the nearest script value

A result of script arithmetic is rounded with the help of two bits behind the mantissa, which
tell where the exact result lies.  It follows that a number is rounded to a mantissa and an
exponent of full precision if it lies in the interval around them that ends half way to the
neighbours.
-/

namespace EffectHost
namespace Number

open Float.Model (Format totalExponent)
open Float.Model.UnpackedFloat

/-! ## Residual bits -/

/-- The mantissa and the bits behind it tell where the number lies. -/
def Locates (extended : ExtendedMantissa) (number : ℚ) : Prop :=
  match extended.roundBit, extended.stickyBit with
  | false, false => number = extended.mantissa
  | false, true => extended.mantissa < number ∧ number < extended.mantissa + 1 / 2
  | true, false => number = extended.mantissa + 1 / 2
  | true, true => extended.mantissa + 1 / 2 < number ∧ number < extended.mantissa + 1

namespace Locates

variable {extended : ExtendedMantissa} {number : ℚ}

theorem floor (located : Locates extended number) :
    extended.mantissa ≤ number ∧ number < extended.mantissa + 1 := by
  rcases extended with ⟨mantissa, roundBit, stickyBit⟩
  cases roundBit <;> cases stickyBit <;> simp only [Locates] at located ⊢ <;> constructor <;>
    linarith

theorem shiftRightOne (located : Locates extended number) :
    Locates extended.shiftRightOne (number / 2) := by
  rcases extended with ⟨mantissa, roundBit, stickyBit⟩
  have split : 2 * ((mantissa / 2 : ℕ) : ℚ) + ((mantissa % 2 : ℕ) : ℚ) = mantissa := by
    exact_mod_cast Nat.div_add_mod mantissa 2
  rcases Nat.mod_two_eq_zero_or_one mantissa with even | odd
  · rw [even] at split
    cases roundBit <;> cases stickyBit <;>
      simp [Locates, ExtendedMantissa.shiftRightOne, even] at located split ⊢ <;>
      first | linarith | (constructor <;> linarith)
  · rw [odd] at split
    cases roundBit <;> cases stickyBit <;>
      simp [Locates, ExtendedMantissa.shiftRightOne, odd] at located split ⊢ <;>
      first | linarith | (constructor <;> linarith)

theorem shiftRight (located : Locates extended number) (count : ℕ) :
    Locates (extended >>> count) (number / 2 ^ count) := by
  change Locates (count.repeat ExtendedMantissa.shiftRightOne extended) _
  induction count with
  | zero => simpa [Nat.repeat] using located
  | succ count ih =>
      have next := ih.shiftRightOne
      rwa [div_div, ← pow_succ] at next

end Locates

/-- A mantissa without residual bits is exact. -/
theorem locates_exact (mantissa : ℕ) :
    Locates (.ofMantissaAndAccuracy mantissa .exact) mantissa := by
  simp [Locates, ExtendedMantissa.ofMantissaAndAccuracy]

/-- The remainder of a division tells where the quotient lies. -/
theorem locates_quotient (dividend : ℕ) {divisor : ℕ} (positive : 0 < divisor) :
    Locates (.ofMantissaAndAccuracy (dividend / divisor)
      (accuracyOfFraction (dividend % divisor) divisor)) (dividend / divisor : ℚ) := by
  have divisor_pos : (0 : ℚ) < divisor := by exact_mod_cast positive
  have whole : (divisor : ℚ) * (dividend / divisor : ℕ) + (dividend % divisor : ℕ) = dividend := by
    exact_mod_cast Nat.div_add_mod dividend divisor
  have split : (dividend / divisor : ℚ) =
      (dividend / divisor : ℕ) + (dividend % divisor : ℕ) / divisor := by
    field_simp
    linarith
  have below : ((dividend % divisor : ℕ) : ℚ) < divisor := by
    exact_mod_cast Nat.mod_lt dividend positive
  rw [split, accuracyOfFraction]
  split
  · next none => simp [Locates, ExtendedMantissa.ofMantissaAndAccuracy, none]
  · next some =>
      have above : (0 : ℚ) < (dividend % divisor : ℕ) := by
        exact_mod_cast Nat.pos_of_ne_zero some
      have fraction : (0 : ℚ) < (dividend % divisor : ℕ) / divisor := div_pos above divisor_pos
      have short : ((dividend % divisor : ℕ) : ℚ) / divisor < 1 := by
        rwa [div_lt_iff₀ divisor_pos, one_mul]
      rcases lt_trichotomy (2 * (dividend % divisor)) divisor with less | equal | greater
      · have half : ((dividend % divisor : ℕ) : ℚ) / divisor < 1 / 2 := by
          rw [div_lt_iff₀ divisor_pos]
          have cast : 2 * ((dividend % divisor : ℕ) : ℚ) < divisor := by exact_mod_cast less
          linarith
        rw [Nat.compare_eq_lt.mpr less]
        simp only [Locates, ExtendedMantissa.ofMantissaAndAccuracy]
        constructor <;> linarith
      · have half : ((dividend % divisor : ℕ) : ℚ) / divisor = 1 / 2 := by
          rw [div_eq_iff divisor_pos.ne']
          have cast : 2 * ((dividend % divisor : ℕ) : ℚ) = divisor := by exact_mod_cast equal
          linarith
        rw [Nat.compare_eq_eq.mpr equal, half]
        rfl
      · have half : (1 : ℚ) / 2 < (dividend % divisor : ℕ) / divisor := by
          rw [lt_div_iff₀ divisor_pos]
          have cast : (divisor : ℚ) < 2 * (dividend % divisor : ℕ) := by exact_mod_cast greater
          linarith
        rw [Nat.compare_eq_gt.mpr greater]
        simp only [Locates, ExtendedMantissa.ofMantissaAndAccuracy]
        constructor <;> linarith

/-! ## Nearest integers -/

/-- Rounding to the nearest integer, ties to even, leads to this one. -/
structure NearestTo (number : ℚ) (mantissa : ℕ) : Prop where
  low : mantissa - 1 / 2 ≤ number
  high : number ≤ mantissa + 1 / 2
  strict : mantissa % 2 = 1 → mantissa - 1 / 2 < number ∧ number < mantissa + 1 / 2

/-- Natural numbers are equal if they are less than one apart. -/
theorem eq_of_near {first second : ℕ} (above : (first : ℚ) < second + 1)
    (below : (second : ℚ) < first + 1) : first = second := by
  have less : first < second + 1 := by exact_mod_cast above
  have greater : second < first + 1 := by exact_mod_cast below
  omega

theorem Locates.roundedMantissa {extended : ExtendedMantissa} {number : ℚ} {mantissa : ℕ}
    (located : Locates extended number) (nearest : NearestTo number mantissa) :
    extended.roundedMantissa = mantissa := by
  rcases nearest with ⟨low, high, strict⟩
  rcases extended with ⟨floor, roundBit, stickyBit⟩
  cases roundBit <;> cases stickyBit <;> simp only [Locates] at located <;>
    simp only [ExtendedMantissa.roundedMantissa, ExtendedMantissa.accuracy,
      Accuracy.roundToNearestEven]
  · exact eq_of_near (by linarith) (by linarith)
  · exact eq_of_near (by linarith) (by linarith)
  · have least : floor ≤ mantissa := by
      have cast : (floor : ℚ) ≤ mantissa := by linarith
      exact_mod_cast cast
    have most : mantissa ≤ floor + 1 := by
      have cast : (mantissa : ℚ) ≤ floor + 1 := by linarith
      exact_mod_cast cast
    rcases Nat.mod_two_eq_zero_or_one mantissa with even | odd
    · omega
    · have inside := strict odd
      have same : floor = mantissa := eq_of_near (by linarith) (by linarith)
      subst same
      linarith
  · have next : floor + 1 = mantissa := by
      apply eq_of_near <;> push_cast <;> linarith
    exact next

/-! ## Full precision -/

/-- A mantissa and an exponent of double precision, with as many bits as there are. -/
structure Canonical (mantissa : ℕ) (exponent : ℤ) : Prop where
  positive : 0 < mantissa
  short : mantissa < 2 ^ 53
  least : -1074 ≤ exponent
  full : 2 ^ 52 ≤ mantissa ∨ exponent = -1074

/-- The number lies where rounding leads to `mantissa * 2 ^ exponent`.  Just above a power of
two the lower neighbour is only half as far away. -/
structure RoundsTo (number : ℚ) (mantissa : ℕ) (exponent : ℤ) : Prop where
  low : mantissa - (if mantissa = 2 ^ 52 ∧ -1074 < exponent then 1 / 4 else 1 / 2) ≤
    number / 2 ^ exponent
  high : number / 2 ^ exponent ≤ mantissa + 1 / 2
  strict : mantissa % 2 = 1 →
    mantissa - 1 / 2 < number / 2 ^ exponent ∧ number / 2 ^ exponent < mantissa + 1 / 2

theorem targetExponent_binary64 (total : ℤ) :
    Format.binary64.targetExponent total = max (total - 53) (-1074) :=
  rfl

/-- Full precision is left as it is. -/
theorem shiftToTargetExponent_canonical {mantissa : ℕ} {exponent : ℤ}
    (canonical : Canonical mantissa exponent) :
    shiftToTargetExponent .binary64 mantissa exponent .exact =
      (⟨mantissa, false, false⟩, exponent) := by
  rcases canonical with ⟨positive, short, least, full⟩
  have log : mantissa.log2 < 53 := (Nat.log2_lt positive.ne').mpr short
  have shift : (Format.binary64.targetExponent (totalExponent mantissa exponent) -
      exponent).toNat = 0 := by
    rw [targetExponent_binary64, totalExponent]
    omega
  rw [shiftToTargetExponent, shiftToExponent, shift]
  simp
  rfl

/-- A mantissa that rounding has carried past its length is shifted once more. -/
theorem shiftToTargetExponent_carried {exponent : ℤ} (least : -1074 ≤ exponent) :
    shiftToTargetExponent .binary64 (2 ^ 53) exponent .exact =
      (⟨2 ^ 52, false, false⟩, exponent + 1) := by
  have shift : (Format.binary64.targetExponent (totalExponent (2 ^ 53) exponent) -
      exponent).toNat = 1 := by
    rw [targetExponent_binary64, totalExponent, Nat.log2_two_pow]
    omega
  rw [shiftToTargetExponent, shiftToExponent, shift]
  rfl

section Rounding

variable {floor : ℕ} {scale : ℤ} {accuracy : Accuracy} {number : ℚ}

theorem mantissa_ofMantissaAndAccuracy (floor : ℕ) (accuracy : Accuracy) :
    (ExtendedMantissa.ofMantissaAndAccuracy floor accuracy).mantissa = floor := by
  rcases accuracy with _ | order
  · rfl
  · cases order <;> rfl

/-- The power of two below a number is found in front of the residual bits. -/
theorem Locates.log2_bounds (located : Locates (.ofMantissaAndAccuracy floor accuracy) number)
    (positive : floor ≠ 0) (scale : ℤ) :
    (2 : ℚ) ^ (floor.log2 + scale) ≤ number * 2 ^ scale ∧
      number * 2 ^ scale < 2 ^ (floor.log2 + 1 + scale) := by
  have unit : (0 : ℚ) < 2 ^ scale := zpow_pos (by norm_num) scale
  have near := located.floor
  rw [mantissa_ofMantissaAndAccuracy] at near
  have least : (2 : ℚ) ^ floor.log2 ≤ floor := by exact_mod_cast Nat.log2_self_le positive
  have most : (floor : ℚ) + 1 ≤ 2 ^ (floor.log2 + 1) := by exact_mod_cast Nat.lt_log2_self
  constructor
  · rw [zpow_add₀ (by norm_num), zpow_natCast]
    exact mul_le_mul_of_nonneg_right (least.trans near.1) unit.le
  · rw [zpow_add₀ (by norm_num)]
    exact mul_lt_mul_of_pos_right (near.2.trans_le (by exact_mod_cast most)) unit

theorem lt_of_zpow_lt {first second : ℤ} (less : (2 : ℚ) ^ first < 2 ^ second) : first < second :=
  (zpow_lt_zpow_iff_right₀ (by norm_num)).mp less

/-- The exponent to which a number is shifted tells its size. -/
theorem targetExponent_eq (located : Locates (.ofMantissaAndAccuracy floor accuracy) number)
    (fine : scale ≤ Format.binary64.targetExponent (totalExponent floor scale)) {exponent : ℤ}
    (least : -1074 ≤ exponent)
    (low : 2 ^ (52 + exponent) ≤ number * 2 ^ scale ∨ exponent = -1074)
    (high : number * 2 ^ scale < 2 ^ (53 + exponent)) :
    Format.binary64.targetExponent (totalExponent floor scale) = exponent := by
  rw [targetExponent_binary64, totalExponent] at fine ⊢
  by_cases none : floor = 0
  · have zero : floor.log2 = 0 := by rw [none, Nat.log2_zero]
    rcases low with above | lowest
    · have below := located.floor.2
      rw [mantissa_ofMantissaAndAccuracy, none, Nat.cast_zero, zero_add] at below
      have unit : number * 2 ^ scale < 2 ^ scale :=
        mul_lt_of_lt_one_left (zpow_pos (by norm_num) scale) below
      have order := lt_of_zpow_lt (above.trans_lt unit)
      omega
    · omega
  · have bounds := located.log2_bounds none scale
    have below := lt_of_zpow_lt (bounds.1.trans_lt high)
    rcases low with above | lowest
    · have order := lt_of_zpow_lt (above.trans_lt bounds.2)
      omega
    · omega

/-- The number is rounded at the exponent where its digits end. -/
theorem roundWithAccuracy_of_nearest {sign : Sign}
    (located : Locates (.ofMantissaAndAccuracy floor accuracy) number)
    {target : ℤ} (fine : scale ≤ target)
    (targeted : Format.binary64.targetExponent (totalExponent floor scale) = target)
    {rounded : ℕ} (nearest : NearestTo (number * 2 ^ scale / 2 ^ target) rounded)
    {mantissa : ℕ} {exponent : ℤ}
    (settled : shiftToTargetExponent .binary64 rounded target .exact =
      (⟨mantissa, false, false⟩, exponent)) :
    roundWithAccuracy .binary64 sign floor scale accuracy =
      if none : mantissa = 0 then .zero sign
      else .finite sign mantissa exponent (Nat.pos_of_ne_zero none) := by
  have reached : scale + ((target - scale).toNat : ℤ) = target := by omega
  have shifted := located.shiftRight (target - scale).toNat
  have same : number / 2 ^ (target - scale).toNat = number * 2 ^ scale / 2 ^ target := by
    conv_rhs => rw [← reached, zpow_add₀ (by norm_num), zpow_natCast]
    field_simp
  rw [same] at shifted
  have first : shiftToTargetExponent .binary64 floor scale accuracy =
      (ExtendedMantissa.ofMantissaAndAccuracy floor accuracy >>> (target - scale).toNat,
        target) := by
    rw [shiftToTargetExponent, targeted]
    dsimp only [shiftToExponent]
    rw [reached]
  rw [roundWithAccuracy, first]
  dsimp only
  rw [shifted.roundedMantissa nearest, settled]

/-- A number is rounded to the mantissa and the exponent in whose interval it lies. -/
theorem roundWithAccuracy_eq {sign : Sign}
    (located : Locates (.ofMantissaAndAccuracy floor accuracy) number)
    (fine : scale ≤ Format.binary64.targetExponent (totalExponent floor scale))
    {mantissa : ℕ} {exponent : ℤ} (canonical : Canonical mantissa exponent)
    (rounds : RoundsTo (number * 2 ^ scale) mantissa exponent) :
    roundWithAccuracy .binary64 sign floor scale accuracy =
      .finite sign mantissa exponent canonical.positive := by
  rcases rounds with ⟨low, high, strict⟩
  have unit : (0 : ℚ) < 2 ^ exponent := zpow_pos (by norm_num) exponent
  have power (bits : ℕ) : (2 : ℚ) ^ (bits + exponent) = 2 ^ bits * 2 ^ exponent := by
    rw [zpow_add₀ (by norm_num), zpow_natCast]
  have short : (mantissa : ℚ) + 1 ≤ 2 ^ 53 := by exact_mod_cast canonical.short
  by_cases lower : (mantissa = 2 ^ 52 ∧ -1074 < exponent) ∧
      number * 2 ^ scale / 2 ^ exponent < 2 ^ 52
  · -- Below the power of two the digits are one finer, and rounding carries over to it.
    rcases lower with ⟨⟨atPower, above⟩, below⟩
    rw [if_pos ⟨atPower, above⟩, atPower] at low
    push_cast at low
    have finer : (2 : ℚ) ^ exponent = 2 * 2 ^ (exponent - 1) := by
      rw [← zpow_one_add₀ (by norm_num), add_sub_cancel]
    have unit' : (0 : ℚ) < 2 ^ (exponent - 1) := zpow_pos (by norm_num) _
    have double : number * 2 ^ scale / 2 ^ (exponent - 1) =
        2 * (number * 2 ^ scale / 2 ^ exponent) := by
      rw [finer]
      field_simp
    have power' (bits : ℕ) :
        (2 : ℚ) ^ (bits + (exponent - 1)) = 2 ^ bits * 2 ^ (exponent - 1) := by
      rw [zpow_add₀ (by norm_num), zpow_natCast]
    have target : Format.binary64.targetExponent (totalExponent floor scale) = exponent - 1 := by
      apply targetExponent_eq located fine (by omega)
      · left
        have power' := power' 52
        push_cast at power'
        rw [power', ← le_div_iff₀ unit', double]
        linarith
      · have power' := power' 53
        push_cast at power'
        rw [power', ← div_lt_iff₀ unit', double]
        linarith
    have nearest : NearestTo (number * 2 ^ scale / 2 ^ (exponent - 1)) (2 ^ 53) := by
      rw [double]
      refine ⟨?_, ?_, fun odd => absurd odd (by decide)⟩ <;> push_cast <;> linarith
    have settled := @shiftToTargetExponent_carried (exponent - 1) (by omega)
    rw [sub_add_cancel, ← atPower] at settled
    rw [roundWithAccuracy_of_nearest located (target ▸ fine) target nearest settled]
    exact dif_neg canonical.positive.ne'
  · have nearest : NearestTo (number * 2 ^ scale / 2 ^ exponent) mantissa := by
      refine ⟨?_, high, strict⟩
      split at low
      · next atPower =>
          have above := not_lt.mp fun below => lower ⟨atPower, below⟩
          rw [atPower.1]
          push_cast
          linarith
      · exact low
    have target : Format.binary64.targetExponent (totalExponent floor scale) = exponent := by
      apply targetExponent_eq located fine canonical.least
      · rcases canonical.least.eq_or_lt with least | above
        · exact .inr least.symm
        · left
          have power := power 52
          push_cast at power
          rw [power, ← le_div_iff₀ unit]
          by_contra below
          have full := canonical.full.resolve_right above.ne'
          have larger : 2 ^ 52 + 1 ≤ mantissa :=
            full.lt_of_ne fun atPower => lower ⟨⟨atPower.symm, above⟩, not_le.mp below⟩
          have cast : (2 : ℚ) ^ 52 + 1 ≤ mantissa := by exact_mod_cast larger
          have near := nearest.low
          linarith
      · have power := power 53
        push_cast at power
        rw [power, ← div_lt_iff₀ unit]
        linarith
    rw [roundWithAccuracy_of_nearest located (target ▸ fine) target nearest
      (shiftToTargetExponent_canonical canonical)]
    exact dif_neg canonical.positive.ne'

/-- A number that is at most half of the least script value is rounded to zero. -/
theorem roundWithAccuracy_eq_zero {sign : Sign}
    (located : Locates (.ofMantissaAndAccuracy floor accuracy) number)
    (fine : scale ≤ Format.binary64.targetExponent (totalExponent floor scale))
    (small : number * 2 ^ scale ≤ 1 / 2 * 2 ^ (-1074 : ℤ)) :
    roundWithAccuracy .binary64 sign floor scale accuracy = .zero sign := by
  have unit : (0 : ℚ) < 2 ^ (-1074 : ℤ) := zpow_pos (by norm_num) _
  have target : Format.binary64.targetExponent (totalExponent floor scale) = -1074 := by
    apply targetExponent_eq located fine (le_refl _) (.inr rfl)
    rw [zpow_add₀ (by norm_num)]
    exact small.trans_lt (mul_lt_mul_of_pos_right (by norm_num) unit)
  have nearest : NearestTo (number * 2 ^ scale / 2 ^ (-1074 : ℤ)) 0 := by
    have natural : (0 : ℚ) ≤ number := (Nat.cast_nonneg _).trans located.floor.1
    refine ⟨?_, ?_, nofun⟩
    · have positive : 0 ≤ number * 2 ^ scale / 2 ^ (-1074 : ℤ) :=
        div_nonneg (mul_nonneg natural (zpow_pos (by norm_num) scale).le) unit.le
      rw [Nat.cast_zero]
      exact (by norm_num : (0 : ℚ) - 1 / 2 ≤ 0).trans positive
    · rw [div_le_iff₀ unit, Nat.cast_zero, zero_add]
      exact small
  have settled : shiftToTargetExponent .binary64 0 (-1074) .exact = (⟨0, false, false⟩, -1074) :=
    rfl
  rw [roundWithAccuracy_of_nearest located (target ▸ fine) target nearest settled]
  exact dif_pos rfl

end Rounding

end Number
end EffectHost

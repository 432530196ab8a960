import EffectHost.Number.Numeral
import EffectHost.Proofs.Number.Unpacked

/-!
# Decimal numbers as script values

A decimal number is made a script value by one multiplication or division, of which both sides
are exact.  The result is the value in whose interval the number lies.
-/

namespace EffectHost
namespace Number

open Float.Model (UnpackedFloat Format totalExponent)
open Float.Model.UnpackedFloat

variable {mantissa : ℕ} {exponent : ℤ} {first second : ℕ} {one two : ℤ} {sign other : Sign}

/-! ## Products -/

/-- A product with enough bits is rounded to the value in whose interval it lies. -/
theorem mul_eq {positive : 0 < first} {positive' : 0 < second} (long : 2 ^ 53 ≤ first * second)
    (canonical : Canonical mantissa exponent)
    (rounds : RoundsTo ((first * 2 ^ one) * (second * 2 ^ two)) mantissa exponent) :
    UnpackedFloat.mul .binary64 (.finite sign first one positive)
        (.finite other second two positive') =
      .finite (sign * other) mantissa exponent canonical.positive := by
  have fine : one + two ≤
      Format.binary64.targetExponent (totalExponent (first * second) (one + two)) := by
    have log : 53 ≤ (first * second).log2 := (Nat.le_log2 (by omega)).mpr long
    rw [targetExponent_binary64, totalExponent]
    omega
  have same : (first * 2 ^ one : ℚ) * (second * 2 ^ two) =
      ((first * second : ℕ) : ℚ) * 2 ^ (one + two) := by
    rw [zpow_add₀ (by norm_num)]
    push_cast
    ring
  rw [same] at rounds
  exact roundWithAccuracy_eq (locates_exact _) fine canonical rounds

/-! ## Quotients -/

/-- A quotient has the bits that its dividend has in front of its divisor. -/
theorem le_log2_div {dividend divisor bits : ℕ} (positive : 0 < divisor)
    (long : 2 ^ (bits + divisor.log2 + 1) ≤ dividend) : bits ≤ (dividend / divisor).log2 := by
  have inside : 2 ^ bits ≤ dividend / divisor := by
    rw [Nat.le_div_iff_mul_le positive]
    calc 2 ^ bits * divisor ≤ 2 ^ bits * 2 ^ (divisor.log2 + 1) :=
          Nat.mul_le_mul_left _ Nat.lt_log2_self.le
      _ = 2 ^ (bits + divisor.log2 + 1) := by rw [← Nat.pow_add, Nat.add_assoc]
      _ ≤ dividend := long
  have some : dividend / divisor ≠ 0 := (Nat.two_pow_pos bits |>.trans_le inside).ne'
  exact (Nat.le_log2 some).mpr inside

/-- The exponent at which a quotient is computed leaves it with as many bits as are needed. -/
theorem div_fine (positive : 0 < first) (positive' : 0 < second) {scale : ℤ}
    (least : scale ≤ one - two)
    (target : scale ≤ Format.binary64.targetExponent
      (totalExponent first one - totalExponent second two)) :
    scale ≤ Format.binary64.targetExponent
      (totalExponent ((first <<< (one - two - scale).toNat) / second) scale) := by
  rw [targetExponent_binary64, totalExponent, totalExponent] at target
  rw [targetExponent_binary64, totalExponent]
  by_cases lowest : scale ≤ -1074
  · omega
  · let bits := first.log2 + (one - two - scale).toNat - (second.log2 + 1)
    have long : 2 ^ (bits + second.log2 + 1) ≤ first <<< (one - two - scale).toNat := by
      have exact : bits + second.log2 + 1 = first.log2 + (one - two - scale).toNat := by omega
      rw [exact, Nat.pow_add, Nat.shiftLeft_eq]
      exact Nat.mul_le_mul_right _ (Nat.log2_self_le positive.ne')
    have log := le_log2_div positive' long
    omega

/-- The exponent at which a quotient is computed shifts its dividend. -/
theorem shifted_quotient_eq {scale : ℤ} (least : scale ≤ one - two) :
    (first * 2 ^ one : ℚ) / (second * 2 ^ two) =
      ((first <<< (one - two - scale).toNat : ℕ) : ℚ) / second * 2 ^ scale := by
  have powers : (2 : ℚ) ^ one / 2 ^ two = 2 ^ (one - two - scale).toNat * 2 ^ scale := by
    rw [← zpow_natCast, Int.toNat_of_nonneg (by omega), ← zpow_add₀ (by norm_num),
      sub_add_cancel, zpow_sub₀ (by norm_num)]
  rw [Nat.shiftLeft_eq, mul_div_mul_comm, powers]
  push_cast
  ring

/-- A quotient is rounded to the value in whose interval it lies. -/
theorem div_eq {positive : 0 < first} {positive' : 0 < second}
    (canonical : Canonical mantissa exponent)
    (rounds : RoundsTo ((first * 2 ^ one) / (second * 2 ^ two)) mantissa exponent) :
    UnpackedFloat.div .binary64 (.finite sign first one positive)
        (.finite other second two positive') =
      .finite (sign / other) mantissa exponent canonical.positive := by
  let scale := min (one - two)
    (Format.binary64.targetExponent (totalExponent first one - totalExponent second two))
  have least : scale ≤ one - two := min_le_left _ _
  have fine := div_fine positive positive' least (min_le_right _ _)
  rw [shifted_quotient_eq least] at rounds
  exact roundWithAccuracy_eq (locates_quotient _ positive') fine canonical rounds

/-- A quotient that is at most half of the least script value is rounded to zero. -/
theorem div_eq_zero {positive : 0 < first} {positive' : 0 < second}
    (small : (first * 2 ^ one : ℚ) / (second * 2 ^ two) ≤ 1 / 2 * 2 ^ (-1074 : ℤ)) :
    UnpackedFloat.div .binary64 (.finite sign first one positive)
        (.finite other second two positive') = .zero (sign / other) := by
  let scale := min (one - two)
    (Format.binary64.targetExponent (totalExponent first one - totalExponent second two))
  have least : scale ≤ one - two := min_le_left _ _
  have fine := div_fine positive positive' least (min_le_right _ _)
  rw [shifted_quotient_eq least] at small
  exact roundWithAccuracy_eq_zero (locates_quotient _ positive') fine small

/-! ## Decimal numbers -/

/-- A negative power of ten divides. -/
theorem digits_mul_zpow {digits : ℕ} {power : ℤ} (fraction : power ≤ 0) :
    (digits * 10 ^ power : ℚ) = digits / 10 ^ (-power).toNat := by
  have exact : ((-power).toNat : ℤ) = -power := by omega
  rw [← zpow_natCast, exact, zpow_neg, div_inv_eq_mul]

/-- The quotient that is computed for a negative power of ten. -/
theorem digits_mul_zpow_eq {digits : ℕ} {power : ℤ} (fraction : power ≤ 0) :
    (digits * 10 ^ power : ℚ) =
      (digits * 2 ^ (0 : ℤ)) / ((10 ^ (-power).toNat : ℕ) * 2 ^ (0 : ℤ)) := by
  rw [digits_mul_zpow fraction, zpow_zero, mul_one, mul_one, Nat.cast_pow, Nat.cast_ofNat]

/-- A decimal number is rounded to the value in whose interval it lies. -/
theorem ofScientific_eq {digits : ℕ} (some : digits ≠ 0) {power : ℤ} (most : power ≤ 2048)
    (least : -(2048 + digits.log2 : ℤ) ≤ power) (canonical : Canonical mantissa exponent)
    (rounds : RoundsTo (digits * 10 ^ power) mantissa exponent) :
    UnpackedFloat.ofScientific .binary64 digits power =
      .finite .positive mantissa exponent canonical.positive := by
  rw [UnpackedFloat.ofScientific, dif_neg some, if_neg (by simpa using most),
    if_neg (by simpa using least)]
  split
  · next whole =>
      have long : 2 ^ 53 ≤ digits <<< 53 * 10 ^ power.toNat := by
        rw [Nat.shiftLeft_eq]
        calc 2 ^ 53 ≤ digits * 2 ^ 53 := Nat.le_mul_of_pos_left _ (Nat.pos_of_ne_zero some)
          _ ≤ digits * 2 ^ 53 * 10 ^ power.toNat :=
            Nat.le_mul_of_pos_right _ (Nat.pow_pos (by decide))
      have same : (digits * 10 ^ power : ℚ) =
          ((digits <<< 53 : ℕ) * 2 ^ (-53 : ℤ)) * ((10 ^ power.toNat : ℕ) * 2 ^ (0 : ℤ)) := by
        have unit : (2 : ℚ) ^ 53 * 2 ^ (-53 : ℤ) = 1 := by norm_num
        have tens : (10 : ℚ) ^ power = 10 ^ power.toNat := by
          rw [← zpow_natCast, Int.toNat_of_nonneg whole]
        rw [Nat.shiftLeft_eq, tens, Nat.cast_mul, Nat.cast_pow, Nat.cast_pow, Nat.cast_ofNat,
          Nat.cast_ofNat, mul_assoc (digits : ℚ), unit, zpow_zero, mul_one, mul_one]
      exact mul_eq long canonical (same ▸ rounds)
  · next fraction =>
      exact div_eq canonical (digits_mul_zpow_eq (not_le.mp fraction).le ▸ rounds)

/-- A number that is at most half of the least script value has a point in front. -/
theorem fraction_of_small {digits : ℕ} (some : digits ≠ 0) {power : ℤ}
    (small : (digits * 10 ^ power : ℚ) ≤ 1 / 2 * 2 ^ (-1074 : ℤ)) :
    (digits * 10 ^ power : ℚ) < 1 ∧ power < 0 := by
  have unit : (2 : ℚ) ^ (-1074 : ℤ) ≤ 1 := zpow_le_one_of_nonpos₀ (by norm_num) (by decide)
  have less : (digits * 10 ^ power : ℚ) < 1 :=
    small.trans_lt (mul_lt_one_of_nonneg_of_lt_one_left (by norm_num) (by norm_num) unit)
  refine ⟨less, ?_⟩
  by_contra whole
  have one : (1 : ℚ) ≤ digits * 10 ^ power :=
    one_le_mul_of_one_le_of_one_le (by exact_mod_cast Nat.pos_of_ne_zero some)
      (one_le_zpow₀ (by norm_num) (not_lt.mp whole))
  exact absurd less (not_lt.mpr one)

/-- A decimal number that is at most half of the least script value is rounded to zero. -/
theorem ofScientific_eq_zero {digits : ℕ} (some : digits ≠ 0) {power : ℤ}
    (small : (digits * 10 ^ power : ℚ) ≤ 1 / 2 * 2 ^ (-1074 : ℤ)) :
    UnpackedFloat.ofScientific .binary64 digits power = .zero .positive := by
  have fraction := (fraction_of_small some small).2
  have most : power ≤ 2048 := fraction.le.trans (by norm_num)
  have notWhole : ¬ 0 ≤ power := not_le.mpr fraction
  rw [UnpackedFloat.ofScientific, dif_neg some, if_neg (by simpa using most)]
  split
  · rfl
  · exact div_eq_zero (digits_mul_zpow_eq fraction.le ▸ small)

/-- The script value with a sign, a mantissa and an exponent. -/
def Canonical.value (canonical : Canonical mantissa exponent) (sign : Sign) : Float :=
  .ofModel (.pack (.finite sign mantissa exponent canonical.positive))

/-- A mantissa of full length is not shifted to the right. -/
theorem Canonical.fine (canonical : Canonical mantissa exponent) :
    exponent ≤ Format.binary64.targetExponent (totalExponent mantissa exponent) := by
  rw [targetExponent_binary64, totalExponent]
  rcases canonical.full with full | lowest
  · have log : 52 ≤ mantissa.log2 := (Nat.le_log2 canonical.positive.ne').mpr full
    omega
  · omega

/-- A mantissa with its exponent lies in its own interval. -/
theorem roundsTo_self (mantissa : ℕ) (exponent : ℤ) :
    RoundsTo (mantissa * 2 ^ exponent) mantissa exponent := by
  have unit : (0 : ℚ) < 2 ^ exponent := zpow_pos (by norm_num) exponent
  have same : (mantissa : ℚ) * 2 ^ exponent / 2 ^ exponent = mantissa :=
    mul_div_cancel_right₀ _ unit.ne'
  constructor <;> rw [same]
  · split <;> linarith
  · linarith
  · intro _
    constructor <;> linarith

/-- A short number fills a mantissa when it is shifted. -/
theorem canonical_of_short {number : ℕ} (some : number ≠ 0) (short : number < 2 ^ 53) :
    Canonical (number * 2 ^ (52 - number.log2)) (number.log2 - 52) := by
  have log : number.log2 < 53 := (Nat.log2_lt some).mpr short
  have low := Nat.log2_self_le some
  have high := @Nat.lt_log2_self number
  have least : 2 ^ 52 ≤ number * 2 ^ (52 - number.log2) := by
    calc 2 ^ 52 = 2 ^ number.log2 * 2 ^ (52 - number.log2) := by
          rw [← Nat.pow_add, Nat.add_sub_cancel' (by omega)]
      _ ≤ number * 2 ^ (52 - number.log2) := Nat.mul_le_mul_right _ low
  have most : number * 2 ^ (52 - number.log2) < 2 ^ 53 := by
    calc number * 2 ^ (52 - number.log2) < 2 ^ (number.log2 + 1) * 2 ^ (52 - number.log2) :=
          Nat.mul_lt_mul_of_pos_right high (Nat.two_pow_pos _)
      _ = 2 ^ 53 := by
          rw [← Nat.pow_add]
          congr 1
          omega
  exact ⟨by omega, most, by omega, .inl least⟩

/-- The shift of a short number is made up for by its exponent. -/
theorem shifted_eq {number : ℕ} (log : number.log2 ≤ 52) :
    ((number * 2 ^ (52 - number.log2) : ℕ) : ℚ) * 2 ^ ((number.log2 : ℤ) - 52) = number := by
  have back : (number.log2 : ℤ) - 52 = -((52 - number.log2 : ℕ) : ℤ) := by omega
  rw [back, zpow_neg, zpow_natCast]
  push_cast
  field_simp

/-- A short number is exact as a script value. -/
theorem toFloat_toUInt64 {number : ℕ} (some : number ≠ 0) (short : number < 2 ^ 53) :
    number.toUInt64.toFloat = (canonical_of_short some short).value .positive := by
  have small : number.toUInt64.toNat = number := Nat.mod_eq_of_lt (by omega)
  have log : number.log2 < 53 := (Nat.log2_lt some).mpr short
  have target : Format.binary64.targetExponent (totalExponent number 0) = number.log2 - 52 := by
    rw [targetExponent_binary64, totalExponent]
    omega
  have shift : (0 - ((number.log2 : ℤ) - 52)).toNat = 52 - number.log2 := by omega
  have scale : 0 - ((52 - number.log2 : ℕ) : ℤ) = number.log2 - 52 := by omega
  have unpacked : UnpackedFloat.ofUInt64 .binary64 number.toUInt64 =
      .finite .positive (number * 2 ^ (52 - number.log2)) (number.log2 - 52)
        (canonical_of_short some short).positive := by
    have positive : compare (number : ℤ) 0 = .gt := Int.compare_eq_gt.mpr (by omega)
    rw [UnpackedFloat.ofUInt64, small, UnpackedFloat.ofNat, UnpackedFloat.ofInt,
      UnpackedFloat.normalize, positive]
    dsimp only
    rw [UnpackedFloat.round, Int.toNat_natCast, target, decreaseExponent, shift]
    dsimp only
    rw [scale, Nat.shiftLeft_eq]
    have canonical := canonical_of_short some short
    exact roundWithAccuracy_eq (locates_exact _) canonical.fine canonical (roundsTo_self _ _)
  exact congrArg (fun result => Float.ofModel (.pack result)) unpacked

theorem log2_five_pow {power : ℕ} (small : power ≤ 22) : (5 ^ power).log2 < 53 := by
  rw [Nat.log2_lt (Nat.pow_pos (by decide)).ne']
  exact (Nat.pow_le_pow_right (by decide) small).trans_lt (by decide)

/-- A power of five fills a mantissa, of which the power of two is a matter of the exponent. -/
theorem canonical_powerOfTen {power : ℕ} (small : power ≤ 22) :
    Canonical (5 ^ power * 2 ^ (52 - (5 ^ power).log2)) (power + ((5 ^ power).log2 - 52)) := by
  have some : 5 ^ power ≠ 0 := (Nat.pow_pos (by decide)).ne'
  have five := canonical_of_short some ((Nat.log2_lt some).mp (log2_five_pow small))
  rcases five.full with full | lowest
  · exact ⟨five.positive, five.short, by have least := five.least; omega, .inl full⟩
  · have log : (0 : ℤ) ≤ (5 ^ power).log2 := Int.natCast_nonneg _
    omega

/-- The powers of ten in the table are exact. -/
theorem exactlyRepresentablePowersOfTen_eq {power : ℕ} (small : power ≤ 22)
    (inside : power < Float.exactlyRepresentablePowersOfTen.size) :
    Float.exactlyRepresentablePowersOfTen[power] =
      (canonical_powerOfTen small).value .positive := by
  have table : ∀ power : Fin 23, Float.exactlyRepresentablePowersOfTen[power.val]? =
      some ((canonical_powerOfTen (Nat.le_of_lt_succ power.isLt)).value .positive) := by
    decide +kernel
  have found := table ⟨power, by omega⟩
  rw [Array.getElem?_eq_getElem inside] at found
  exact Option.some.inj found

theorem powerOfTen_eq {power : ℕ} (small : power ≤ 22) :
    ((5 ^ power * 2 ^ (52 - (5 ^ power).log2) : ℕ) : ℚ) *
      2 ^ ((power : ℤ) + ((5 ^ power).log2 - 52)) = 10 ^ power := by
  have five := shifted_eq (Nat.lt_succ_iff.mp (log2_five_pow small))
  rw [add_comm (power : ℤ), zpow_add₀ (by norm_num), ← mul_assoc, five, zpow_natCast]
  push_cast
  rw [← mul_pow]
  norm_num

section Operations

variable {m₁ m₂ : ℕ} {e₁ e₂ : ℤ}

theorem value_mul (one : Canonical m₁ e₁) (two : Canonical m₂ e₂) (finite : e₁ ≤ 971)
    (finite' : e₂ ≤ 971) (long : 2 ^ 53 ≤ m₁ * m₂) (canonical : Canonical mantissa exponent)
    (rounds : RoundsTo ((m₁ * 2 ^ e₁) * (m₂ * 2 ^ e₂)) mantissa exponent) :
    one.value .positive * two.value .positive = canonical.value .positive := by
  have product : UnpackedFloat.mul .binary64 (.finite .positive m₁ e₁ one.positive)
      (.finite .positive m₂ e₂ two.positive) =
        .finite .positive mantissa exponent canonical.positive :=
    mul_eq long canonical rounds
  rw [← unpack_pack one finite, ← unpack_pack two finite'] at product
  exact congrArg (fun result => Float.ofModel (.pack result)) product

theorem value_div (one : Canonical m₁ e₁) (two : Canonical m₂ e₂) (finite : e₁ ≤ 971)
    (finite' : e₂ ≤ 971) (canonical : Canonical mantissa exponent)
    (rounds : RoundsTo ((m₁ * 2 ^ e₁) / (m₂ * 2 ^ e₂)) mantissa exponent) :
    one.value .positive / two.value .positive = canonical.value .positive := by
  have quotient : UnpackedFloat.div .binary64 (.finite .positive m₁ e₁ one.positive)
      (.finite .positive m₂ e₂ two.positive) =
        .finite .positive mantissa exponent canonical.positive :=
    div_eq canonical rounds
  rw [← unpack_pack one finite, ← unpack_pack two finite'] at quotient
  exact congrArg (fun result => Float.ofModel (.pack result)) quotient

end Operations

/-- A number with zeros behind it is made the value in whose interval it lies. -/
theorem float_ofScientific_whole {digits power : ℕ} (some : digits ≠ 0) (most : power ≤ 2048)
    (canonical : Canonical mantissa exponent)
    (rounds : RoundsTo (digits * 10 ^ power) mantissa exponent) :
    Float.ofScientific digits false power = canonical.value .positive := by
  rw [Float.ofScientific]
  split
  · next fast =>
      have log : digits.log2 < 53 := (Nat.log2_lt some).mpr fast.1
      have log' := log2_five_pow fast.2
      have one := canonical_of_short some fast.1
      have two := canonical_powerOfTen fast.2
      dsimp only
      rw [if_neg Bool.false_ne_true, exactlyRepresentablePowersOfTen_eq fast.2,
        toFloat_toUInt64 some fast.1]
      apply value_mul one two (by omega) (by omega)
      · have full := one.full.resolve_right (by omega)
        have full' := two.full.resolve_right (by omega)
        calc 2 ^ 53 ≤ 2 ^ 52 * 2 ^ 52 := by decide
          _ ≤ _ := Nat.mul_le_mul full full'
      · rwa [shifted_eq (Nat.lt_succ_iff.mp log), powerOfTen_eq fast.2]
  · dsimp only
    rw [if_neg Bool.false_ne_true, Float.Model.ofScientific,
      ofScientific_eq some (by simpa using most) (by simp; omega) canonical (by simpa using rounds)]
    rfl

theorem digits_div_pow (digits power : ℕ) :
    (digits / 10 ^ power : ℚ) = digits * 10 ^ (-(power : ℤ)) := by
  rw [zpow_neg, zpow_natCast, div_eq_mul_inv]

/-- A number with a point in front is made the value in whose interval it lies. -/
theorem float_ofScientific_fraction {digits power : ℕ} (some : digits ≠ 0)
    (most : power ≤ 2048 + digits.log2) (canonical : Canonical mantissa exponent)
    (rounds : RoundsTo (digits / 10 ^ power) mantissa exponent) :
    Float.ofScientific digits true power = canonical.value .positive := by
  rw [Float.ofScientific]
  split
  · next fast =>
      have log : digits.log2 < 53 := (Nat.log2_lt some).mpr fast.1
      have log' := log2_five_pow fast.2
      dsimp only
      rw [if_pos rfl, exactlyRepresentablePowersOfTen_eq fast.2, toFloat_toUInt64 some fast.1]
      apply value_div _ _ (by omega) (by omega)
      rwa [shifted_eq (Nat.lt_succ_iff.mp log), powerOfTen_eq fast.2]
  · dsimp only
    have below : Int.negOfNat power = -(power : ℤ) := Int.negOfNat_eq
    rw [if_pos rfl, below, Float.Model.ofScientific,
      ofScientific_eq some (by omega) (by omega) canonical (digits_div_pow digits power ▸ rounds)]
    rfl

/-- A number that is at most half of the least script value is made zero. -/
theorem float_ofScientific_zero {digits power : ℕ} (some : digits ≠ 0)
    (small : (digits / 10 ^ power : ℚ) ≤ 1 / 2 * 2 ^ (-1074 : ℤ)) :
    Float.ofScientific digits true power = 0.0 := by
  rw [Float.ofScientific]
  split
  · next fast =>
      -- So few digits with so short a power are far from zero.
      have one : (1 : ℚ) ≤ digits := by exact_mod_cast Nat.pos_of_ne_zero some
      have tens : (10 : ℚ) ^ power ≤ 10 ^ 22 := pow_le_pow_right₀ (by norm_num) fast.2
      have large : (10 : ℚ) ^ 22 < 2 * 2 ^ 1074 := by
        exact_mod_cast (by decide +kernel : 10 ^ 22 < 2 * 2 ^ 1074)
      have above : (1 : ℚ) / 2 * 2 ^ (-1074 : ℤ) < digits / 10 ^ power := by
        rw [zpow_neg, one_div, ← mul_inv, div_eq_mul_inv]
        calc ((2 : ℚ) * 2 ^ (1074 : ℤ))⁻¹ < (10 ^ 22)⁻¹ := inv_strictAnti₀ (by norm_num) large
          _ ≤ (10 ^ power)⁻¹ := inv_anti₀ (by positivity) tens
          _ ≤ digits * (10 ^ power)⁻¹ := le_mul_of_one_le_left (by positivity) one
      exact absurd small (not_le.mpr above)
  · dsimp only
    have below : Int.negOfNat power = -(power : ℤ) := Int.negOfNat_eq
    rw [if_pos rfl, below, Float.Model.ofScientific,
      ofScientific_eq_zero some (digits_div_pow digits power ▸ small)]
    rfl

/-! ## Nearest values -/

/-- Every script value but zero lies well between these powers of ten. -/
theorem two_pow_lt_ten_pow : (2 : ℚ) ^ 53 * 2 ^ (971 : ℤ) < 10 ^ (400 : ℤ) ∧
    (10 : ℚ) ^ (-400 : ℤ) < 1 / 2 * 2 ^ (-1074 : ℤ) := by
  have large : (2 : ℚ) ^ 53 * 2 ^ 971 < 10 ^ 400 := by
    exact_mod_cast (by decide +kernel : 2 ^ 53 * 2 ^ 971 < 10 ^ 400)
  have small : (2 : ℚ) * 2 ^ 1074 < 10 ^ 400 := by
    exact_mod_cast (by decide +kernel : 2 * 2 ^ 1074 < 10 ^ 400)
  refine ⟨large, ?_⟩
  rw [zpow_neg, zpow_neg, one_div, ← mul_inv]
  exact inv_strictAnti₀ (by positivity) small

/-- The sizes of the numbers that are rounded to a script value. -/
theorem RoundsTo.bounds {number : ℚ} (rounds : RoundsTo number mantissa exponent)
    (canonical : Canonical mantissa exponent) (finite : exponent ≤ 971) :
    (10 : ℚ) ^ (-400 : ℤ) < number ∧ number < 10 ^ (400 : ℤ) := by
  have unit : (0 : ℚ) < 2 ^ exponent := zpow_pos (by norm_num) _
  have one : (1 : ℚ) ≤ mantissa := by exact_mod_cast canonical.positive
  have short : (mantissa : ℚ) + 1 ≤ 2 ^ 53 := by exact_mod_cast canonical.short
  have low : 1 / 2 ≤ number / 2 ^ exponent := by
    have low := rounds.low
    split at low <;> linarith
  have high : number / 2 ^ exponent < 2 ^ 53 := by
    have high := rounds.high
    linarith
  rw [le_div_iff₀ unit] at low
  rw [div_lt_iff₀ unit] at high
  constructor
  · calc (10 : ℚ) ^ (-400 : ℤ) < 1 / 2 * 2 ^ (-1074 : ℤ) := two_pow_lt_ten_pow.2
      _ ≤ 1 / 2 * 2 ^ exponent :=
        mul_le_mul_of_nonneg_left (zpow_le_zpow_right₀ (by norm_num) canonical.least) (by norm_num)
      _ ≤ number := low
  · calc number < 2 ^ 53 * 2 ^ exponent := high
      _ ≤ 2 ^ 53 * 2 ^ (971 : ℤ) :=
        mul_le_mul_of_nonneg_left (zpow_le_zpow_right₀ (by norm_num) finite) (by norm_num)
      _ < 10 ^ (400 : ℤ) := two_pow_lt_ten_pow.1

section Digits

variable {digits count : ℕ} {power : ℤ}

/-- The powers of ten around a number with so many digits. -/
theorem digits_bounds (most : digits < 10 ^ count) (least : 10 ^ count ≤ 10 * digits) :
    (digits * 10 ^ power : ℚ) < 10 ^ (power + count) ∧
      (10 : ℚ) ^ (power + count) ≤ 10 * (digits * 10 ^ power) := by
  have unit : (0 : ℚ) < 10 ^ power := zpow_pos (by norm_num) _
  have size : (10 : ℚ) ^ (power + count) = 10 ^ count * 10 ^ power := by
    rw [add_comm, zpow_add₀ (by norm_num), zpow_natCast]
  have most : (digits : ℚ) < 10 ^ count := by exact_mod_cast most
  have least : (10 : ℚ) ^ count ≤ 10 * digits := by exact_mod_cast least
  rw [size, ← mul_assoc]
  exact ⟨mul_lt_mul_of_pos_right most unit, mul_le_mul_of_nonneg_right least unit.le⟩

/-- Where the point is not too far away, digits are made the value in whose interval they lie. -/
theorem nearestFloat_of_near (some : digits ≠ 0) (least : 10 ^ count ≤ 10 * digits)
    (upper : power + count ≤ 400) (lower : -400 ≤ power + count)
    (canonical : Canonical mantissa exponent)
    (rounds : RoundsTo (digits * 10 ^ power) mantissa exponent) :
    nearestFloat digits count power = canonical.value .positive := by
  rw [nearestFloat, if_neg (by simpa using some), if_neg (by omega), if_neg (by omega)]
  split
  · next whole =>
      have tens : (10 : ℚ) ^ power = 10 ^ power.toNat := by
        rw [← zpow_natCast, Int.toNat_of_nonneg whole]
      exact float_ofScientific_whole some (by omega) canonical (tens ▸ rounds)
  · next fraction =>
      have log : count ≤ digits.log2 + 1 := by
        rw [← Nat.sub_le_iff_le_add, Nat.le_log2 some]
        cases count with
        | zero => exact Nat.pos_of_ne_zero some
        | succ count =>
            have small : 2 ^ count ≤ 10 ^ count := Nat.pow_le_pow_left (by decide) count
            rw [Nat.pow_succ'] at least
            rw [Nat.add_sub_cancel]
            omega
      exact float_ofScientific_fraction some (by omega) canonical
        (digits_mul_zpow (not_le.mp fraction).le ▸ rounds)

/-- Digits are made the value in whose interval they lie. -/
theorem nearestFloat_eq (some : digits ≠ 0) (most : digits < 10 ^ count)
    (least : 10 ^ count ≤ 10 * digits) (canonical : Canonical mantissa exponent)
    (finite : exponent ≤ 971) (rounds : RoundsTo (digits * 10 ^ power) mantissa exponent) :
    nearestFloat digits count power = canonical.value .positive := by
  have bounds := rounds.bounds canonical finite
  have size := @digits_bounds _ _ power most least
  have upper : power + count < 401 := by
    have less : (10 : ℚ) ^ (power + count) < 10 ^ (401 : ℤ) := by
      calc (10 : ℚ) ^ (power + count) ≤ 10 * (digits * 10 ^ power) := size.2
        _ < 10 * 10 ^ (400 : ℤ) := mul_lt_mul_of_pos_left bounds.2 (by norm_num)
        _ = 10 ^ (401 : ℤ) := (zpow_one_add₀ (by norm_num) 400).symm
    exact (zpow_lt_zpow_iff_right₀ (by norm_num)).mp less
  have lower : -400 < power + count :=
    (zpow_lt_zpow_iff_right₀ (by norm_num)).mp (bounds.1.trans size.1)
  exact nearestFloat_of_near some least (by omega) (by omega) canonical rounds

end Digits

end Number
end EffectHost

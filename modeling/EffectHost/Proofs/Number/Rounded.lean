import EffectHost.Proofs.Number.Scientific
import Mathlib.Algebra.Order.Floor.Semiring
import Mathlib.Data.Int.Log

/-!
# Numerals are rounded to the nearest script value

Every number that is not negative is nearest to some script value, which may be zero or infinite.
What is read from a numeral is the script value that is nearest to the number it spells, however
many digits it has and wherever its point is.
-/

namespace EffectHost
namespace Number

open Text
open Float.Model (UnpackedFloat Format)

variable {number : ℚ} {mantissa : ℕ} {exponent : ℤ}

/-! ## Every number lies in an interval -/

theorem exists_nearestTo (natural : 0 ≤ number) : ∃ mantissa, NearestTo number mantissa := by
  have low := Nat.floor_le natural
  have high := Nat.lt_floor_add_one number
  rcases lt_trichotomy number (⌊number⌋₊ + 1 / 2) with below | half | above
  · exact ⟨⌊number⌋₊, by linarith, by linarith, fun _ => ⟨by linarith, by linarith⟩⟩
  · rcases Nat.mod_two_eq_zero_or_one ⌊number⌋₊ with even | odd
    · exact ⟨⌊number⌋₊, by linarith, by linarith, fun odd => by omega⟩
    · refine ⟨⌊number⌋₊ + 1, ?_, ?_, fun odd => by omega⟩ <;> push_cast <;> linarith
  · refine ⟨⌊number⌋₊ + 1, ?_, ?_, fun _ => ⟨?_, ?_⟩⟩ <;> push_cast <;> linarith

/-- A nearest integer is the mantissa, unless it is below full length. -/
theorem roundsTo_of_nearestTo (nearest : NearestTo (number / 2 ^ exponent) mantissa)
    (full : -1074 < exponent → 2 ^ 52 ≤ number / 2 ^ exponent) :
    RoundsTo number mantissa exponent := by
  refine ⟨?_, nearest.high, nearest.strict⟩
  split
  · next atPower =>
      have full := full atPower.2
      rw [atPower.1]
      push_cast
      linarith
  · exact nearest.low

/-- A nearest integer past full length is carried over. -/
theorem roundsTo_of_carried (nearest : NearestTo (number / 2 ^ exponent) (2 ^ 53)) :
    RoundsTo number (2 ^ 52) (exponent + 1) := by
  have half : number / 2 ^ (exponent + 1) = number / 2 ^ exponent / 2 := by
    rw [zpow_add_one₀ (by norm_num), div_div]
  have low := nearest.low
  have high := nearest.high
  push_cast at low high
  refine ⟨?_, ?_, fun odd => absurd odd (by decide)⟩ <;> rw [half] <;> push_cast
  · split <;> linarith
  · linarith

theorem zpow_add_natCast (bits : ℕ) (exponent : ℤ) :
    (2 : ℚ) ^ (bits + exponent) = 2 ^ bits * 2 ^ exponent := by
  rw [zpow_add₀ (by norm_num), zpow_natCast]

/-- A positive number at the exponent where its digits end. -/
theorem exists_scaled (positive : 0 < number) : ∃ exponent : ℤ, -1074 ≤ exponent ∧
    number / 2 ^ exponent < 2 ^ 53 ∧ (-1074 < exponent → 2 ^ 52 ≤ number / 2 ^ exponent) := by
  have low : (2 : ℚ) ^ Int.log 2 number ≤ number := by
    exact_mod_cast Int.zpow_log_le_self (b := 2) (by norm_num) positive
  have high : number < (2 : ℚ) ^ (Int.log 2 number + 1) := by
    exact_mod_cast Int.lt_zpow_succ_log_self (b := 2) (by norm_num) number
  refine ⟨max (Int.log 2 number - 52) (-1074), le_max_right _ _, ?_, ?_⟩
  · rw [div_lt_iff₀ (zpow_pos (by norm_num) _), ← zpow_add_natCast 53]
    apply high.trans_le
    apply zpow_le_zpow_right₀ (by norm_num)
    push_cast
    omega
  · intro above
    rw [le_div_iff₀ (zpow_pos (by norm_num) _), ← zpow_add_natCast 52]
    apply le_trans _ low
    apply zpow_le_zpow_right₀ (by norm_num)
    push_cast
    omega

/-- Every number that is more than half of the least script value lies in the interval of some
mantissa and exponent. -/
theorem exists_roundsTo (above : 1 / 2 * 2 ^ (-1074 : ℤ) < number) :
    ∃ mantissa exponent, Canonical mantissa exponent ∧ RoundsTo number mantissa exponent := by
  have positive : 0 < number := lt_of_le_of_lt (by positivity) above
  rcases exists_scaled positive with ⟨exponent, least, short, full⟩
  have unit : (0 : ℚ) < 2 ^ exponent := zpow_pos (by norm_num) exponent
  rcases exists_nearestTo (div_nonneg positive.le unit.le) with ⟨rounded, nearest⟩
  have low := nearest.low
  have high := nearest.high
  by_cases carried : rounded = 2 ^ 53
  · rw [carried] at nearest
    exact ⟨2 ^ 52, exponent + 1, ⟨by decide, by decide, by omega, .inl (le_refl _)⟩,
      roundsTo_of_carried nearest⟩
  · have most : rounded < 2 ^ 53 + 1 := by
      have cast : (rounded : ℚ) < 2 ^ 53 + 1 := by linarith
      exact_mod_cast cast
    have long : 2 ^ 52 ≤ rounded ∨ exponent = -1074 := by
      rcases least.eq_or_lt with lowest | above
      · exact .inr lowest.symm
      · have full := full above
        have cast : (2 : ℚ) ^ 52 < rounded + 1 := by linarith
        have less : 2 ^ 52 < rounded + 1 := by exact_mod_cast cast
        exact .inl (by omega)
    have some : 0 < rounded := by
      apply Nat.pos_of_ne_zero
      rintro rfl
      rw [Nat.cast_zero, zero_add, div_le_iff₀ unit, long.resolve_left (by decide)] at high
      exact absurd high (not_le.mpr above)
    exact ⟨rounded, exponent, ⟨some, by omega, least, long⟩, roundsTo_of_nearestTo nearest full⟩

/-! ## Large numbers -/

/-- The interval of a finite script value ends half a unit behind the greatest one. -/
theorem RoundsTo.finite_iff (rounds : RoundsTo number mantissa exponent)
    (canonical : Canonical mantissa exponent) :
    exponent ≤ 971 ↔ number < (2 ^ 53 - 1 / 2) * 2 ^ (971 : ℤ) := by
  have unit : (0 : ℚ) < 2 ^ exponent := zpow_pos (by norm_num) exponent
  constructor
  · intro finite
    have below : number / 2 ^ exponent < 2 ^ 53 - 1 / 2 := by
      rcases Nat.lt_or_ge mantissa (2 ^ 53 - 1) with shorter | longest
      · have high := rounds.high
        have cast : (mantissa : ℚ) + 2 ≤ 2 ^ 53 := by
          have natural : mantissa + 2 ≤ 2 ^ 53 := by omega
          exact_mod_cast natural
        linarith
      · have same : mantissa = 2 ^ 53 - 1 := by
          have short := canonical.short
          omega
        have strict := (rounds.strict (same ▸ by decide)).2
        have cast : (mantissa : ℚ) + 1 = 2 ^ 53 := by
          have natural : mantissa + 1 = 2 ^ 53 := by omega
          exact_mod_cast natural
        linarith
    rw [div_lt_iff₀ unit] at below
    exact below.trans_le (mul_le_mul_of_nonneg_left
      (zpow_le_zpow_right₀ (by norm_num) finite) (by norm_num))
  · intro below
    by_contra infinite
    have full := canonical.full.resolve_right (by omega)
    have low : 2 ^ 52 - 1 / 4 ≤ number / 2 ^ exponent := by
      have low := rounds.low
      split at low
      · next atPower =>
          rw [atPower.1] at low
          push_cast at low
          exact low
      · next notPower =>
          have longer : 2 ^ 52 + 1 ≤ mantissa := by
            have other : mantissa ≠ 2 ^ 52 := fun same => notPower ⟨same, by omega⟩
            omega
          have cast : (2 : ℚ) ^ 52 + 1 ≤ mantissa := by exact_mod_cast longer
          linarith
    rw [le_div_iff₀ unit] at low
    have double : (2 : ℚ) ^ (972 : ℤ) = 2 * 2 ^ (971 : ℤ) := (zpow_one_add₀ (by norm_num) 971)
    have reached : (2 : ℚ) ^ (972 : ℤ) ≤ 2 ^ exponent :=
      zpow_le_zpow_right₀ (by norm_num) (by omega)
    have least : (2 ^ 53 - 1 / 2 : ℚ) * 2 ^ (971 : ℤ) ≤ number := by
      calc (2 ^ 53 - 1 / 2 : ℚ) * 2 ^ (971 : ℤ) = (2 ^ 52 - 1 / 4) * 2 ^ (972 : ℤ) := by
            rw [double]
            ring
        _ ≤ (2 ^ 52 - 1 / 4) * 2 ^ exponent := mul_le_mul_of_nonneg_left reached (by norm_num)
        _ ≤ number := low
    exact absurd below (not_lt.mpr least)

/-- Past the greatest exponent there is only the infinite value. -/
theorem Canonical.value_of_large (canonical : Canonical mantissa exponent)
    (large : 971 < exponent) : canonical.value .positive = ofReading (.infinite false) := by
  have past : 2 ^ Format.binary64.exponentBits ≤ (exponent + Format.binary64.exponentBias +
      Format.binary64.mantissaBitsWithoutImplicit).toNat + 1 := by
    change 2 ^ 11 ≤ (exponent + 1023 + 52).toNat + 1
    omega
  have packed : UnpackedFloat.pack .binary64 (.finite .positive mantissa exponent
      canonical.positive) = UnpackedFloat.packedInfinity .binary64 .positive := by
    rw [UnpackedFloat.pack]
    exact if_pos past
  have unpacked : Float.Model.pack (.finite .positive mantissa exponent canonical.positive) =
      Float.Model.pack (.infinity .positive) := by
    rw [Float.Model.pack, Float.Model.pack, Float.Model.mk.injEq, packed]
    rfl
  rw [Canonical.value, unpacked]
  decide +kernel

/-! ## Nearest values -/

/-- The script value nearest to a number that is not negative, of two equally near ones the even
one.  Up to half of the least value it is zero, and from half a unit behind the greatest value it
is infinite. -/
inductive NearestValue (number : ℚ) : Float → Prop
  | zero (small : number ≤ 1 / 2 * 2 ^ (-1074 : ℤ)) : NearestValue number 0.0
  | finite {mantissa : ℕ} {exponent : ℤ} (canonical : Canonical mantissa exponent)
      (finite : exponent ≤ 971) (rounds : RoundsTo number mantissa exponent) :
      NearestValue number (canonical.value .positive)
  | infinite (large : (2 ^ 53 - 1 / 2) * 2 ^ (971 : ℤ) ≤ number) :
      NearestValue number (ofReading (.infinite false))

section Digits

variable {digits count : ℕ} {power : ℤ}

theorem lt_of_tens_lt {first second : ℤ} (less : (10 : ℚ) ^ first < 10 ^ second) : first < second :=
  (zpow_lt_zpow_iff_right₀ (by norm_num)).mp less

/-- Digits that spell less than half of the least value are made zero. -/
theorem nearestFloat_of_small (some : digits ≠ 0) (least : 10 ^ count ≤ 10 * digits)
    (most : digits < 10 ^ count) (small : (digits * 10 ^ power : ℚ) ≤ 1 / 2 * 2 ^ (-1074 : ℤ)) :
    nearestFloat digits count power = 0.0 := by
  rcases fraction_of_small some small with ⟨tiny, fraction⟩
  have upper : power + count < 1 := by
    apply lt_of_tens_lt
    calc (10 : ℚ) ^ (power + count) ≤ 10 * (digits * 10 ^ power) := (digits_bounds most least).2
      _ < 10 * 1 := mul_lt_mul_of_pos_left tiny (by norm_num)
      _ = 10 ^ (1 : ℤ) := by norm_num
  rw [nearestFloat, if_neg (by simpa using some), if_neg (by omega)]
  split
  · rfl
  · rw [if_neg (by omega)]
    exact float_ofScientific_zero some (digits_mul_zpow fraction.le ▸ small)

/-- Digits that spell too much for a finite value are made infinite. -/
theorem nearestFloat_of_large (some : digits ≠ 0) (least : 10 ^ count ≤ 10 * digits)
    (most : digits < 10 ^ count)
    (large : (2 ^ 53 - 1 / 2) * 2 ^ (971 : ℤ) ≤ (digits * 10 ^ power : ℚ))
    (canonical : Canonical mantissa exponent)
    (rounds : RoundsTo (digits * 10 ^ power) mantissa exponent) :
    nearestFloat digits count power = ofReading (.infinite false) := by
  have infinite : 971 < exponent := by
    rw [← not_le, rounds.finite_iff canonical, not_lt]
    exact large
  have lower : 0 < power + count := by
    apply lt_of_tens_lt
    calc (10 : ℚ) ^ (0 : ℤ) ≤ (2 ^ 53 - 1 / 2) * 2 ^ (971 : ℤ) :=
          one_le_mul_of_one_le_of_one_le (by norm_num) (one_le_zpow₀ (by norm_num) (by decide))
      _ ≤ digits * 10 ^ power := large
      _ < 10 ^ (power + count) := (digits_bounds most least).1
  by_cases upper : power + count ≤ 400
  · rw [nearestFloat_of_near some least upper (by omega) canonical rounds,
      canonical.value_of_large infinite]
  · rw [nearestFloat, if_neg (by simpa using some), if_pos (by omega)]

/-- Digits are made the value nearest to what they spell. -/
theorem nearestValue_nearestFloat (least : digits ≠ 0 → 10 ^ count ≤ 10 * digits)
    (most : digits < 10 ^ count) :
    NearestValue (digits * 10 ^ power) (nearestFloat digits count power) := by
  by_cases none : digits = 0
  · rw [none, nearestFloat]
    apply NearestValue.zero
    rw [Nat.cast_zero, zero_mul]
    positivity
  · have least := least none
    rcases le_or_gt (digits * 10 ^ power : ℚ) (1 / 2 * 2 ^ (-1074 : ℤ)) with small | above
    · rw [nearestFloat_of_small none least most small]
      exact .zero small
    · rcases exists_roundsTo above with ⟨mantissa, exponent, canonical, rounds⟩
      by_cases finite : exponent ≤ 971
      · rw [nearestFloat_eq none most least canonical finite rounds]
        exact .finite canonical finite rounds
      · have large := finite
        rw [rounds.finite_iff canonical, not_lt] at large
        rw [nearestFloat_of_large none least most large canonical rounds]
        exact .infinite large

end Digits

/-! ## Numerals -/

theorem digitsValue_concat (digits : List Char) (c : Char) :
    digitsValue (digits ++ [c]) = 10 * digitsValue digits + (c.toNat - '0'.toNat) := by
  rw [digitsValue, List.foldl_append]
  rfl

/-- So many digits spell less than this power of ten. -/
theorem digitsValue_lt {digits : List Char} (all : ∀ c ∈ digits, isDigit c = true) :
    digitsValue digits < 10 ^ digits.length := by
  induction digits using List.reverseRecOn with
  | nil => decide
  | append_singleton digits c ih =>
      rw [List.forall_mem_append, List.forall_mem_singleton] at all
      have less := ih all.1
      have small := (toNat_of_isDigit all.2).2
      have zero : '0'.toNat = 48 := rfl
      rw [digitsValue_concat, List.length_append, List.length_singleton, Nat.pow_succ]
      omega

/-- A first digit other than zero has the power of its place. -/
theorem le_digitsValue {c : Char} (digit : isDigit c = true) (some : c ≠ '0')
    (rest : List Char) : 10 ^ rest.length ≤ digitsValue (c :: rest) := by
  induction rest using List.reverseRecOn with
  | nil =>
      have low := (toNat_of_isDigit digit).1
      have other : c.toNat ≠ 48 := fun same => some (Char.toNat_inj.mp same)
      have zero : '0'.toNat = 48 := rfl
      simp only [digitsValue, List.foldl_cons, List.foldl_nil, List.length_nil, Nat.pow_zero]
      omega
  | append_singleton rest last ih =>
      rw [← List.cons_append, digitsValue_concat, List.length_append, List.length_singleton,
        Nat.pow_succ]
      omega

/-- Zeros in front spell nothing. -/
theorem digitsValue_dropWhile_zero (digits : List Char) :
    digitsValue (digits.dropWhile (· == '0')) = digitsValue digits := by
  induction digits with
  | nil => rfl
  | cons c rest ih =>
      by_cases zero : c = '0'
      · rw [zero, List.dropWhile_cons_of_pos rfl, ih]
        rfl
      · rw [List.dropWhile_cons_of_neg (by simpa using zero)]

namespace Numeral

/-- The number that a numeral spells, but for its sign. -/
def magnitude (numeral : Numeral) : ℚ :=
  digitsValue (numeral.whole ++ numeral.fraction) *
    10 ^ (numeral.exponent - numeral.fraction.length)

/-- The value is nearest to what the numeral spells, and has its sign. -/
def Denotes (numeral : Numeral) (value : Float) : Prop :=
  ∃ nearest, NearestValue numeral.magnitude nearest ∧
    value = if numeral.negative then -nearest else nearest

/-- What is read from a numeral is the value nearest to what it spells. -/
theorem denotes_value {numeral : Numeral}
    (all : ∀ c ∈ numeral.whole ++ numeral.fraction, isDigit c = true) :
    numeral.Denotes numeral.value := by
  have same := digitsValue_dropWhile_zero (numeral.whole ++ numeral.fraction)
  have first := List.head?_dropWhile_not (· == '0') (numeral.whole ++ numeral.fraction)
  have kept : ∀ c ∈ (numeral.whole ++ numeral.fraction).dropWhile (· == '0'), isDigit c = true :=
    fun c member => all c ((List.dropWhile_sublist _).subset member)
  rw [Denotes, magnitude, ← same, value]
  generalize (numeral.whole ++ numeral.fraction).dropWhile (· == '0') = digits at first kept
  refine ⟨_, nearestValue_nearestFloat ?_ (digitsValue_lt kept), rfl⟩
  intro some
  cases digits with
  | nil => exact absurd rfl some
  | cons c rest =>
      rw [List.length_cons, Nat.pow_succ']
      exact Nat.mul_le_mul_left 10
        (le_digitsValue (kept c List.mem_cons_self) (ne_of_beq_false first) rest)

end Numeral

end Number
end EffectHost

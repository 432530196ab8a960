import EffectHost.Number.Shortest
import EffectHost.Proofs.Number.Nearest

/-!
# Shortest digits lie in the interval of their number

The digits that are written for a number are a point of a decimal grid in the interval of the
numbers that round to it.  At the latest the twentieth grid has such a point, for there the
points are closer to one another than the middle of the interval is to its end.
-/

namespace EffectHost
namespace Number

variable {mantissa : ℕ} {exponent power : ℤ} {tie : Tie}

/-! ## Grid points -/

theorem Span.holds_iff {span : Span} {point : ℕ} : span.holds point = true ↔
    span.closed = true ∧ span.low ≤ point ∧ point ≤ span.high ∨
      span.closed = false ∧ span.low < point ∧ point < span.high := by
  cases closed : span.closed <;> simp [Span.holds, closed]

/-- A point that is found lies in the span. -/
theorem Span.holds_of_nearest? {span : Span} {digits : ℕ}
    (found : span.nearest? tie = some digits) : span.holds (digits * span.denominator) = true := by
  cases below : span.holds (span.middle / span.denominator * span.denominator) <;>
    cases above : span.holds ((span.middle / span.denominator + 1) * span.denominator) <;>
    simp only [Span.nearest?, below, above, Bool.and_true, Bool.and_false, Bool.false_eq_true,
      if_false, if_true] at found
  · cases found
  · cases found
    exact above
  · cases found
    exact below
  · split at found <;> cases found
    · exact above
    · exact below

/-- The digits of a search lie in the span, if a grid has a point in it. -/
theorem Span.search_holds {span : Span} {steps : ℕ} {start : ℤ}
    (some : ∃ step < steps, (span.onGrid (start - step)).nearest? tie ≠ none) :
    let found := span.search tie steps start
    (span.onGrid found.exponent).holds
      (found.digits * (span.onGrid found.exponent).denominator) = true := by
  induction steps generalizing start with
  | zero =>
      rcases some with ⟨step, none, _⟩
      exact absurd none (Nat.not_lt_zero _)
  | succ steps ih =>
      rw [Span.search]
      dsimp only
      cases found : (span.onGrid start).nearest? tie with
      | some digits => exact holds_of_nearest? found
      | none =>
          apply ih
          rcases some with ⟨step, inside, point⟩
          cases step with
          | zero =>
              rw [Nat.cast_zero, sub_zero] at point
              exact absurd found point
          | succ step =>
              refine ⟨step, Nat.lt_of_succ_lt_succ inside, ?_⟩
              rwa [sub_sub, add_comm, ← Nat.cast_succ]

/-- Where the points are close to one another, the one behind the middle is found. -/
theorem Span.nearest?_ne_none {span : Span} (inside : span.low ≤ span.middle)
    (close : span.middle + span.denominator < span.high) (positive : 0 < span.denominator) :
    span.nearest? tie ≠ none := by
  have above : span.holds ((span.middle / span.denominator + 1) * span.denominator) = true := by
    have whole := Nat.div_add_mod span.middle span.denominator
    have below := Nat.mod_lt span.middle positive
    have next : (span.middle / span.denominator + 1) * span.denominator =
        span.denominator * (span.middle / span.denominator) + span.denominator := by ring
    rw [Span.holds, next]
    split <;> simp only [Bool.and_eq_true, decide_eq_true_eq] <;> omega
  intro none
  cases below : span.holds (span.middle / span.denominator * span.denominator) <;>
    simp only [Span.nearest?, below, above, Bool.and_true, Bool.false_eq_true, if_false,
      if_true] at none
  · cases none
  · split at none <;> cases none

/-! ## Measuring on a grid -/

/-- A power with a negative exponent is a quotient. -/
theorem zpow_mul_toNat {base : ℚ} (some : base ≠ 0) (power : ℤ) :
    base ^ power * base ^ (-power).toNat = base ^ power.toNat := by
  rw [← zpow_natCast, ← zpow_natCast, ← zpow_add₀ some]
  congr 1
  omega

/-- Points of a grid and quarters of the mantissa's unit are measured in one unit. -/
theorem exists_unit (exponent power : ℤ) : ∃ unit : ℚ, 0 < unit ∧
    (∀ quarters : ℕ, ((quarters * twoTo (exponent - 2).toNat * tenTo (-power).toNat : ℕ) : ℚ) =
      quarters / 4 * unit) ∧
    ∀ point : ℕ, ((point * (twoTo (2 - exponent).toNat * tenTo power.toNat) : ℕ) : ℚ) =
      point * 10 ^ power / 2 ^ exponent * unit := by
  have twos (count : ℕ) : ((twoTo count : ℕ) : ℚ) = 2 ^ count := by
    rw [twoTo, Nat.one_shiftLeft]
    push_cast
    rfl
  have tens (count : ℕ) : ((tenTo count : ℕ) : ℚ) = 10 ^ count := by
    exact_mod_cast (rfl : tenTo count = 10 ^ count)
  have two := zpow_mul_toNat (by norm_num : (2 : ℚ) ≠ 0) (exponent - 2)
  have ten := zpow_mul_toNat (by norm_num : (10 : ℚ) ≠ 0) power
  rw [neg_sub, zpow_sub₀ (by norm_num)] at two
  have positive : (0 : ℚ) < 2 ^ exponent := zpow_pos (by norm_num) _
  refine ⟨2 ^ exponent * 2 ^ (2 - exponent).toNat * 10 ^ (-power).toNat, by positivity, ?_, ?_⟩
  · intro quarters
    rw [Nat.cast_mul, Nat.cast_mul, twos, tens, ← two]
    norm_num
    ring
  · intro point
    rw [Nat.cast_mul, Nat.cast_mul, twos, tens, ← ten]
    field_simp

variable {quarters point : ℕ}

theorem quarters_le_point_iff :
    quarters * twoTo (exponent - 2).toNat * tenTo (-power).toNat ≤
      point * (twoTo (2 - exponent).toNat * tenTo power.toNat) ↔
    (quarters / 4 : ℚ) ≤ point * 10 ^ power / 2 ^ exponent := by
  rcases exists_unit exponent power with ⟨unit, positive, low, high⟩
  rw [← @Nat.cast_le ℚ, low, high, mul_le_mul_iff_left₀ positive]

theorem point_le_quarters_iff :
    point * (twoTo (2 - exponent).toNat * tenTo power.toNat) ≤
      quarters * twoTo (exponent - 2).toNat * tenTo (-power).toNat ↔
    (point * 10 ^ power / 2 ^ exponent : ℚ) ≤ quarters / 4 := by
  rcases exists_unit exponent power with ⟨unit, positive, low, high⟩
  rw [← @Nat.cast_le ℚ, low, high, mul_le_mul_iff_left₀ positive]

/-- Quarters of the mantissa's unit between a number and the lower end of its span. -/
def below (mantissa : ℕ) (exponent : ℤ) : ℕ :=
  if mantissa = 2 ^ 52 ∧ -1074 < exponent then 1 else 2

theorem ofParts_low :
    (Span.ofParts mantissa exponent).low =
      (4 * mantissa - below mantissa exponent) * twoTo (exponent - 2).toNat := by
  have same : (mantissa == twoTo Format.double.fractionBits &&
      decide (Format.double.leastExponent < exponent)) =
      decide (mantissa = 2 ^ 52 ∧ -1074 < exponent) := by
    rw [Bool.decide_and]
    rfl
  simp only [Span.ofParts, same, below, decide_eq_true_eq]

/-- A point in the span of a number is rounded to it. -/
theorem roundsTo_of_holds {digits : ℕ} (positive : 0 < mantissa)
    (inside : ((Span.ofParts mantissa exponent).onGrid power).holds
      (digits * ((Span.ofParts mantissa exponent).onGrid power).denominator) = true) :
    RoundsTo (digits * 10 ^ power) mantissa exponent := by
  have least : ((4 * mantissa - below mantissa exponent : ℕ) / 4 : ℚ) =
      mantissa - (if mantissa = 2 ^ 52 ∧ -1074 < exponent then 1 / 4 else 1 / 2) := by
    rw [below]
    split
    · rw [Nat.cast_sub (by omega)]
      push_cast
      ring
    · rw [Nat.cast_sub (by omega)]
      push_cast
      ring
  have most : ((4 * mantissa + 2 : ℕ) / 4 : ℚ) = mantissa + 1 / 2 := by
    push_cast
    ring
  rcases Span.holds_iff.mp inside with ⟨closed, low, high⟩ | ⟨unclosed, low, high⟩
  · have even : mantissa % 2 = 0 := beq_iff_eq.mp closed
    change (Span.ofParts mantissa exponent).low * tenTo (-power).toNat ≤
      digits * (twoTo (2 - exponent).toNat * tenTo power.toNat) at low
    change digits * (twoTo (2 - exponent).toNat * tenTo power.toNat) ≤
      (4 * mantissa + 2) * twoTo (exponent - 2).toNat * tenTo (-power).toNat at high
    rw [ofParts_low, quarters_le_point_iff, least] at low
    rw [point_le_quarters_iff, most] at high
    exact ⟨low, high, fun odd => by omega⟩
  · have odd : ¬mantissa % 2 = 0 := beq_eq_false_iff_ne.mp unclosed
    change (Span.ofParts mantissa exponent).low * tenTo (-power).toNat <
      digits * (twoTo (2 - exponent).toNat * tenTo power.toNat) at low
    change digits * (twoTo (2 - exponent).toNat * tenTo power.toNat) <
      (4 * mantissa + 2) * twoTo (exponent - 2).toNat * tenTo (-power).toNat at high
    rw [ofParts_low, ← not_le, point_le_quarters_iff, least, not_le] at low
    rw [← not_le, quarters_le_point_iff, most, not_le] at high
    refine ⟨low.le, high.le, fun _ => ⟨?_, high⟩⟩
    have between : ¬(mantissa = 2 ^ 52 ∧ -1074 < exponent) := by
      rintro ⟨rfl, -⟩
      exact odd (by decide)
    rwa [if_neg between] at low

/-! ## Shortest digits -/

/-- The exponent of the twentieth grid for a number with this power of two. -/
def lastGrid (power : ℤ) : ℤ :=
  power * 30103 / 100000 + 1 - 19

/-- The twentieth grid is fine enough for every power of two that a number can have. -/
theorem lastGrid_close : ∀ index : Fin 2098,
    10 ^ (lastGrid (index - 1074)).toNat * 2 ^ (53 - ((index : ℤ) - 1074)).toNat <
      2 ^ ((index : ℤ) - 1074 - 53).toNat * 10 ^ (-lastGrid (index - 1074)).toNat := by
  decide +kernel

theorem zpow_lastGrid_lt {power : ℤ} (least : -1074 ≤ power) (most : power < 1024) :
    (10 : ℚ) ^ lastGrid power < 2 ^ (power - 53) := by
  have close := lastGrid_close ⟨(power + 1074).toNat, by omega⟩
  have exact : ((power + 1074).toNat : ℤ) - 1074 = power := by omega
  simp only [exact] at close
  have cast : (10 : ℚ) ^ (lastGrid power).toNat * 2 ^ (53 - power).toNat <
      2 ^ (power - 53).toNat * 10 ^ (-lastGrid power).toNat := by
    exact_mod_cast close
  have two := zpow_mul_toNat (by norm_num : (2 : ℚ) ≠ 0) (power - 53)
  have ten := zpow_mul_toNat (by norm_num : (10 : ℚ) ≠ 0) (lastGrid power)
  rw [neg_sub] at two
  rw [← two, ← ten, mul_assoc, mul_assoc,
    mul_comm ((2 : ℚ) ^ (53 - power).toNat)] at cast
  exact lt_of_mul_lt_mul_right cast (by positivity)

/-- On the twentieth grid a point comes right behind the middle of a span. -/
theorem lastGrid_lt_half (canonical : Canonical mantissa exponent) (finite : exponent ≤ 971) :
    (10 : ℚ) ^ lastGrid (exponent + mantissa.log2) / 2 ^ exponent < 1 / 2 := by
  have log : mantissa.log2 < 53 := (Nat.log2_lt canonical.positive.ne').mpr canonical.short
  have least := canonical.least
  have unit : (0 : ℚ) < 2 ^ exponent := zpow_pos (by norm_num) _
  have half : (2 : ℚ) ^ (exponent - 1) = 1 / 2 * 2 ^ exponent := by
    rw [zpow_sub₀ (by norm_num), zpow_one]
    ring
  rw [div_lt_iff₀ unit, ← half]
  calc (10 : ℚ) ^ lastGrid (exponent + mantissa.log2)
      < 2 ^ (exponent + mantissa.log2 - 53) := zpow_lastGrid_lt (by omega) (by omega)
    _ ≤ 2 ^ (exponent - 1) := zpow_le_zpow_right₀ (by norm_num) (by omega)

/-- The digits of a number are rounded to it. -/
theorem shortest_roundsTo (canonical : Canonical mantissa exponent) (finite : exponent ≤ 971) :
    (shortest tie mantissa exponent).digits ≠ 0 ∧
      RoundsTo ((shortest tie mantissa exponent).digits *
        10 ^ (shortest tie mantissa exponent).exponent) mantissa exponent := by
  let start := (exponent + mantissa.log2) * 30103 / 100000 + 1
  let last := start - (19 : ℕ)
  have found : ((Span.ofParts mantissa exponent).onGrid last).nearest? tie ≠ none := by
    have close : 1 * (twoTo (2 - exponent).toNat * tenTo last.toNat) <
        2 * twoTo (exponent - 2).toNat * tenTo (-last).toNat := by
      rw [← not_le, quarters_le_point_iff, not_le, Nat.cast_one, one_mul]
      have half := lastGrid_lt_half canonical finite
      norm_num at half ⊢
      exact half
    apply Span.nearest?_ne_none
    · change (Span.ofParts mantissa exponent).low * tenTo (-last).toNat ≤
        4 * mantissa * twoTo (exponent - 2).toNat * tenTo (-last).toNat
      rw [ofParts_low]
      exact Nat.mul_le_mul_right _ (Nat.mul_le_mul_right _ (Nat.sub_le _ _))
    · change 4 * mantissa * twoTo (exponent - 2).toNat * tenTo (-last).toNat +
          twoTo (2 - exponent).toNat * tenTo last.toNat <
        (4 * mantissa + 2) * twoTo (exponent - 2).toNat * tenTo (-last).toNat
      rw [Nat.add_mul, Nat.add_mul]
      omega
    · have two : 0 < twoTo (2 - exponent).toNat := by
        rw [twoTo, Nat.one_shiftLeft]
        exact Nat.two_pow_pos _
      exact Nat.mul_pos two (Nat.pow_pos (by decide))
  have inside := @Span.search_holds tie _ 20 start ⟨19, by decide, found⟩
  have rounds := roundsTo_of_holds canonical.positive inside
  refine ⟨fun zero => ?_, rounds⟩
  have low : mantissa - (if mantissa = 2 ^ 52 ∧ -1074 < exponent then 1 / 4 else 1 / 2) ≤
      ((shortest tie mantissa exponent).digits : ℚ) *
        10 ^ (shortest tie mantissa exponent).exponent / 2 ^ exponent := rounds.low
  have one : (1 : ℚ) ≤ mantissa := by exact_mod_cast canonical.positive
  rw [zero, Nat.cast_zero, zero_mul, zero_div] at low
  split at low <;> linarith

end Number
end EffectHost

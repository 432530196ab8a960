import EffectHost.Proofs.Number.Bits

/-!
# Values of single precision

Every single precision word is read as a script value and written back without loss, and so
a value that has been rounded to single precision once is rounded no further.  The mantissa
grows to full length on the way and shrinks again; the word nearest to a value does not
depend on how the value is divided between mantissa and exponent.
-/

namespace EffectHost
namespace Number

/-! ## Rounding -/

/-- Nothing is rounded where nothing but zeros is cut off. -/
theorem shiftRounded_mul (value shift : Nat) :
    shiftRounded (value * 2 ^ shift) shift = value := by
  have positive := Nat.two_pow_pos shift
  simp only [shiftRounded, twoTo, Nat.one_shiftLeft, Nat.mul_mod_left,
    Nat.mul_div_cancel value positive]
  grind

/-- Zeros at the end of a number do not count when it is rounded. -/
theorem shiftRounded_scale (value shift zeros : Nat) :
    shiftRounded (value * 2 ^ zeros) (shift + zeros) = shiftRounded value shift := by
  have positive := Nat.two_pow_pos zeros
  simp only [shiftRounded, twoTo, Nat.one_shiftLeft, Nat.pow_add,
    Nat.mul_div_mul_right _ _ positive, Nat.mul_mod_mul_right]
  have below : 2 ^ shift * 2 ^ zeros < 2 * (value % 2 ^ shift * 2 ^ zeros) ↔
      2 ^ shift < 2 * (value % 2 ^ shift) := by
    rw [← Nat.mul_assoc]
    exact Nat.mul_lt_mul_right positive
  have equal : 2 * (value % 2 ^ shift * 2 ^ zeros) = 2 ^ shift * 2 ^ zeros ↔
      2 * (value % 2 ^ shift) = 2 ^ shift := by
    rw [← Nat.mul_assoc]
    exact Nat.mul_left_inj (Nat.ne_of_gt positive)
  simp only [below, beq_iff_eq, equal, Bool.or_eq_true, Bool.and_eq_true, decide_eq_true_eq]

/-- Zeros at the end of a number make it longer. -/
theorem log2_mul_two_pow {value : Nat} (positive : value ≠ 0) (zeros : Nat) :
    (value * 2 ^ zeros).log2 = value.log2 + zeros := by
  have low : 2 ^ value.log2 ≤ value := Nat.log2_self_le positive
  have high : value < 2 ^ (value.log2 + 1) := Nat.lt_log2_self
  apply log2_eq_of_bounds
  · rw [Nat.pow_add]
    exact Nat.mul_le_mul_right _ low
  · rw [Nat.add_right_comm, Nat.pow_add]
    exact Nat.mul_lt_mul_of_pos_right high (Nat.two_pow_pos zeros)

namespace Format

/-- The word of a magnitude does not depend on how it is divided between the mantissa and
the exponent. -/
theorem packMagnitude_scale (format : Format) (mantissa zeros : Nat) (exponent : Int) :
    format.packMagnitude (mantissa * 2 ^ zeros) (exponent - zeros) =
      format.packMagnitude mantissa exponent := by
  by_cases none : mantissa = 0
  · simp [packMagnitude, none]
  · have some : mantissa * 2 ^ zeros ≠ 0 := by
      exact Nat.mul_ne_zero none (Nat.ne_of_gt (Nat.two_pow_pos zeros))
    have length := log2_mul_two_pow none zeros
    have natural : exponent - zeros + (mantissa * 2 ^ zeros).log2 - format.fractionBits =
        exponent + mantissa.log2 - format.fractionBits := by
      omega
    simp only [packMagnitude, beq_iff_eq, none, some, if_false, natural]
    generalize max (exponent + mantissa.log2 - format.fractionBits) format.leastExponent = target
    have units : (if target ≤ exponent - zeros then
          mantissa * 2 ^ zeros * twoTo (exponent - zeros - target).toNat
        else shiftRounded (mantissa * 2 ^ zeros) (target - (exponent - zeros)).toNat) =
        if target ≤ exponent then mantissa * twoTo (exponent - target).toNat
        else shiftRounded mantissa (target - exponent).toNat := by
      simp only [twoTo, Nat.one_shiftLeft]
      by_cases exact : target ≤ exponent
      · rw [if_pos exact]
        by_cases left : target ≤ exponent - zeros
        · have all : zeros + (exponent - zeros - target).toNat = (exponent - target).toNat := by
            omega
          rw [if_pos left, Nat.mul_assoc, ← Nat.pow_add, all]
        · -- some of the zeros are shifted out again
          have all : zeros = (exponent - target).toNat + (target - (exponent - zeros)).toNat := by
            omega
          have parted : mantissa * 2 ^ zeros = mantissa * 2 ^ (exponent - target).toNat *
              2 ^ (target - (exponent - zeros)).toNat := by
            rw [Nat.mul_assoc, ← Nat.pow_add, ← all]
          rw [if_neg left, parted, shiftRounded_mul]
      · have all : (target - (exponent - zeros)).toNat = (target - exponent).toNat + zeros := by
          omega
        rw [if_neg exact, if_neg (by omega), all, shiftRounded_scale]
    simp only [units]

/-- The word of a magnitude with a mantissa of full length. -/
theorem packMagnitude_normal {format : Format} {mantissa field : Nat}
    (low : 2 ^ format.fractionBits ≤ mantissa)
    (high : mantissa < 2 ^ (format.fractionBits + 1)) (finite : field + 1 < format.topField) :
    format.packMagnitude mantissa (format.leastExponent + field) =
      field * 2 ^ format.fractionBits + mantissa := by
  have length : mantissa.log2 = format.fractionBits := log2_eq_of_bounds low high
  have some : mantissa ≠ 0 := by
    have positive := Nat.two_pow_pos format.fractionBits
    omega
  have target : max (format.leastExponent + field + mantissa.log2 - format.fractionBits)
      format.leastExponent = format.leastExponent + field := by
    omega
  have whole : (format.leastExponent + field - format.leastExponent).toNat = field := by omega
  have inside : field * 2 ^ format.fractionBits + mantissa ≤
      format.topField * 2 ^ format.fractionBits := by
    have room : (field + 2) * 2 ^ format.fractionBits ≤
        format.topField * 2 ^ format.fractionBits := Nat.mul_le_mul_right _ finite
    rw [Nat.pow_succ] at high
    rw [Nat.add_mul] at room
    omega
  simp [packMagnitude, some, target, Nat.one_shiftLeft, Nat.min_eq_left inside]

/-- The word of a magnitude with a short mantissa and the least exponent. -/
theorem packMagnitude_subnormal {format : Format} {mantissa : Nat}
    (short : mantissa < 2 ^ format.fractionBits) (field : 1 ≤ format.topField) :
    format.packMagnitude mantissa format.leastExponent = mantissa := by
  by_cases none : mantissa = 0
  · simp [packMagnitude, none]
  · have length : mantissa.log2 < format.fractionBits := (Nat.log2_lt none).mpr short
    have target : max (format.leastExponent + mantissa.log2 - format.fractionBits)
        format.leastExponent = format.leastExponent := by
      omega
    have inside : mantissa ≤ format.topField * 2 ^ format.fractionBits := by
      have room := Nat.mul_le_mul_right (2 ^ format.fractionBits) field
      omega
    simp [packMagnitude, none, target, Nat.one_shiftLeft, Nat.min_eq_left inside]

/-- No magnitude has a word past the infinity. -/
theorem packMagnitude_le (format : Format) (mantissa : Nat) (exponent : Int) :
    format.packMagnitude mantissa exponent ≤ format.topField * 2 ^ format.fractionBits := by
  rw [packMagnitude]
  split
  · exact Nat.zero_le _
  · simp only [twoTo, Nat.one_shiftLeft]
    exact Nat.min_le_right _ _

/-- The sign bit of a word. -/
def signBit (format : Format) (negative : Bool) : Nat :=
  negative.toNat * 2 ^ (format.fractionBits + format.exponentBits)

theorem pack_finite (format : Format) (negative : Bool) (mantissa : Nat) (exponent : Int) :
    format.pack (.finite negative mantissa exponent) =
      format.packMagnitude mantissa exponent + format.signBit negative := by
  cases negative <;> simp [pack, signBit, Nat.one_shiftLeft]

theorem pack_infinite (format : Format) (negative : Bool) :
    format.pack (.infinite negative) =
      format.topField * 2 ^ format.fractionBits + format.signBit negative := by
  cases negative <;> simp [pack, signBit, Nat.one_shiftLeft]

/-! ## Single precision words -/

@[simp] theorem fractionBits_single : single.fractionBits = 23 := rfl

@[simp] theorem exponentBits_single : single.exponentBits = 8 := rfl

@[simp] theorem topField_single : single.topField = 255 := rfl

@[simp] theorem leastExponent_single : single.leastExponent = -149 := rfl

/-- What a single precision word can mean. -/
inductive SingleWord (word : Nat) : Reading → Prop where
  | nan (past : 255 * 2 ^ 23 < word % 2 ^ 31) : SingleWord word .nan
  | infinite {negative : Bool} (made : word = 255 * 2 ^ 23 + single.signBit negative) :
      SingleWord word (.infinite negative)
  | subnormal {negative : Bool} {fraction : Nat} (short : fraction < 2 ^ 23)
      (made : word = fraction + single.signBit negative) :
      SingleWord word (.finite negative fraction (-149))
  | normal {negative : Bool} {field mantissa : Nat} (finite : field < 254)
      (low : 2 ^ 23 ≤ mantissa) (high : mantissa < 2 ^ 24)
      (made : word = field * 2 ^ 23 + mantissa + single.signBit negative) :
      SingleWord word (.finite negative mantissa (-149 + field))

theorem singleWord_unpack {word : Nat} (size : word < 2 ^ 32) :
    SingleWord word (single.unpack word) := by
  have sign : (word / 2 ^ 31 % 2 == 1).toNat = word / 2 ^ 31 := by
    rcases Nat.mod_two_eq_zero_or_one (word / 2 ^ 31) with clear | raised
    · rw [clear]
      change 0 = word / 2 ^ 31
      omega
    · rw [raised]
      change 1 = word / 2 ^ 31
      omega
  rw [unpack]
  simp only [fractionBits_single, exponentBits_single, topField_single, leastExponent_single,
    twoTo, Nat.one_shiftLeft, beq_iff_eq, Nat.reduceAdd]
  split
  · next top =>
      split
      · next whole =>
          apply SingleWord.infinite
          rw [signBit, fractionBits_single, exponentBits_single, sign]
          omega
      · next other =>
          apply SingleWord.nan
          omega
  · next finite =>
      split
      · next least =>
          apply SingleWord.subnormal
          · exact Nat.mod_lt _ (Nat.two_pow_pos 23)
          · rw [signBit, fractionBits_single, exponentBits_single, sign]
            omega
      · next normal =>
          apply SingleWord.normal
          · omega
          · omega
          · omega
          · rw [signBit, fractionBits_single, exponentBits_single, sign]
            omega

namespace SingleWord

variable {word : Nat} {meaning : Reading}

/-- A single precision word is the one nearest to what it means. -/
theorem pack_eq (means : SingleWord word meaning) (number : meaning ≠ .nan) :
    single.pack meaning = word := by
  cases means with
  | nan past => exact absurd rfl number
  | infinite made => rw [pack_infinite, made, topField_single, fractionBits_single]
  | @subnormal negative fraction short made =>
      have magnitude : single.packMagnitude fraction (-149) = fraction :=
        packMagnitude_subnormal short (by decide)
      rw [pack_finite, magnitude, made]
  | @normal negative field mantissa finite low high made =>
      have magnitude : single.packMagnitude mantissa (-149 + field) =
          field * 2 ^ 23 + mantissa := by
        apply packMagnitude_normal low high
        rw [topField_single]
        omega
      rw [pack_finite, magnitude, made]

end SingleWord

/-! ## Double precision in between -/

@[simp] theorem fractionBits_double : double.fractionBits = 52 := rfl

@[simp] theorem exponentBits_double : double.exponentBits = 11 := rfl

@[simp] theorem topField_double : double.topField = 2047 := rfl

@[simp] theorem leastExponent_double : double.leastExponent = -1074 := rfl

/-- A double precision word is read field by field. -/
theorem unpack_double {word field fraction : Nat} {negative : Bool}
    (short : fraction < 2 ^ 52) (inside : field < 2 ^ 11)
    (made : word = field * 2 ^ 52 + fraction + double.signBit negative) :
    double.unpack word =
      if field = 2047 then if fraction = 0 then .infinite negative else .nan
      else if field = 0 then .finite negative fraction (-1074)
      else .finite negative (2 ^ 52 + fraction) (-1074 + (field - 1 : Nat)) := by
  have single : negative.toNat < 2 := Bool.toNat_lt negative
  rw [signBit, fractionBits_double, exponentBits_double] at made
  have sign : (word / 2 ^ 63 % 2 == 1) = negative := by
    have bit : word / 2 ^ 63 % 2 = negative.toNat := by omega
    rw [bit]
    cases negative <;> rfl
  have upper : word / 2 ^ 52 % 2 ^ 11 = field := by omega
  have lower : word % 2 ^ 52 = fraction := by omega
  simp only [unpack, fractionBits_double, exponentBits_double, topField_double,
    leastExponent_double, twoTo, Nat.one_shiftLeft, beq_iff_eq, Nat.reduceAdd, sign, upper, lower]

/-- A mantissa of full length comes back as it was. -/
theorem unpack_pack_double {negative : Bool} {mantissa field : Nat} (low : 2 ^ 52 ≤ mantissa)
    (high : mantissa < 2 ^ 53) (finite : field < 2046) :
    double.unpack (double.pack (.finite negative mantissa (-1074 + field))) =
      .finite negative mantissa (-1074 + field) := by
  have magnitude : double.packMagnitude mantissa (-1074 + field) = field * 2 ^ 52 + mantissa := by
    apply packMagnitude_normal low high
    rw [topField_double]
    omega
  have made : double.pack (.finite negative mantissa (-1074 + field)) =
      (field + 1) * 2 ^ 52 + (mantissa - 2 ^ 52) + double.signBit negative := by
    rw [pack_finite, magnitude]
    omega
  rw [unpack_double (by omega) (by omega) made, if_neg (by omega), if_neg (by omega),
    Nat.add_sub_cancel' low, Nat.add_sub_cancel]

theorem pack_scale (format : Format) (negative : Bool) (mantissa zeros : Nat)
    (exponent : Int) :
    format.pack (.finite negative (mantissa * 2 ^ zeros) (exponent - zeros)) =
      format.pack (.finite negative mantissa exponent) := by
  rw [pack_finite, packMagnitude_scale, pack_finite]

/-- The infinities are infinite in both precisions. -/
theorem unpack_pack_double_infinite (negative : Bool) :
    double.unpack (double.pack (.infinite negative)) = .infinite negative := by
  have made : double.pack (.infinite negative) = 2047 * 2 ^ 52 + 0 + double.signBit negative :=
    pack_infinite double negative
  rw [unpack_double (by decide) (by decide) made, if_pos rfl, if_pos rfl]

/-- A short mantissa is written in single precision as if it had never had another one. -/
theorem pack_unpack_pack_double {negative : Bool} {mantissa : Nat} {exponent : Int}
    (size : mantissa < 2 ^ 24) (least : -149 ≤ exponent) (most : exponent ≤ 104) :
    single.pack (double.unpack (double.pack (.finite negative mantissa exponent))) =
      single.pack (.finite negative mantissa exponent) := by
  by_cases none : mantissa = 0
  · have zero (format : Format) (exponent : Int) : format.packMagnitude 0 exponent = 0 := rfl
    have made : double.pack (.finite negative 0 exponent) =
        0 * 2 ^ 52 + 0 + double.signBit negative := by
      rw [pack_finite, zero, Nat.zero_mul]
    rw [none, unpack_double (by decide) (by decide) made, if_neg (by decide), if_pos rfl,
      pack_finite, pack_finite, zero, zero]
  · have short : mantissa.log2 < 24 := (Nat.log2_lt none).mpr size
    let zeros := 52 - mantissa.log2
    have long : (mantissa * 2 ^ zeros).log2 = 52 := by
      rw [log2_mul_two_pow none]
      omega
    have full : mantissa * 2 ^ zeros ≠ 0 :=
      Nat.mul_ne_zero none (Nat.ne_of_gt (Nat.two_pow_pos zeros))
    have bounds := (Nat.log2_eq_iff full).mp long
    have exponents : exponent - zeros = -1074 + ((exponent - zeros + 1074).toNat : Nat) := by
      omega
    rw [← pack_scale double negative mantissa zeros exponent, exponents,
      unpack_pack_double bounds.1 bounds.2 (by omega), ← exponents, pack_scale]

/-- The word of a number is a magnitude up to the infinity with a sign. -/
theorem pack_number (format : Format) {meaning : Reading} (number : meaning ≠ .nan) :
    ∃ magnitude negative, magnitude ≤ format.topField * 2 ^ format.fractionBits ∧
      format.pack meaning = magnitude + format.signBit negative := by
  cases meaning with
  | nan => exact absurd rfl number
  | infinite negative => exact ⟨_, negative, Nat.le_refl _, pack_infinite format negative⟩
  | finite negative mantissa exponent =>
      exact ⟨_, negative, packMagnitude_le format mantissa exponent,
        pack_finite format negative mantissa exponent⟩

end Format

open Format

/-- A script value made from a number is read from the word nearest to it. -/
theorem reading_ofReading {meaning : Reading} (number : meaning ≠ .nan) :
    reading (ofReading meaning) = double.unpack (double.pack meaning) := by
  rcases pack_number double number with ⟨magnitude, negative, small, made⟩
  have bit : negative.toNat < 2 := Bool.toNat_lt negative
  rw [topField_double, fractionBits_double] at small
  rw [signBit, fractionBits_double, exponentBits_double] at made
  have word : (double.pack meaning).toUInt64.toNat = double.pack meaning :=
    Nat.mod_eq_of_lt (by omega)
  rw [reading, ofReading, toBits_ofBits]
  · rw [word]
  · rw [word]
    omega

/-- What a single precision word means is rounded to single precision as itself, also when
it has been made a script value. -/
theorem pack_reading_ofReading {word : Nat} {meaning : Reading}
    (means : SingleWord word meaning) (number : meaning ≠ .nan) :
    single.pack (reading (ofReading meaning)) = word := by
  rw [reading_ofReading number]
  have same : single.pack (double.unpack (double.pack meaning)) = single.pack meaning := by
    cases means with
    | nan past => exact absurd rfl number
    | infinite made => rw [unpack_pack_double_infinite]
    | subnormal short made => exact pack_unpack_pack_double (by omega) (by omega) (by omega)
    | normal inside low high made =>
        exact pack_unpack_pack_double high (by omega) (by omega)
  rw [same, means.pack_eq number]

/-- Every single precision word that is a number survives being made a script value. -/
theorem narrow_widen {word : UInt32} (number : single.unpack word.toNat ≠ .nan) :
    narrow (widen word) = word := by
  have means := singleWord_unpack word.toNat_lt
  rw [narrow, widen, pack_reading_ofReading means number]
  exact UInt32.ofNat_toNat

/-- A script value is rounded to single precision once and for all. -/
theorem narrow_roundToSingle (value : Float) : narrow (roundToSingle value) = narrow value := by
  by_cases number : reading value = .nan
  · have word : narrow value = 0x7FC00000 := by
      rw [narrow, number]
      rfl
    rw [roundToSingle, word]
    decide +kernel
  · rcases pack_number single number with ⟨magnitude, negative, small, made⟩
    have bit : negative.toNat < 2 := Bool.toNat_lt negative
    rw [topField_single, fractionBits_single] at small
    rw [signBit, fractionBits_single, exponentBits_single] at made
    have word : (narrow value).toNat = single.pack (reading value) :=
      Nat.mod_eq_of_lt (by omega)
    apply narrow_widen
    intro lost
    have means := singleWord_unpack (narrow value).toNat_lt
    rw [lost] at means
    cases means with
    | nan past => omega

end Number
end EffectHost

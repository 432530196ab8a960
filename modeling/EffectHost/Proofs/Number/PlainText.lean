import EffectHost.Number.Layout
import EffectHost.Proofs.Number.Scientific
import EffectHost.Proofs.Number.Shortest

/-!
# Numbers come back from their text

The shortest digits of a number are written with as many zeros as the point needs, and the
numeral that is read from them has the same value.  It lies in the interval of the number, and
so the number itself is the script value that is nearest to it.
-/

namespace EffectHost
namespace Number

open Text

variable {mantissa : ℕ} {exponent : ℤ}

/-! ## Digits -/

theorem digitsValue_toDigits (number : ℕ) : digitsValue (Nat.toDigits 10 number) = number :=
  Nat.ofDigitChars_ten_toDigits

/-- A number other than zero does not begin with a zero. -/
theorem exists_toDigits_cons {number : ℕ} (some : number ≠ 0) :
    ∃ c rest, Nat.toDigits 10 number = c :: rest ∧ c ≠ '0' := by
  induction number using Nat.strongRecOn with
  | ind number ih =>
      rw [Nat.toDigits_eq_if (by decide)]
      split
      · next small =>
          have nonzero : ∀ digit : Fin 10, digit ≠ 0 → digit.val.digitChar ≠ '0' := by decide
          exact ⟨number.digitChar, [], rfl, nonzero ⟨number, small⟩ fun zero =>
            some (congrArg Fin.val zero)⟩
      · next large =>
          rcases ih (number / 10) (by omega) (by omega) with ⟨c, rest, digits, nonzero⟩
          exact ⟨c, rest ++ [(number % 10).digitChar], by rw [digits]; rfl, nonzero⟩

/-! ## Numerals -/

/-- Zeros behind the digits multiply their value. -/
theorem digitsValue_append_zeros (digits : List Char) (count : ℕ) :
    digitsValue (digits ++ zeros count) = digitsValue digits * 10 ^ count := by
  induction count with
  | zero => simp [zeros]
  | succ count ih =>
      have behind : digits ++ zeros (count + 1) = digits ++ zeros count ++ ['0'] := by
        rw [zeros, List.replicate_succ', ← zeros, List.append_assoc]
      rw [behind, digitsValue, List.foldl_append, ← digitsValue, ih]
      simp
      ring

/-- The sign of a text that begins with a digit. -/
theorem scanSign_signed {c : Char} (digit : isDigit c = true) (negative : Bool)
    (rest : List Char) :
    Numeral.scanSign (signed negative (c :: rest)) = (negative, c :: rest) := by
  cases negative with
  | true => rfl
  | false =>
      rw [signed, if_neg Bool.false_ne_true, Numeral.scanSign.eq_def]
      split
      · next same =>
          cases same
          cases digit
      · next same =>
          cases same
          cases digit
      · rfl

/-- A point and the digits behind it, if there are any. -/
def pointed (fraction : List Char) : List Char :=
  if fraction = [] then [] else '.' :: fraction

theorem scanFraction_pointed {fraction : List Char} (digits : ∀ c ∈ fraction, isDigit c = true) :
    Numeral.scanFraction (pointed fraction) = (fraction, []) := by
  rw [pointed]
  split
  · next none =>
      rw [none]
      rfl
  · rw [Numeral.scanFraction, List.takeWhile_eq_self_iff.mpr digits,
      List.dropWhile_eq_nil_iff.mpr digits]

/-- A numeral of digits with or without a point is scanned as a whole. -/
theorem scan_signed {negative : Bool} {whole fraction : List Char} (some : whole ≠ [])
    (digits : ∀ c ∈ whole, isDigit c = true) (digits' : ∀ c ∈ fraction, isDigit c = true) :
    Numeral.scan (signed negative (whole ++ pointed fraction)) =
      Option.some (⟨negative, whole, fraction, 0⟩, []) := by
  have sign : Numeral.scanSign (signed negative (whole ++ pointed fraction)) =
      (negative, whole ++ pointed fraction) := by
    rcases List.exists_cons_of_ne_nil some with ⟨c, rest, rfl⟩
    exact scanSign_signed (digits c (List.mem_cons_self ..)) negative _
  have taken : (whole ++ pointed fraction).takeWhile isDigit = whole := by
    rw [List.takeWhile_append_of_pos digits, pointed]
    split <;> simp [isDigit]
  have left : (whole ++ pointed fraction).dropWhile isDigit = pointed fraction := by
    rw [List.dropWhile_append_of_pos digits, pointed]
    split <;> simp [isDigit]
  rw [Numeral.scan, sign]
  dsimp only
  rw [taken, left, scanFraction_pointed digits', if_neg (by simp [some])]
  rfl

theorem isDigit_of_mem_digitChars {number : Decimal} :
    ∀ c ∈ number.digitChars, isDigit c = true :=
  fun _ member => Nat.isDigit_of_mem_toDigits (by decide) (by decide) member

theorem isDigit_of_mem_zeros {count : ℕ} {c : Char} (member : c ∈ zeros count) :
    isDigit c = true := by
  rw [List.eq_of_mem_replicate member]
  decide

/-- Digits that do not begin with a zero lose none in front. -/
theorem dropWhile_digitChars {number : Decimal} (some : number.digits ≠ 0) (more : List Char) :
    (number.digitChars ++ more).dropWhile (· == '0') = number.digitChars ++ more := by
  rcases exists_toDigits_cons some with ⟨c, rest, digits, nonzero⟩
  rw [Decimal.digitChars, digits, List.cons_append,
    List.dropWhile_cons_of_neg (by simpa using nonzero)]

/-- What stands in front of the point of a decimal number and behind it.  Without the zeros in
front these are the digits of the number, with as many zeros as make up for the exponent. -/
structure Layout (number : Decimal) (whole fraction : List Char) (count : ℕ) : Prop where
  text : number.positional = whole ++ pointed fraction
  begun : whole ≠ []
  wholeDigits : ∀ c ∈ whole, isDigit c = true
  fractionDigits : ∀ c ∈ fraction, isDigit c = true
  stripped : (whole ++ fraction).dropWhile (· == '0') = number.digitChars ++ zeros count
  power : (count : ℤ) - fraction.length = number.exponent

namespace Layout

variable {number : Decimal}

theorem dropWhile_digitChars_bare (some : number.digits ≠ 0) :
    number.digitChars.dropWhile (· == '0') = number.digitChars ++ zeros 0 := by
  simpa [zeros] using dropWhile_digitChars some []

/-- A whole number has zeros behind its digits. -/
theorem integer (some : number.digits ≠ 0) (whole : 0 ≤ number.exponent) :
    Layout number (number.digitChars ++ zeros number.exponent.toNat) []
      number.exponent.toNat where
  text := by simp [Decimal.positional, whole, pointed]
  begun := by simp [Decimal.digitChars]
  wholeDigits := List.forall_mem_append.mpr
    ⟨isDigit_of_mem_digitChars, fun _ member => isDigit_of_mem_zeros member⟩
  fractionDigits := by simp
  stripped := by rw [List.append_nil, dropWhile_digitChars some]
  power := by
    simp
    omega

/-- The point stands among the digits. -/
theorem inside (some : number.digits ≠ 0) (negative : ¬0 ≤ number.exponent)
    (above : 0 < number.point) :
    Layout number (number.digitChars.take number.point.toNat)
      (number.digitChars.drop number.point.toNat) 0 := by
  have point : number.point = number.digitChars.length + number.exponent := rfl
  have short : number.point.toNat < number.digitChars.length := by omega
  refine ⟨?_, ?_, fun c member => isDigit_of_mem_digitChars c (List.mem_of_mem_take member),
    fun c member => isDigit_of_mem_digitChars c (List.mem_of_mem_drop member), ?_, ?_⟩
  · rw [Decimal.positional, if_neg negative, if_pos above, pointed, if_neg]
    rw [List.drop_eq_nil_iff]
    omega
  · apply List.ne_nil_of_length_pos
    rw [List.length_take]
    omega
  · rw [List.take_append_drop, dropWhile_digitChars_bare some]
  · rw [List.length_drop]
    omega

/-- The point stands in front of the digits, with zeros between. -/
theorem before (some : number.digits ≠ 0) (negative : ¬0 ≤ number.exponent)
    (below : ¬0 < number.point) :
    Layout number ['0'] (zeros (-number.point).toNat ++ number.digitChars) 0 := by
  have point : number.point = number.digitChars.length + number.exponent := rfl
  have length : 0 < number.digitChars.length := Nat.length_toDigits_pos
  refine ⟨?_, by simp, List.forall_mem_singleton.mpr rfl, ?_, ?_, ?_⟩
  · rw [Decimal.positional, if_neg negative, if_neg below, pointed,
      if_neg (by simp [List.length_pos_iff.mp length])]
    rfl
  · rw [List.forall_mem_append]
    exact ⟨fun c member => isDigit_of_mem_zeros member, isDigit_of_mem_digitChars⟩
  · have front : ∀ c ∈ '0' :: zeros (-number.point).toNat, (c == '0') = true := by
      simp [zeros]
    rw [← List.append_assoc, List.singleton_append, List.dropWhile_append_of_pos front,
      dropWhile_digitChars_bare some]
  · rw [List.length_append, zeros, List.length_replicate]
    omega

end Layout

/-- Every decimal number other than zero is laid out in one of the three ways. -/
theorem exists_layout {number : Decimal} (some : number.digits ≠ 0) :
    ∃ whole fraction count, Layout number whole fraction count := by
  by_cases whole : 0 ≤ number.exponent
  · exact ⟨_, _, _, .integer some whole⟩
  · by_cases above : 0 < number.point
    · exact ⟨_, _, _, .inside some whole above⟩
    · exact ⟨_, _, _, .before some whole above⟩

/-- The number of digits tells the size of a number. -/
theorem digitChars_bounds {number : Decimal} (some : number.digits ≠ 0) :
    number.digits < 10 ^ number.digitChars.length ∧
      10 ^ number.digitChars.length ≤ 10 * number.digits := by
  have length : 0 < number.digitChars.length := Nat.length_toDigits_pos
  constructor
  · exact (Nat.length_toDigits_le_iff (by decide) length).mp (le_refl _)
  · cases shorter : number.digitChars.length with
    | zero => omega
    | succ count =>
        cases count with
        | zero => omega
        | succ count =>
            have longer : ¬number.digits < 10 ^ (count + 1) := by
              rw [← Nat.length_toDigits_le_iff (by decide) (by omega), ← Decimal.digitChars,
                shorter]
              omega
            rw [Nat.pow_succ']
            omega

/-- The numeral of a decimal number is the value in whose interval the number lies. -/
theorem value_eq {number : Decimal} (some : number.digits ≠ 0) {whole fraction : List Char}
    {count : ℕ} (layout : Layout number whole fraction count)
    (canonical : Canonical mantissa exponent) (finite : exponent ≤ 971)
    (rounds : RoundsTo (number.digits * 10 ^ number.exponent) mantissa exponent)
    (negative : Bool) :
    (⟨negative, whole, fraction, 0⟩ : Numeral).value =
      if negative then -canonical.value .positive else canonical.value .positive := by
  have bounds := digitChars_bounds some
  have tens : 0 < 10 ^ count := Nat.pow_pos (by decide)
  have size : (number.digitChars ++ zeros count).length = number.digitChars.length + count := by
    rw [List.length_append, zeros, List.length_replicate]
  have magnitude : nearestFloat (number.digits * 10 ^ count) (number.digitChars.length + count)
      (0 - fraction.length) = canonical.value .positive := by
    apply nearestFloat_eq (Nat.mul_ne_zero some tens.ne') _ _ canonical finite
    · have same : ((number.digits * 10 ^ count : ℕ) : ℚ) * 10 ^ (0 - (fraction.length : ℤ)) =
          number.digits * 10 ^ number.exponent := by
        rw [← layout.power, sub_eq_add_neg, zero_add, sub_eq_add_neg, zpow_add₀ (by norm_num),
          zpow_natCast]
        push_cast
        ring
      rwa [same]
    · rw [Nat.pow_add]
      exact Nat.mul_lt_mul_of_pos_right bounds.1 tens
    · rw [Nat.pow_add, ← Nat.mul_assoc]
      exact Nat.mul_le_mul_right _ bounds.2
  rw [Numeral.value]
  dsimp only
  rw [layout.stripped, digitsValue_append_zeros, size, Decimal.digitChars, digitsValue_toDigits,
    ← Decimal.digitChars, magnitude]

theorem mem_digits_of_isDigit {c : Char} (digit : isDigit c = true) : c ∈ "0123456789".toList := by
  have each : ∀ value : Fin 10, Char.ofNat (48 + value) ∈ "0123456789".toList := by decide
  rcases toNat_of_isDigit digit with ⟨low, high⟩
  have found := each ⟨c.toNat - 48, by omega⟩
  rwa [Nat.add_sub_cancel' low, Char.ofNat_toNat] at found

/-- Words for values that are not finite begin with one of two letters. -/
theorem specialValue?_of_first {c : Char} (i : c.toLower ≠ 'i') (n : c.toLower ≠ 'n')
    (rest : List Char) : specialValue? (c :: rest) = none := by
  have other {letter : Char} (apart : c.toLower ≠ letter) {name : String}
      (begins : name.toList.head? = some letter) :
      (String.ofList ((c :: rest).map Char.toLower) == name) = false := by
    rw [beq_eq_false_iff_ne]
    rintro rfl
    rw [String.toList_ofList, List.map_cons] at begins
    exact apart (Option.some.inj begins)
  rw [specialValue?, other i (by decide), other i (by decide), other n (by decide)]
  rfl

/-- No word for a value that is not finite begins with a digit. -/
theorem specialValue?_of_digit {c : Char} (digit : isDigit c = true) (rest : List Char) :
    specialValue? (c :: rest) = none := by
  have other : ∀ c ∈ "0123456789".toList, c.toLower ≠ 'i' ∧ c.toLower ≠ 'n' :=
    List.all_iff_forall_prop.mp (by decide)
  have apart := other c (mem_digits_of_isDigit digit)
  exact specialValue?_of_first apart.1 apart.2 rest

theorem neg_value (canonical : Canonical mantissa exponent) (finite : exponent ≤ 971) :
    -canonical.value .positive = canonical.value .negative := by
  have unpacked :
      (Float.Model.pack (.finite .positive mantissa exponent canonical.positive)).unpack =
        .finite .positive mantissa exponent canonical.positive := unpack_pack canonical finite
  change Float.ofModel (.pack (Float.Model.UnpackedFloat.neg (Float.Model.unpack (.pack _)))) = _
  rw [unpacked]
  rfl

/-- A decimal number with a sign is read as the value in whose interval it lies. -/
theorem number?_signed {number : Decimal} (some : number.digits ≠ 0)
    (canonical : Canonical mantissa exponent) (finite : exponent ≤ 971)
    (rounds : RoundsTo (number.digits * 10 ^ number.exponent) mantissa exponent)
    (negative : Bool) :
    number? (signed negative number.positional) =
      Option.some (if negative then -canonical.value .positive else canonical.value .positive) := by
  rcases exists_layout some with ⟨whole, fraction, count, layout⟩
  have scanned := @scan_signed negative _ _ layout.begun layout.wholeDigits layout.fractionDigits
  have value := value_eq some layout canonical finite rounds negative
  rcases List.exists_cons_of_ne_nil layout.begun with ⟨c, rest, rfl⟩
  have digit := layout.wholeDigits c (List.mem_cons_self ..)
  rw [number?, layout.text, List.cons_append, scanSign_signed digit, specialValue?_of_digit digit,
    ← List.cons_append, scanned]
  dsimp only
  rw [value]

/-- Every number is read from its text. -/
theorem number?_plainText {value : Float} (number : reading value ≠ .nan) :
    number? (plainText value).toList = some value := by
  have means := means_unpack value
  have whole := ofModel_pack_unpack value
  generalize value.toModel.unpack = unpacked at means whole
  rw [plainText, String.toList_ofList]
  generalize reading value = meaning at means number ⊢
  cases means with
  | nan => exact absurd rfl number
  | infinite sign =>
      rw [← whole]
      cases sign <;> decide +kernel
  | zero sign =>
      rw [← whole]
      cases sign <;> decide +kernel
  | finite sign canonical finite =>
      have digits := @shortest_roundsTo _ _ .up canonical finite
      dsimp only
      rw [if_neg (by simpa using canonical.positive.ne'),
        number?_signed digits.1 canonical finite digits.2, ← whole]
      cases sign with
      | positive => rfl
      | negative => exact congrArg Option.some (neg_value canonical finite)

/-! ## Characters -/

/-- The characters of numbers in words and figures. -/
def figures : List Char := "0123456789-.infNa".toList

theorem mem_figures_of_isDigit {c : Char} (digit : isDigit c = true) : c ∈ figures := by
  have all : ∀ c ∈ "0123456789".toList, c ∈ figures := List.all_iff_forall_prop.mp (by decide)
  exact all c (mem_digits_of_isDigit digit)

theorem mem_figures_of_mem_positional {number : Decimal} {c : Char}
    (member : c ∈ number.positional) : c ∈ figures := by
  have digits : ∀ c ∈ number.digitChars, c ∈ figures :=
    fun c member => mem_figures_of_isDigit (isDigit_of_mem_digitChars c member)
  have padding (count : ℕ) : ∀ c ∈ zeros count, c ∈ figures :=
    fun c member => mem_figures_of_isDigit (isDigit_of_mem_zeros member)
  revert c
  change ∀ c ∈ number.positional, c ∈ figures
  rw [Decimal.positional]
  split
  · exact List.forall_mem_append.mpr ⟨digits, padding _⟩
  · split
    · refine List.forall_mem_append.mpr ⟨fun c member => digits c (List.mem_of_mem_take member), ?_⟩
      exact List.forall_mem_cons.mpr
        ⟨by decide, fun c member => digits c (List.mem_of_mem_drop member)⟩
    · exact List.forall_mem_cons.mpr ⟨by decide, List.forall_mem_cons.mpr
        ⟨by decide, List.forall_mem_append.mpr ⟨padding _, digits⟩⟩⟩

/-- A number is written in figures, or as a word. -/
theorem mem_figures_of_mem_plainText {value : Float} {c : Char}
    (member : c ∈ (plainText value).toList) : c ∈ figures := by
  have sign (negative : Bool) {digits : List Char} (inside : ∀ c ∈ digits, c ∈ figures) :
      ∀ c ∈ signed negative digits, c ∈ figures := by
    rw [signed]
    split
    · exact List.forall_mem_cons.mpr ⟨by decide, inside⟩
    · exact inside
  rw [plainText, String.toList_ofList] at member
  cases read : reading value with
  | nan =>
      rw [read] at member
      have word : ∀ c ∈ "NaN".toList, c ∈ figures := List.all_iff_forall_prop.mp (by decide)
      exact word c member
  | infinite negative =>
      rw [read] at member
      have word : ∀ c ∈ "inf".toList, c ∈ figures := List.all_iff_forall_prop.mp (by decide)
      exact sign negative word c member
  | finite negative mantissa exponent =>
      rw [read] at member
      refine sign negative ?_ c member
      split
      · exact List.all_iff_forall_prop.mp (by decide)
      · exact fun c member => mem_figures_of_mem_positional member

end Number
end EffectHost

import EffectHost.Proofs.Number.PlainText
import EffectHost.Proofs.Number.Rounded
import EffectHost.Proofs.Text.Parts

/-!
# The text of a numeral

A numeral is written with or without a sign, with or without a point, and with or without an
exponent.  However it is written, it is scanned as a whole, if only what stands behind it does not
go on with it.
-/

namespace EffectHost
namespace Number
namespace Numeral

open Text

/-! ## Ways to write a numeral -/

/-- A sign as it is written. -/
inductive SignText : Bool → List Char → Prop
  | absent : SignText false []
  | plus : SignText false ['+']
  | minus : SignText true ['-']

/-- Digits behind a point as they are written. -/
inductive FractionText : List Char → List Char → Prop
  | absent : FractionText [] []
  | pointed {digits : List Char} (all : ∀ c ∈ digits, isDigit c = true) :
      FractionText digits ('.' :: digits)

/-- An exponent as it is written. -/
inductive ExponentText : Int → List Char → Prop
  | absent : ExponentText 0 []
  | marked {mark : Char} (isMark : mark = 'e' ∨ mark = 'E') {negative : Bool} {sign : List Char}
      (signed : SignText negative sign) {digits : List Char} (some : digits ≠ [])
      (all : ∀ c ∈ digits, isDigit c = true) :
      ExponentText (if negative then -digitsValue digits else digitsValue digits)
        (mark :: (sign ++ digits))

/-- The text spells the numeral. -/
inductive SpelledBy (numeral : Numeral) : List Char → Prop
  | intro {sign fraction exponent : List Char} (signed : SignText numeral.negative sign)
      (whole : ∀ c ∈ numeral.whole, isDigit c = true)
      (pointed : FractionText numeral.fraction fraction)
      (some : numeral.whole ++ numeral.fraction ≠ [])
      (marked : ExponentText numeral.exponent exponent) :
      SpelledBy numeral (sign ++ (numeral.whole ++ (fraction ++ exponent)))

/-- What begins so does not go on with a numeral. -/
def Stops (rest : List Char) : Prop :=
  ∀ c ∈ rest.head?, isDigit c = false ∧ c ≠ '.' ∧ c ≠ 'e' ∧ c ≠ 'E'

/-! ## Scanning -/

section Scanning

variable {negative : Bool} {sign digits text rest : List Char} {exponent : Int}

theorem scanSign_append (signed : SignText negative sign)
    (unsigned : ∀ c ∈ rest.head?, c ≠ '-' ∧ c ≠ '+') :
    scanSign (sign ++ rest) = (negative, rest) := by
  cases signed with
  | plus | minus => rfl
  | absent =>
      rw [List.nil_append, scanSign.eq_def]
      split
      · exact absurd rfl (unsigned _ rfl).1
      · exact absurd rfl (unsigned _ rfl).2
      · rfl

theorem ne_sign_of_isDigit {c : Char} (digit : isDigit c = true) : c ≠ '-' ∧ c ≠ '+' := by
  constructor <;> rintro rfl <;> cases digit

theorem isDigit_of_fractionText (pointed : FractionText digits text) :
    ∀ c ∈ digits, isDigit c = true := by
  cases pointed with
  | absent => nofun
  | pointed all => exact all

theorem scanFraction_append (pointed : FractionText digits text)
    (stops : ∀ c ∈ rest.head?, isDigit c = false ∧ c ≠ '.') :
    scanFraction (text ++ rest) = (digits, rest) := by
  cases pointed with
  | absent =>
      rw [List.nil_append, scanFraction.eq_def]
      split
      · exact absurd rfl (stops _ rfl).2
      · rfl
  | pointed all =>
      rcases span_append all fun c head => (stops c head).1 with ⟨taken, left⟩
      rw [List.cons_append, scanFraction, taken, left]

theorem scanExponent_append (marked : ExponentText exponent text) (stops : Stops rest) :
    scanExponent (text ++ rest) = (exponent, rest) := by
  cases marked with
  | absent =>
      cases rest with
      | nil => rfl
      | cons c behind =>
          have stop := stops c rfl
          have other : ¬ (c == 'e' || c == 'E') = true := by simp [stop.2.2]
          rw [List.nil_append, scanExponent, if_neg other]
  | @marked mark isMark negative sign signed digits some all =>
      have found : (mark == 'e' || mark == 'E') = true := by simpa using isMark
      have unsigned : ∀ c ∈ (digits ++ rest).head?, c ≠ '-' ∧ c ≠ '+' := by
        rcases List.exists_cons_of_ne_nil some with ⟨first, others, rfl⟩
        rintro c ⟨⟩
        exact ne_sign_of_isDigit (all first List.mem_cons_self)
      rcases span_append all fun c head => (stops c head).1 with ⟨taken, left⟩
      rw [List.cons_append, List.append_assoc, scanExponent, if_pos found,
        scanSign_append signed unsigned]
      dsimp only
      rw [taken, left, if_neg (by simpa using some)]

/-- What stands behind the digits of a numeral is no digit and no second point. -/
theorem head_exponentText (marked : ExponentText exponent text) (stops : Stops rest) :
    ∀ c ∈ (text ++ rest).head?, isDigit c = false ∧ c ≠ '.' := by
  cases marked with
  | absent => exact fun c head => ⟨(stops c head).1, (stops c head).2.1⟩
  | marked isMark =>
      rintro c ⟨⟩
      rcases isMark with rfl | rfl <;> exact ⟨rfl, by decide⟩

theorem head_fractionText (pointed : FractionText digits text)
    (stops : ∀ c ∈ rest.head?, isDigit c = false ∧ c ≠ '.') :
    ∀ c ∈ (text ++ rest).head?, isDigit c = false := by
  cases pointed with
  | absent => exact fun c head => (stops c head).1
  | pointed =>
      rintro c ⟨⟩
      rfl

/-- A numeral without its sign begins with a digit or a point. -/
theorem head_digits (rest : List Char) {whole : List Char} (all : ∀ c ∈ whole, isDigit c = true)
    (pointed : FractionText digits text) (some : whole ++ digits ≠ []) :
    ∀ c ∈ (whole ++ (text ++ rest)).head?, c ≠ '-' ∧ c ≠ '+' := by
  cases whole with
  | cons first others =>
      rintro c ⟨⟩
      exact ne_sign_of_isDigit (all first List.mem_cons_self)
  | nil =>
      cases pointed with
      | absent => exact absurd rfl some
      | pointed =>
          rintro c ⟨⟩
          decide

end Scanning

/-- However it is written, a numeral is scanned as a whole. -/
theorem scan_append {numeral : Numeral} {text rest : List Char} (spelled : numeral.SpelledBy text)
    (stops : Stops rest) : scan (text ++ rest) = some (numeral, rest) := by
  cases spelled with
  | @intro sign fraction exponent signed whole pointed some marked =>
      have behind := head_exponentText marked stops
      have unsigned := head_digits (exponent ++ rest) whole pointed some
      rcases span_append whole (head_fractionText pointed behind) with ⟨taken, left⟩
      have begun : ¬ (numeral.whole.isEmpty && numeral.fraction.isEmpty) = true := by
        simpa using some
      rw [List.append_assoc, List.append_assoc, List.append_assoc, scan,
        scanSign_append signed unsigned]
      dsimp only
      rw [taken, left, scanFraction_append pointed behind, if_neg begun,
        scanExponent_append marked stops]

/-- The value of a numeral is nearest to what its text spells. -/
theorem denotes_of_spelled {numeral : Numeral} {text : List Char}
    (spelled : numeral.SpelledBy text) : numeral.Denotes numeral.value := by
  cases spelled with
  | intro signed whole pointed =>
      exact denotes_value (List.forall_mem_append.mpr ⟨whole, isDigit_of_fractionText pointed⟩)

/-- The value of a numeral is read from every text that spells it. -/
theorem exists_numberPrefix_append {numeral : Numeral} {text rest : List Char}
    (spelled : numeral.SpelledBy text) (stops : Stops rest) :
    ∃ value, numberPrefix (text ++ rest) = (value, rest) ∧ numeral.Denotes value := by
  refine ⟨numeral.value, ?_, denotes_of_spelled spelled⟩
  rw [numberPrefix, scan_append spelled stops]

/-! ## Characters -/

/-- The characters with which a numeral begins. -/
def leadingMarks : List Char := "0123456789".toList ++ ['.', '+', '-']

/-- The characters of numerals. -/
def marks : List Char := leadingMarks ++ ['e', 'E']

theorem mem_leadingMarks_of_isDigit {c : Char} (digit : isDigit c = true) : c ∈ leadingMarks :=
  List.mem_append_left _ (mem_digits_of_isDigit digit)

section Characters

variable {digits text : List Char} {numeral : Numeral}

theorem mem_leadingMarks_of_sign {negative : Bool} {sign : List Char}
    (signed : SignText negative sign) : ∀ c ∈ sign, c ∈ leadingMarks := by
  cases signed with
  | absent => nofun
  | plus | minus => exact List.forall_mem_singleton.mpr (List.mem_append_right _ (by decide))

theorem eq_nil_of_fractionText (pointed : FractionText digits text) (none : text = []) :
    digits = [] := by
  cases pointed with
  | absent => rfl
  | pointed => cases none

theorem mem_leadingMarks_of_fraction (pointed : FractionText digits text) :
    ∀ c ∈ text, c ∈ leadingMarks := by
  cases pointed with
  | absent => nofun
  | pointed all =>
      exact List.forall_mem_cons.mpr ⟨List.mem_append_right _ (by decide),
        fun c member => mem_leadingMarks_of_isDigit (all c member)⟩

theorem mem_marks_of_exponent {exponent : Int} (marked : ExponentText exponent text) :
    ∀ c ∈ text, c ∈ marks := by
  cases marked with
  | absent => nofun
  | marked isMark signed some all =>
      refine List.forall_mem_cons.mpr ⟨?_, List.forall_mem_append.mpr ⟨?_, ?_⟩⟩
      · rcases isMark with rfl | rfl <;> exact List.mem_append_right _ (by decide)
      · exact fun c member => List.mem_append_left _ (mem_leadingMarks_of_sign signed c member)
      · exact fun c member => List.mem_append_left _ (mem_leadingMarks_of_isDigit (all c member))

theorem mem_marks_of_spelled (spelled : numeral.SpelledBy text) : ∀ c ∈ text, c ∈ marks := by
  cases spelled with
  | intro signed whole pointed some marked =>
      have leading {c : Char} (member : c ∈ leadingMarks) : c ∈ marks :=
        List.mem_append_left _ member
      refine List.forall_mem_append.mpr ⟨?_, List.forall_mem_append.mpr
        ⟨?_, List.forall_mem_append.mpr ⟨?_, mem_marks_of_exponent marked⟩⟩⟩
      · exact fun c member => leading (mem_leadingMarks_of_sign signed c member)
      · exact fun c member => leading (mem_leadingMarks_of_isDigit (whole c member))
      · exact fun c member => leading (mem_leadingMarks_of_fraction pointed c member)

/-- A numeral begins with a digit, a point or a sign. -/
theorem exists_head_of_spelled (spelled : numeral.SpelledBy text) :
    ∃ c rest, text = c :: rest ∧ c ∈ leadingMarks := by
  cases spelled with
  | @intro sign fraction exponent signed whole pointed some marked =>
      let front := sign ++ (numeral.whole ++ fraction)
      have shape : sign ++ (numeral.whole ++ (fraction ++ exponent)) = front ++ exponent := by
        rw [List.append_assoc, List.append_assoc]
      have begun : front ≠ [] := by
        intro nothing
        rcases List.append_eq_nil_iff.mp nothing with ⟨_, unsigned⟩
        rcases List.append_eq_nil_iff.mp unsigned with ⟨noWhole, noFraction⟩
        apply some
        rw [noWhole, eq_nil_of_fractionText pointed noFraction, List.append_nil]
      have leading : ∀ c ∈ front, c ∈ leadingMarks :=
        List.forall_mem_append.mpr ⟨mem_leadingMarks_of_sign signed, List.forall_mem_append.mpr
          ⟨fun c member => mem_leadingMarks_of_isDigit (whole c member),
            mem_leadingMarks_of_fraction pointed⟩⟩
      rcases List.exists_cons_of_ne_nil begun with ⟨c, rest, cons⟩
      refine ⟨c, rest ++ exponent, ?_, leading c (cons ▸ List.mem_cons_self)⟩
      rw [shape, cons]
      rfl

end Characters

end Numeral
end Number
end EffectHost

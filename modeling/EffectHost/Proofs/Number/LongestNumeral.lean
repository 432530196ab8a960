import EffectHost.Proofs.Number.Spelled

/-!
# The longest numeral in front of a text

What the scanner takes off a text is a numeral, and the scanner goes at least as far as any
numeral with which the text begins.  So it takes the longest one.  The strict reading of a word
accepts what the scanner takes, and gives it the same value.
-/

namespace EffectHost
namespace Number
namespace Numeral

open Text

/-! ## What is taken is a numeral -/

section Taken

theorem exists_signText (text : List Char) :
    ∃ sign, SignText (scanSign text).1 sign ∧ text = sign ++ (scanSign text).2 := by
  rw [scanSign.eq_def]
  split
  · exact ⟨['-'], .minus, rfl⟩
  · exact ⟨['+'], .plus, rfl⟩
  · exact ⟨[], .absent, rfl⟩

theorem exists_fractionText (text : List Char) :
    ∃ fraction, FractionText (scanFraction text).1 fraction ∧
      text = fraction ++ (scanFraction text).2 := by
  rw [scanFraction.eq_def]
  split
  · next rest =>
      refine ⟨'.' :: rest.takeWhile isDigit, .pointed fun _ => List.mem_takeWhile_imp, ?_⟩
      rw [List.cons_append, List.takeWhile_append_dropWhile]
  · exact ⟨[], .absent, rfl⟩

theorem exists_exponentText (text : List Char) :
    ∃ exponent, ExponentText (scanExponent text).1 exponent ∧
      text = exponent ++ (scanExponent text).2 := by
  cases text with
  | nil => exact ⟨[], .absent, rfl⟩
  | cons mark behind =>
      rcases exists_signText behind with ⟨sign, signed, parts⟩
      rw [scanExponent]
      split
      · next found =>
          dsimp only
          split
          · exact ⟨[], .absent, rfl⟩
          · next some =>
              rw [Bool.or_eq_true, beq_iff_eq, beq_iff_eq] at found
              refine ⟨_, .marked found signed (by simpa using some)
                fun _ => List.mem_takeWhile_imp, ?_⟩
              rw [List.cons_append, List.append_assoc, List.takeWhile_append_dropWhile, ← parts]
      · exact ⟨[], .absent, rfl⟩

/-- What the scanner takes off a text is a numeral. -/
theorem exists_spelled_of_scan {text rest : List Char} {numeral : Numeral}
    (scanned : scan text = some (numeral, rest)) :
    ∃ front, numeral.SpelledBy front ∧ text = front ++ rest := by
  rw [scan] at scanned
  split at scanned
  · cases scanned
  · next some =>
      cases scanned
      rcases exists_signText text with ⟨sign, signed, parts⟩
      rcases exists_fractionText ((scanSign text).2.dropWhile isDigit) with
        ⟨fraction, pointed, behind⟩
      rcases exists_exponentText (scanFraction ((scanSign text).2.dropWhile isDigit)).2 with
        ⟨exponent, marked, last⟩
      refine ⟨_, .intro signed (fun _ => List.mem_takeWhile_imp) pointed (by simpa using some)
        marked, ?_⟩
      rw [List.append_assoc, List.append_assoc, List.append_assoc, ← last, ← behind,
        List.takeWhile_append_dropWhile, ← parts]

end Taken

/-! ## No numeral is longer -/

section Longest

variable {digits text : List Char} {exponent : Int}

theorem suffix_scanFraction (text : List Char) : (scanFraction text).2 <:+ text := by
  rcases exists_fractionText text with ⟨fraction, _, parts⟩
  exact ⟨fraction, parts.symm⟩

theorem suffix_scanExponent (text : List Char) : (scanExponent text).2 <:+ text := by
  rcases exists_exponentText text with ⟨exponent, _, parts⟩
  exact ⟨exponent, parts.symm⟩

/-- A point and the digits behind it are all taken, and perhaps more digits. -/
theorem scanFraction_of_pointed (all : ∀ c ∈ digits, isDigit c = true) (rest : List Char) :
    scanFraction ('.' :: digits ++ rest) =
      (digits ++ rest.takeWhile isDigit, rest.dropWhile isDigit) := by
  rw [List.cons_append, scanFraction, List.takeWhile_append_of_pos all,
    List.dropWhile_append_of_pos all]

/-- An exponent that is written is taken, and perhaps more digits. -/
theorem suffix_scanExponent_append (marked : ExponentText exponent text) (rest : List Char) :
    (scanExponent (text ++ rest)).2 <:+ rest := by
  cases marked with
  | absent => exact suffix_scanExponent rest
  | @marked mark isMark negative sign signed digits some all =>
      have found : (mark == 'e' || mark == 'E') = true := by simpa using isMark
      have unsigned : ∀ c ∈ (digits ++ rest).head?, c ≠ '-' ∧ c ≠ '+' := by
        rcases List.exists_cons_of_ne_nil some with ⟨first, others, rfl⟩
        rintro c ⟨⟩
        exact ne_sign_of_isDigit (all first List.mem_cons_self)
      have begun : ¬ (digits ++ rest.takeWhile isDigit).isEmpty = true := by simp [some]
      rw [List.cons_append, List.append_assoc, scanExponent, if_pos found,
        scanSign_append signed unsigned]
      dsimp only
      rw [List.takeWhile_append_of_pos all, List.dropWhile_append_of_pos all, if_neg begun]
      exact List.dropWhile_suffix isDigit

/-- The scanner goes behind the point, the digits and the exponent that are written. -/
theorem suffix_scan_fraction (pointed : FractionText digits text) {mark : List Char}
    (marked : ExponentText exponent mark) (rest : List Char) :
    (scanExponent (scanFraction ((text ++ (mark ++ rest)).dropWhile isDigit)).2).2 <:+ rest := by
  cases marked with
  | absent =>
      apply (suffix_scanExponent _).trans
      cases pointed with
      | absent => exact (suffix_scanFraction _).trans (List.dropWhile_suffix isDigit)
      | pointed all =>
          rw [List.cons_append, List.dropWhile_cons_of_neg (by decide), ← List.cons_append,
            scanFraction_of_pointed all]
          exact List.dropWhile_suffix isDigit
  | @marked mark isMark negative sign signed others some all =>
      -- The mark is no digit, so that the digits in front of it end where they are written.
      have stops : ∀ c ∈ (mark :: (sign ++ others) ++ rest).head?, isDigit c = false ∧ c ≠ '.' := by
        rintro c ⟨⟩
        rcases isMark with rfl | rfl <;> exact ⟨rfl, by decide⟩
      have behind := (span_append (List.forall_mem_nil _) (head_fractionText pointed stops)).2
      rw [List.nil_append] at behind
      rw [behind, scanFraction_append pointed stops]
      exact suffix_scanExponent_append (.marked isMark signed some all) rest

theorem begun_of_spelled {whole : List Char} (all : ∀ c ∈ whole, isDigit c = true)
    (pointed : FractionText digits text) (some : whole ++ digits ≠ []) (rest : List Char) :
    ¬ (((whole ++ (text ++ rest)).takeWhile isDigit).isEmpty &&
      (scanFraction ((whole ++ (text ++ rest)).dropWhile isDigit)).1.isEmpty) = true := by
  rw [List.takeWhile_append_of_pos all, List.dropWhile_append_of_pos all]
  cases whole with
  | cons => simp
  | nil =>
      cases pointed with
      | absent => exact absurd rfl some
      | pointed others =>
          rw [List.cons_append, List.dropWhile_cons_of_neg (by decide), ← List.cons_append,
            scanFraction_of_pointed others]
          rw [List.nil_append] at some
          simp [some]

/-- A numeral in front of a text is taken, and perhaps more. -/
theorem exists_scan_of_spelled {numeral : Numeral} {front : List Char}
    (spelled : numeral.SpelledBy front) (rest : List Char) :
    ∃ taken left, scan (front ++ rest) = some (taken, left) ∧ left <:+ rest := by
  cases spelled with
  | @intro sign fraction exponent signed whole pointed some marked =>
      have unsigned := head_digits (exponent ++ rest) whole pointed some
      have begun := begun_of_spelled whole pointed some (exponent ++ rest)
      rw [List.append_assoc, List.append_assoc, List.append_assoc, scan,
        scanSign_append signed unsigned]
      dsimp only
      rw [if_neg begun]
      refine ⟨_, _, rfl, ?_⟩
      rw [List.dropWhile_append_of_pos whole]
      exact suffix_scan_fraction pointed marked rest

end Longest

/-! ## The strict reading -/

theorem specialValue?_of_leadingMark {c : Char} (leading : c ∈ leadingMarks) (rest : List Char) :
    specialValue? (c :: rest) = none := by
  have other : ∀ c ∈ leadingMarks, c.toLower ≠ 'i' ∧ c.toLower ≠ 'n' :=
    List.all_iff_forall_prop.mp (by decide)
  exact specialValue?_of_first (other c leading).1 (other c leading).2 rest

/-- Behind its sign no numeral is the word for a value that is not finite. -/
theorem specialValue?_of_spelled {numeral : Numeral} {word : List Char}
    (spelled : numeral.SpelledBy word) : specialValue? (scanSign word).2 = none := by
  cases spelled with
  | @intro sign fraction exponent signed whole pointed some marked =>
      have unsigned := head_digits exponent whole pointed some
      have bare : ({ numeral with negative := false } : Numeral).SpelledBy _ :=
        .intro .absent whole pointed some marked
      rcases exists_head_of_spelled bare with ⟨c, rest, begins, leading⟩
      rw [List.nil_append] at begins
      rw [scanSign_append signed unsigned, begins]
      exact specialValue?_of_leadingMark leading rest

/-- The strict reading accepts a numeral, and gives it its value. -/
theorem number?_of_spelled {numeral : Numeral} {word : List Char}
    (spelled : numeral.SpelledBy word) : number? word = some numeral.value := by
  have scanned := scan_append spelled (show Stops [] from nofun)
  rw [List.append_nil] at scanned
  simp only [number?, specialValue?_of_spelled spelled, scanned]

/-! ## The lenient reading -/

/-- The word is a numeral. -/
def IsSpelling (word : List Char) : Prop :=
  ∃ numeral : Numeral, numeral.SpelledBy word

/-- Every numeral with which a text begins is part of what the scanner takes. -/
theorem prefix_of_scan {text front rest word : List Char} {numeral : Numeral}
    (scanned : scan text = some (numeral, rest)) (parts : text = front ++ rest)
    (begins : word <+: text) (spelling : IsSpelling word) : word <+: front := by
  rcases begins with ⟨behind, same⟩
  rcases spelling with ⟨other, spelled⟩
  rcases exists_scan_of_spelled spelled behind with ⟨taken, left, again, further⟩
  rw [same, scanned] at again
  cases again
  rcases further with ⟨more, rfl⟩
  rw [parts, ← List.append_assoc] at same
  exact ⟨more, List.append_cancel_right same⟩

/-- Where the scanner takes nothing, the text begins with no numeral. -/
theorem not_isSpelling_of_scan {text word : List Char} (missed : scan text = none)
    (begins : word <+: text) : ¬ IsSpelling word := by
  rintro ⟨numeral, spelled⟩
  rcases begins with ⟨behind, rfl⟩
  rcases exists_scan_of_spelled spelled behind with ⟨taken, left, scanned, _⟩
  rw [missed] at scanned
  cases scanned

/-- If a text begins with a numeral, the lenient reading takes the longest one.  It has the value
that the strict reading gives it, which never refuses it, and which is nearest to what it spells.
A text that begins with no numeral is left whole, for zero. -/
theorem numberPrefix_takes_longest (text : List Char) :
    (∃ (numeral : Numeral) (front rest : List Char) (value : Float),
      text = front ++ rest ∧ numeral.SpelledBy front ∧
      (∀ word, word <+: text → IsSpelling word → word <+: front) ∧
      number? front = some value ∧ numeral.Denotes value ∧
      numberPrefix text = (value, rest)) ∨
    ((∀ word, word <+: text → ¬ IsSpelling word) ∧ numberPrefix text = (0.0, text)) := by
  rw [numberPrefix]
  cases scanned : scan text with
  | some found =>
      rcases exists_spelled_of_scan scanned with ⟨front, spelled, parts⟩
      exact .inl ⟨found.1, front, found.2, found.1.value, parts, spelled,
        fun word => prefix_of_scan scanned parts, number?_of_spelled spelled,
        denotes_of_spelled spelled, rfl⟩
  | none => exact .inr ⟨fun word => not_isSpelling_of_scan scanned, rfl⟩

example : scan "5.e+".toList = some (⟨false, ['5'], [], 0⟩, "e+".toList) := by decide

end Numeral
end Number
end EffectHost

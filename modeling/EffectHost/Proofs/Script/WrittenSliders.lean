import EffectHost.Proofs.Number.Spelled
import EffectHost.Proofs.Script.Declarations
import EffectHost.Proofs.Text.Padded

/-!
# Sliders come back from their lines

A slider line has optional parts, and there may be blanks between them.  However it is written,
each part is found where it is: the name in front of the first equals sign, the numbers and the
choices between the first brackets, and the description behind them.
-/

namespace EffectHost

open Text Number

/-- Where a slider takes its value from. -/
inductive SliderForm where
  /-- A range, with an increment and names for the values if there are some. -/
  | range (default min max : Numeral) (inc? : Option (Numeral × Option (List (List Char))))
  /-- The files of a folder. -/
  | path (folder : List Char) (default : Numeral)

/-- What a slider line tells. -/
structure WrittenSlider where
  slot : Fin sliderSlots
  name? : Option (List Char)
  form : SliderForm
  isVisible : Bool
  description : List Char

namespace WrittenSlider

/-! ## Ways to write a slider -/

/-- A letter or an underscore, and then letters, digits, underscores and points. -/
def IsName (name : List Char) : Prop :=
  ∃ first others, name = first :: others ∧ (isLetter first || first == '_') = true ∧
    ∀ c ∈ others, Slider.isNamePart c = true

/-- The name in front of its equals sign. -/
inductive NameText : Option (List Char) → List Char → Prop
  | absent : NameText none []
  | named {name behind : List Char} (isName : IsName name) (blanks : Blanks behind) :
      NameText (some name) (name ++ '=' :: behind)

/-- A numeral between blanks. -/
def NumeralField (numeral : Numeral) (field : List Char) : Prop :=
  ∃ spelling, numeral.SpelledBy spelling ∧ Padded spelling field

/-- A trimmed text without the marks that end it. -/
def IsChoice (name : List Char) : Prop :=
  trim name = name ∧ ∀ mark ∈ [',', '{', '}', '>'], mark ∉ name

/-- The choices between their braces. -/
inductive ChoicesText : Option (List (List Char)) → List Char → Prop
  | absent : ChoicesText none []
  | braced {names fields : List (List Char)} (begun : names ≠ [])
      (each : ∀ name ∈ names, IsChoice name) (padded : List.Forall₂ Padded names fields)
      {behind : List Char} (blanks : Blanks behind) :
      ChoicesText (some names) ('{' :: (List.intercalate [','] fields ++ '}' :: behind))

/-- The numbers of a range and its choices. -/
inductive RangeText (numerals : List Numeral) (names? : Option (List (List Char))) :
    List Char → Prop
  | intro {fields : List (List Char)} (numbers : List.Forall₂ NumeralField numerals fields)
      {choices : List Char} (braced : ChoicesText names? choices) :
      RangeText numerals names? (List.intercalate [','] fields ++ choices)

/-- What stands in front of the description. -/
inductive FormText : SliderForm → List Char → Prop
  | range {default min max : Numeral} {inc? : Option (Numeral × Option (List (List Char)))}
      {number between fields : List Char} (spelled : default.SpelledBy number)
      (blanks : Blanks between)
      (ranged : RangeText (min :: max :: (inc?.map Prod.fst).toList) (inc?.bind Prod.snd) fields) :
      FormText (.range default min max inc?) (number ++ (between ++ '<' :: (fields ++ ['>'])))
  | path {folder : List Char} {default : Numeral} {place number : List Char}
      (trimmed : trim folder = folder) (clear : ':' ∉ folder) (padded : Padded folder place)
      (numbered : NumeralField default number) :
      FormText (.path folder default) ('/' :: (place ++ ':' :: (number ++ [':'])))

/-- The description, with a minus in front if the slider is hidden. -/
inductive DescriptionText (description : List Char) : Bool → List Char → Prop
  | shown {text : List Char} (padded : Padded description text) :
      DescriptionText description true text
  | hidden {front text : List Char} (blanks : Blanks front) (padded : Padded description text) :
      DescriptionText description false (front ++ '-' :: text)

/-- The line declares the slider. -/
inductive WrittenAs (slider : WrittenSlider) : List Char → Prop
  | intro {front name form description : List Char} (blanks : Blanks front)
      (named : NameText slider.name? name) (formed : FormText slider.form form)
      (trimmed : trim slider.description = slider.description)
      (plain : slider.description.head? ≠ some '-')
      (described : DescriptionText slider.description slider.isVisible description) :
      WrittenAs slider ((Slider.standardName slider.slot).toList ++
        ':' :: (front ++ (name ++ (form ++ description))))

/-! ## What is read -/

/-- What is read has the values of the form. -/
def FormRead (read : Slider) : SliderForm → Prop
  | .range default min max inc? =>
    default.Denotes read.default ∧ min.Denotes read.min ∧ max.Denotes read.max ∧
      (match inc? with
        | some (inc, _) => inc.Denotes read.inc
        | none => read.inc = 0.0) ∧
      read.isEnumeration = (inc?.bind Prod.snd).isSome ∧
      read.choices = ((inc?.bind Prod.snd).getD []).map String.ofList ∧ read.path = ""
  | .path folder default =>
    default.Denotes read.default ∧ read.min = 0.0 ∧ read.max = 0.0 ∧ read.inc = 1.0 ∧
      read.isEnumeration = true ∧ read.choices = [] ∧ read.path = String.ofList folder

/-- What is read is what the line tells. -/
structure ReadAs (slider : WrittenSlider) (read : Slider) : Prop where
  slot : read.slot = slider.slot
  declared : read.declared = true
  variableName : read.variableName =
    (slider.name?.map String.ofList).getD (Slider.standardName slider.slot)
  form : FormRead read slider.form
  initiallyVisible : read.initiallyVisible = slider.isVisible
  description : read.description = String.ofList slider.description

/-! ## Slots and names -/

theorem splitLine?_standardName (slot : Fin sliderSlots) (text : List Char) :
    Slider.splitLine? ((Slider.standardName slot).toList ++ ':' :: text) = some (slot, text) := by
  rw [Slider.splitLine?_eq_some_iff]
  refine ⟨Nat.toDigits 10 (slot + 1), Nat.toDigits_ne_nil,
    fun _ member => Nat.isDigit_of_mem_toDigits (by decide) (by decide) member,
    digitsValue_toDigits _, ?_⟩
  rw [Slider.standardName, String.toList_append, Nat.toString_eq_repr, Nat.toList_repr]

theorem isBlank_of_isLetter {c : Char} (letter : (isLetter c || c == '_') = true) :
    isBlank c = false := by
  have range : 65 ≤ c.toNat ∧ c.toNat ≤ 122 := by
    simp only [isLetter, Bool.or_eq_true, Bool.and_eq_true, decide_eq_true_eq, Char.le_def,
      UInt32.le_iff_toNat_le, beq_iff_eq] at letter
    rcases letter with (⟨low, high⟩ | ⟨low, high⟩) | rfl
    · exact ⟨le_trans (by decide) low, high⟩
    · exact ⟨low, le_trans high (by decide)⟩
    · decide
  simp only [isBlank, Bool.or_eq_false_iff, Bool.and_eq_false_iff, decide_eq_false_iff_not,
    beq_eq_false_iff_ne]
  omega

theorem splitName?_named {name : List Char} (isName : IsName name) (behind : List Char) :
    Slider.splitName? (name ++ '=' :: behind) = some (name, behind) := by
  rcases isName with ⟨first, others, rfl, letter, parts⟩
  have all : ∀ c ∈ first :: others, Slider.isNamePart c = true := by
    refine List.forall_mem_cons.mpr ⟨?_, parts⟩
    rw [Bool.or_eq_true] at letter
    rw [Slider.isNamePart]
    rcases letter with letter | underscore
    · rw [letter]
      rfl
    · rw [underscore, Bool.or_true]
      rfl
  have stops : ∀ c ∈ ('=' :: behind).head?, Slider.isNamePart c = false := by
    rintro c ⟨⟩
    decide
  rcases span_append all stops with ⟨taken, left⟩
  rw [List.cons_append] at taken left ⊢
  rw [Slider.splitName?, if_pos letter, taken, left]
  rfl

theorem splitName?_of_head {c : Char} (unnamed : (isLetter c || c == '_') = false)
    (rest : List Char) : Slider.splitName? (c :: rest) = none := by
  rw [Slider.splitName?, if_neg (ne_true_of_eq_false unnamed)]

/-- A declared slider of which only the variable is known. -/
def named (slot : Fin sliderSlots) (name? : Option (List Char)) : Slider :=
  { Slider.absent slot with
    declared := true
    initiallyVisible := true
    variableName := (name?.map String.ofList).getD (Slider.standardName slot) }

/-- The name and the blanks around it are taken off in front of the form. -/
theorem parse_named {slot : Fin sliderSlots} {name? : Option (List Char)}
    {front name : List Char} (blanks : Blanks front) (isNamed : NameText name? name) {c : Char}
    (sharp : isBlank c = false) (unnamed : (isLetter c || c == '_') = false)
    (rest : List Char) :
    Slider.parse slot (front ++ (name ++ c :: rest)) =
      match c :: rest with
      | '/' :: path => (named slot name?).withPath path
      | text => (named slot name?).withDefault text := by
  cases isNamed with
  | absent =>
      rw [List.nil_append, Slider.parse, trimStart_append blanks, trimStart_cons sharp]
      dsimp only
      rw [splitName?_of_head unnamed]
      rfl
  | @named name behind isName between =>
      rcases id isName with ⟨first, others, rfl, letter, _⟩
      have shape : first :: others ++ '=' :: behind ++ c :: rest =
          first :: (others ++ '=' :: (behind ++ c :: rest)) := by
        rw [List.append_assoc]
        rfl
      rw [shape, Slider.parse, trimStart_append blanks,
        trimStart_cons (isBlank_of_isLetter letter), ← List.cons_append]
      dsimp only
      rw [splitName?_named isName]
      dsimp only
      rw [trimStart_append between, trimStart_cons sharp]
      rfl

/-! ## Descriptions -/

/-- Text behind a minus is the description of a hidden slider, any other text that of a visible
one. -/
theorem withDescription_text {description text : List Char} {isVisible : Bool} {read : Slider}
    (visible : read.initiallyVisible = true) (trimmed : trim description = description)
    (plain : description.head? ≠ some '-')
    (described : DescriptionText description isVisible text) :
    read.withDescription text =
      { read with initiallyVisible := isVisible, description := String.ofList description } := by
  cases described with
  | shown padded =>
      rw [Slider.withDescription, padded.trim_eq, trimmed, ← visible]
      split
      · exact absurd rfl plain
      · rfl
  | hidden blanks padded =>
      have behind := (trim_trimEnd _).trans (padded.trim_eq.trans trimmed)
      rw [Slider.withDescription, trim_marked blanks (by decide)]
      exact congrArg (fun text => { read with
        initiallyVisible := false, description := String.ofList text }) behind

/-! ## Numbers and choices -/

/-- A mark that no numeral has does not stand in the field of one. -/
theorem NumeralField.not_mem {numeral : Numeral} {field : List Char}
    (isField : NumeralField numeral field) {mark : Char} (sharp : isBlank mark = false)
    (other : mark ∉ Numeral.marks) : mark ∉ field := by
  rcases isField with ⟨spelling, spelled, padded⟩
  intro member
  exact other (Numeral.mem_marks_of_spelled spelled mark (padded.mem_inner sharp member))

theorem isBlank_of_mem_marks {c : Char} (member : c ∈ Numeral.marks) : isBlank c = false := by
  have each : ∀ c ∈ Numeral.marks, isBlank c = false := List.all_iff_forall_prop.mp (by decide)
  exact each c member

/-- The numeral of a field is read. -/
theorem NumeralField.numberPrefix_trim {numeral : Numeral} {field : List Char}
    (isField : NumeralField numeral field) : trim field ≠ [] ∧
      numeral.Denotes (numberPrefix (trim field)).1 := by
  rcases isField with ⟨spelling, spelled, padded⟩
  have sharp : trim spelling = spelling := trim_of_sharp fun c member =>
    isBlank_of_mem_marks (Numeral.mem_marks_of_spelled spelled c member)
  rw [padded.trim_eq, sharp]
  constructor
  · rcases Numeral.exists_head_of_spelled spelled with ⟨c, rest, rfl, _⟩
    exact List.cons_ne_nil c rest
  · have stops : Numeral.Stops [] := nofun
    rcases Numeral.exists_numberPrefix_append spelled stops with ⟨value, read, denoted⟩
    rw [List.append_nil] at read
    rwa [read]

section Numbers

variable {numerals : List Numeral} {fields : List (List Char)}

theorem exists_numeral_of_mem (numbers : List.Forall₂ NumeralField numerals fields)
    {field : List Char} (member : field ∈ fields) : ∃ numeral, NumeralField numeral field := by
  induction numbers with
  | nil => cases member
  | cons first _ ih =>
      rcases List.mem_cons.mp member with rfl | later
      · exact ⟨_, first⟩
      · exact ih later

/-- A mark that no numeral has does not stand among numbers. -/
theorem not_mem_numbers (numbers : List.Forall₂ NumeralField numerals fields) {mark : Char}
    (sharp : isBlank mark = false) (other : mark ∉ Numeral.marks) (noComma : mark ∉ [',']) :
    mark ∉ List.intercalate [','] fields := by
  apply not_mem_intercalate noComma
  intro field listed
  rcases exists_numeral_of_mem numbers listed with ⟨numeral, isField⟩
  exact isField.not_mem sharp other

/-- The numbers of a range are read in order. -/
theorem denotes_rangeNumbers (numbers : List.Forall₂ NumeralField numerals fields)
    (begun : fields ≠ []) : List.Forall₂ Numeral.Denotes numerals
      (Slider.rangeNumbers (List.intercalate [','] fields)) := by
  have apart : ∀ field ∈ fields, ',' ∉ field := by
    intro field listed
    rcases exists_numeral_of_mem numbers listed with ⟨numeral, isField⟩
    exact isField.not_mem (by decide) (by decide +kernel)
  rw [Slider.rangeNumbers, List.splitOn_intercalate ',' apart begun]
  clear apart begun
  induction numbers with
  | nil => exact .nil
  | cons first _ ih =>
      rcases first.numberPrefix_trim with ⟨some, denoted⟩
      rw [List.map_cons, List.filterMap_cons, if_neg (by simpa using some)]
      exact .cons denoted ih

end Numbers

section Choices

variable {names places : List (List Char)}

theorem not_mem_of_mem_places (padded : List.Forall₂ Padded names places)
    (each : ∀ name ∈ names, IsChoice name) {mark : Char} (isMark : mark ∈ [',', '{', '}', '>']) :
    ∀ place ∈ places, mark ∉ place := by
  have sharp : ∀ mark ∈ [',', '{', '}', '>'], isBlank mark = false :=
    List.all_iff_forall_prop.mp (by decide)
  induction padded with
  | nil => nofun
  | cons first _ ih =>
      rw [List.forall_mem_cons] at each ⊢
      refine ⟨fun member => ?_, ih each.2⟩
      exact each.1.2 mark isMark (first.mem_inner (sharp mark isMark) member)

theorem map_trim_places (padded : List.Forall₂ Padded names places)
    (each : ∀ name ∈ names, IsChoice name) :
    places.map (fun place => String.ofList (trim place)) = names.map String.ofList := by
  induction padded with
  | nil => rfl
  | cons first _ ih =>
      rw [List.forall_mem_cons] at each
      rw [List.map_cons, List.map_cons, first.trim_eq, each.1.1, ih each.2]

theorem not_mem_places (padded : List.Forall₂ Padded names places)
    (each : ∀ name ∈ names, IsChoice name) {mark : Char} (isMark : mark ∈ ['{', '}', '>']) :
    mark ∉ List.intercalate [','] places := by
  have noComma : ∀ mark ∈ ['{', '}', '>'], mark ∉ [','] := List.all_iff_forall_prop.mp (by decide)
  exact not_mem_intercalate (noComma mark isMark)
    (not_mem_of_mem_places padded each (List.mem_cons_of_mem _ isMark))

/-- The names between the braces are read in order. -/
theorem rangeNames?_braced (begun : names ≠ []) (padded : List.Forall₂ Padded names places)
    (each : ∀ name ∈ names, IsChoice name) {numbers : List Char} (clear : '{' ∉ numbers)
    (behind : List Char) :
    Slider.rangeNames? (numbers ++ '{' :: (List.intercalate [','] places ++ '}' :: behind)) =
      some (names.map String.ofList) := by
  have someNames : places ≠ [] := by
    rintro rfl
    cases padded
    exact begun rfl
  have unclosed : '}' ∉ List.intercalate [','] places := not_mem_places padded each (by decide)
  rw [Slider.rangeNames?, splitFirst?_append clear, Option.map_some]
  dsimp only
  rw [takeWhile_bne_append unclosed, List.splitOn_intercalate ','
    (not_mem_of_mem_places padded each (by decide)) someNames, map_trim_places padded each]

end Choices

/-- The numbers and the choices of a range are read. -/
theorem withRange_text {numerals : List Numeral} {names? : Option (List (List Char))}
    {text : List Char} (ranged : RangeText numerals names? text) (begun : numerals ≠ [])
    (slot : Fin sliderSlots) (name? : Option (List Char)) (value : Float) :
    ∃ values, List.Forall₂ Numeral.Denotes numerals values ∧
      { named slot name? with default := value }.withRange text = { named slot name? with
        default := value
        min := values[0]?.getD 0.0
        max := values[1]?.getD 1.0
        inc := values[2]?.getD 0.0
        isEnumeration := names?.isSome
        choices := (names?.getD []).map String.ofList } := by
  cases ranged with
  | @intro fields numbers choices braced =>
      have someFields : fields ≠ [] := by
        rintro rfl
        cases numbers
        exact begun rfl
      have clear : '{' ∉ List.intercalate [','] fields :=
        not_mem_numbers numbers (by decide) (by decide +kernel) (by decide)
      refine ⟨_, denotes_rangeNumbers numbers someFields, ?_⟩
      cases braced with
      | absent =>
          rw [List.append_nil, Slider.withRange,
            List.takeWhile_eq_self_iff.mpr (bne_of_not_mem clear), Slider.rangeNames?,
            splitFirst?_of_not_mem clear]
          rfl
      | @braced names places begun each padded behind blanks =>
          rw [Slider.withRange, takeWhile_bne_append clear,
            rangeNames?_braced begun padded each clear]
          rfl

theorem not_mem_range {numerals : List Numeral} {names? : Option (List (List Char))}
    {text : List Char} (ranged : RangeText numerals names? text) : '>' ∉ text := by
  cases ranged with
  | intro numbers braced =>
      rw [List.mem_append, not_or]
      refine ⟨not_mem_numbers numbers (by decide) (by decide +kernel) (by decide), ?_⟩
      cases braced with
      | absent => exact List.not_mem_nil
      | braced begun each padded blanks =>
          rw [List.mem_cons, List.mem_append, List.mem_cons, not_or, not_or, not_or]
          refine ⟨by decide, not_mem_places padded each (by decide), by decide, ?_⟩
          exact fun member => absurd (blanks _ member) (by decide)

/-! ## Forms -/

/-- A blank does not go on with a numeral, and neither does a bracket. -/
theorem stops_of_blanks {between : List Char} (blanks : Blanks between) (rest : List Char) :
    Numeral.Stops (between ++ '<' :: rest) := by
  cases between with
  | nil =>
      rintro c ⟨⟩
      exact ⟨rfl, by decide, by decide, by decide⟩
  | cons blank others =>
      rintro c ⟨⟩
      have isBlank := blanks blank List.mem_cons_self
      have noDigit : isDigit blank = false := by
        rw [Bool.eq_false_iff]
        intro digit
        have mark := List.mem_append_left ['e', 'E'] (Numeral.mem_leadingMarks_of_isDigit digit)
        rw [isBlank_of_mem_marks mark] at isBlank
        cases isBlank
      refine ⟨noDigit, ?_, ?_, ?_⟩ <;> rintro rfl <;> exact absurd isBlank (by decide)

theorem withDefault_text {default : Numeral} {numerals : List Numeral}
    {names? : Option (List (List Char))} {number between fields : List Char}
    (spelled : default.SpelledBy number) (blanks : Blanks between)
    (ranged : RangeText numerals names? fields) (slot : Fin sliderSlots)
    (name? : Option (List Char)) (behind : List Char) :
    ∃ value, default.Denotes value ∧
      (named slot name?).withDefault (number ++ (between ++ '<' :: (fields ++ '>' :: behind))) =
        ({ named slot name? with default := value }.withRange fields).withDescription behind := by
  rcases Numeral.exists_numberPrefix_append spelled
    (stops_of_blanks blanks (fields ++ '>' :: behind)) with ⟨value, read, denoted⟩
  have bracket : isBlank '<' = false := by decide
  have clear := not_mem_range ranged
  refine ⟨value, denoted, ?_⟩
  rw [Slider.withDefault, read, trimStart_append blanks, trimStart_cons bracket]
  change ({ named slot name? with default := value }.withRange
    ((fields ++ '>' :: behind).takeWhile (· != '>'))).withDescription
      (((splitFirst? '>' (fields ++ '>' :: behind)).map Prod.snd).getD []) = _
  rw [takeWhile_bne_append clear, splitFirst?_append clear]
  rfl

theorem withPath_text {folder place number : List Char} {default : Numeral}
    (trimmed : trim folder = folder) (clear : ':' ∉ folder) (padded : Padded folder place)
    (numbered : NumeralField default number) (slot : Fin sliderSlots)
    (name? : Option (List Char)) (behind : List Char) :
    ∃ value, default.Denotes value ∧
      (named slot name?).withPath (place ++ ':' :: (number ++ ':' :: behind)) =
        { named slot name? with
          path := String.ofList folder
          default := value
          inc := 1.0
          min := 0.0
          max := 0.0
          isEnumeration := true }.withDescription behind := by
  have clearPlace : ':' ∉ place := fun member => clear (padded.mem_inner (by decide) member)
  have clearNumber : ':' ∉ number := numbered.not_mem (by decide) (by decide +kernel)
  refine ⟨_, numbered.numberPrefix_trim.2, ?_⟩
  rw [Slider.withPath, splitFirst?_append clearPlace]
  dsimp only [Option.map_some, Option.getD_some]
  rw [splitFirst?_append clearNumber, takeWhile_bne_append clearPlace,
    takeWhile_bne_append clearNumber, padded.trim_eq, trimmed]
  rfl

/-! ## Lines -/

theorem parse_slash {slot : Fin sliderSlots} {name? : Option (List Char)}
    {front name : List Char} (blanks : Blanks front) (isNamed : NameText name? name)
    (path : List Char) :
    Slider.parse slot (front ++ (name ++ '/' :: path)) = (named slot name?).withPath path :=
  parse_named blanks isNamed (by decide) (by decide) path

/-- A numeral begins neither a name nor a path. -/
theorem parse_numeral {slot : Fin sliderSlots} {name? : Option (List Char)}
    {front name number : List Char} (blanks : Blanks front) (isNamed : NameText name? name)
    {numeral : Numeral} (spelled : numeral.SpelledBy number) (behind : List Char) :
    Slider.parse slot (front ++ (name ++ (number ++ behind))) =
      (named slot name?).withDefault (number ++ behind) := by
  rcases Numeral.exists_head_of_spelled spelled with ⟨c, rest, rfl, leading⟩
  have each : ∀ c ∈ Numeral.leadingMarks, (isLetter c || c == '_') = false :=
    List.all_iff_forall_prop.mp (by decide)
  have sharp : isBlank c = false := isBlank_of_mem_marks (List.mem_append_left _ leading)
  rw [List.cons_append, parse_named blanks isNamed sharp (each c leading)]
  split
  · next slash =>
      cases slash
      exact absurd leading (by decide +kernel)
  · rfl

/-- Whatever parts it has, and whatever blanks stand between them, a slider line is read as what it
tells. -/
theorem written_sliders_are_read {slider : WrittenSlider} {line : List Char}
    (written : slider.WrittenAs line) :
    ∃ text, Slider.splitLine? line = some (slider.slot, text) ∧
      slider.ReadAs (Slider.parse slider.slot text) := by
  rcases slider with ⟨slot, name?, form, isVisible, description⟩
  cases written with
  | @intro front name formText text blanks isNamed formed trimmed plain described =>
      refine ⟨_, splitLine?_standardName slot _, ?_⟩
      dsimp only at isNamed formed trimmed plain described ⊢
      cases formed with
      | @range default min max inc? number between fields spelled gap ranged =>
          rcases withDefault_text spelled gap ranged slot name? text with ⟨value, denoted, read⟩
          rcases withRange_text ranged (List.cons_ne_nil _ _) slot name? value with
            ⟨values, numbers, readRange⟩
          have shape : number ++ (between ++ '<' :: (fields ++ ['>'])) ++ text =
              number ++ (between ++ '<' :: (fields ++ '>' :: text)) := by
            simp
          rw [shape, parse_numeral blanks isNamed spelled, read, readRange,
            withDescription_text rfl trimmed plain described]
          refine ⟨rfl, rfl, rfl, ?_, rfl, rfl⟩
          rcases numbers with _ | ⟨readMin, _ | ⟨readMax, others⟩⟩
          cases inc? with
          | none =>
              cases others
              exact ⟨denoted, readMin, readMax, rfl, rfl, rfl, rfl⟩
          | some inc =>
              rcases others with _ | ⟨readInc, nothing⟩
              cases nothing
              exact ⟨denoted, readMin, readMax, readInc, rfl, rfl, rfl⟩
      | @path folder default place number trimmedFolder clear padded numbered =>
          rcases withPath_text trimmedFolder clear padded numbered slot name? text with
            ⟨value, denoted, read⟩
          have shape : '/' :: (place ++ ':' :: (number ++ [':'])) ++ text =
              '/' :: (place ++ ':' :: (number ++ ':' :: text)) := by
            simp
          rw [shape, parse_slash blanks isNamed, read,
            withDescription_text rfl trimmed plain described]
          exact ⟨rfl, rfl, rfl, ⟨denoted, rfl, rfl, rfl, rfl, rfl, rfl⟩, rfl, rfl⟩

/-- A hidden slider with a variable of its own, numerals of several kinds, two choices and blanks
wherever there may be some. -/
theorem written_sliders_are_read_spaced :
    let slider : WrittenSlider :=
      { slot := 6, name? := some "freq".toList
        form := .range ⟨true, ['1'], ['5'], 1⟩ ⟨false, ['0'], [], 0⟩ ⟨false, ['2', '0'], [], 0⟩
          (some (⟨false, [], ['5'], 0⟩, some ["Low".toList, "High".toList]))
        isVisible := false, description := "Cutoff".toList }
    let line := "slider7: freq= -1.5e1 <0 , +20,.5 \x7b Low ,High \x7d > - Cutoff".toList
    slider.WrittenAs line ∧ ∃ text, Slider.splitLine? line = some (6, text) ∧
      slider.ReadAs (Slider.parse 6 text) := by
  intro slider line
  have none : Blanks [] := nofun
  have space : Blanks [' '] := List.forall_mem_singleton.mpr rfl
  have written : slider.WrittenAs line := by
    have one : ∀ c ∈ ['1'], isDigit c = true := List.forall_mem_singleton.mpr rfl
    have zero : ∀ c ∈ ['0'], isDigit c = true := List.forall_mem_singleton.mpr rfl
    have five : ∀ c ∈ ['5'], isDigit c = true := List.forall_mem_singleton.mpr rfl
    have twenty : ∀ c ∈ ['2', '0'], isDigit c = true := List.forall_mem_cons.mpr ⟨rfl, zero⟩
    have default : Numeral.SpelledBy ⟨true, ['1'], ['5'], 1⟩ ['-', '1', '.', '5', 'e', '1'] :=
      @Numeral.SpelledBy.intro ⟨true, ['1'], ['5'], 1⟩ _ _ _ .minus one (.pointed five)
        (List.cons_ne_nil _ _) (.marked (.inl rfl) .absent (List.cons_ne_nil _ _) one)
    have min : NumeralField ⟨false, ['0'], [], 0⟩ ['0', ' '] :=
      ⟨_, @Numeral.SpelledBy.intro ⟨false, ['0'], [], 0⟩ _ _ _ .absent zero .absent
        (List.cons_ne_nil _ _) .absent, [], [' '], none, space, rfl⟩
    have max : NumeralField ⟨false, ['2', '0'], [], 0⟩ [' ', '+', '2', '0'] :=
      ⟨_, @Numeral.SpelledBy.intro ⟨false, ['2', '0'], [], 0⟩ _ _ _ .plus twenty .absent
        (List.cons_ne_nil _ _) .absent, [' '], [], space, none, rfl⟩
    have inc : NumeralField ⟨false, [], ['5'], 0⟩ ['.', '5', ' '] :=
      ⟨_, @Numeral.SpelledBy.intro ⟨false, [], ['5'], 0⟩ _ _ _ .absent nofun (.pointed five)
        (List.cons_ne_nil _ _) .absent, [], [' '], none, space, rfl⟩
    have choices : ∀ name ∈ ["Low".toList, "High".toList], IsChoice name := by
      refine List.forall_mem_cons.mpr ⟨⟨by decide, ?_⟩,
        List.forall_mem_singleton.mpr ⟨by decide, ?_⟩⟩
      · exact List.all_iff_forall_prop.mp (by decide)
      · exact List.all_iff_forall_prop.mp (by decide)
    have padded : List.Forall₂ Padded ["Low".toList, "High".toList]
        [" Low ".toList, "High ".toList] :=
      .cons ⟨[' '], [' '], space, space, rfl⟩ (.cons ⟨[], [' '], none, space, rfl⟩ .nil)
    have ranged := RangeText.intro (.cons min (.cons max (.cons inc .nil)))
      (.braced (List.cons_ne_nil _ _) choices padded space)
    have shape : line = (Slider.standardName slider.slot).toList ++ ':' :: ([' '] ++
        ("freq".toList ++ '=' :: [' '] ++ (['-', '1', '.', '5', 'e', '1'] ++ ([' '] ++ '<' ::
          (List.intercalate [','] [['0', ' '], [' ', '+', '2', '0'], ['.', '5', ' ']] ++
            '{' :: (List.intercalate [','] [" Low ".toList, "High ".toList] ++ '}' :: [' ']) ++
              ['>'])) ++ ([' '] ++ '-' :: " Cutoff".toList)))) := by
      decide +kernel
    have isName : IsName "freq".toList :=
      ⟨'f', "req".toList, rfl, rfl, List.all_iff_forall_prop.mp (by decide)⟩
    rw [shape]
    exact .intro space (.named isName space) (.range default space ranged) (by decide)
      (by decide) (.hidden space ⟨[' '], [], space, none, by decide⟩)
  exact ⟨written, written_sliders_are_read written⟩

end WrittenSlider
end EffectHost

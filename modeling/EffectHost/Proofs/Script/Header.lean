import EffectHost.Proofs.Script.Declarations
import EffectHost.Proofs.Script.Sections
import EffectHost.Proofs.Text.Padded
import Mathlib

/-!
# What a header says

A header is read line by line, each line changing what the lines before it have left.  It can be
told at once, too: each field is told from the lines of its own kind, in one of a few ways.  The
last line counts, or the first one, or all of them, or those that are in turn.

So it does not matter how lines of different kinds are mixed.
-/

namespace EffectHost

open Text

/-! ## Folds seen in one part -/

/-- A part of a state that only some items of a row change is told from these items. -/
theorem foldl_part {σ ι β γ : Type} {act : σ → ι → σ} (part : σ → β) (own? : ι → Option γ)
    (step : β → γ → β)
    (steps : ∀ state item, part (act state item) =
      match own? item with
      | some value => step (part state) value
      | none => part state) (items : List ι) (start : σ) :
    part (items.foldl act start) = (items.filterMap own?).foldl step (part start) := by
  induction items generalizing start with
  | nil => rfl
  | cons item others ih =>
      rw [List.foldl_cons, ih, steps]
      cases own : own? item with
      | none => rw [List.filterMap_cons_none own]
      | some value => rw [List.filterMap_cons_some own, List.foldl_cons]

/-- Items that stand for nothing are passed over. -/
theorem foldl_filterMap_eq_elim {σ ι α : Type} (value? : ι → Option α) (act : σ → α → σ)
    (items : List ι) (start : σ) :
    (items.filterMap value?).foldl act start =
      items.foldl (fun state item => (value? item).elim state (act state)) start := by
  rw [List.foldl_filterMap]
  congr
  funext state item
  cases value? item <;> rfl

/-- Where each value takes the place of the one before it, the last one is left. -/
theorem foldl_last {α β : Type} (value : α → β) (items : List α) (start : β) :
    items.foldl (fun _ item => value item) start = (items.getLast?.map value).getD start := by
  induction items using List.reverseRecOn with
  | nil => rfl
  | append_singleton before last _ => rw [List.foldl_concat, List.getLast?_concat]; rfl

/-! ## The declarative reading -/

namespace Header

section Reading

/-- What stands behind a leading word, in each of the lines that begin with it. -/
def said (lead : String) (lines : List (List Char)) : List (List Char) :=
  lines.filterMap (afterPrefix? lead.toList)

/-- A value without the blanks around it. -/
def asText (value : List Char) : String :=
  String.ofList (trim value)

/-- The words of a value. -/
def asWords (value : List Char) : List String :=
  (words value).map String.ofList

/-- The name takes back the pins before it. -/
def saysNone (name : String) : Bool :=
  sameAscii name "none"

/-- The pins that some names declare: those behind the last `none`, unless nothing is behind it,
and no more than there can be. -/
def pinsOf (names : List String) : Pins :=
  match names.getLast? with
  | none => .unspecified
  | some last =>
    if saysNone last then .none
    else .named ((names.rtakeWhile fun name => !saysNone name).take maxPins)

/-- The name behind the word `import`, from which a blank parts it. -/
def importedName? (value : List Char) : Option String :=
  if (value.head?.map isBlank).getD false && !(trim value).isEmpty then some (asText value)
  else none

/-- A number and the name behind the comma. -/
def numberedName? (value : List Char) : Option (Nat × String) := do
  let parts ← splitFirst? ',' value
  let index ← boundedNat? (Number.twoTo 64) (trim parts.1)
  some (index, asText parts.2)

/-- The names that are in turn: each has as its number how many were taken before it. -/
def inTurn (taken : Nat) : List (Nat × String) → List String
  | [] => []
  | (index, name) :: others =>
    if index = taken then name :: inTurn (taken + 1) others else inTurn taken others

/-- What an option token is about. -/
def optionKey (token : List Char) : String :=
  String.ofList (token.takeWhile (· != '='))

/-- What stands behind the equals sign of an option token. -/
def optionValue? (token : List Char) : Option (List Char) :=
  (splitFirst? '=' token).map Prod.snd

variable (lines : List (List Char))

/-- The tokens of all option lines. -/
def optionTokens : List (List Char) :=
  (said "options:" lines).flatMap words

/-- The value of the last option token with a key, if there are such tokens and it has one. -/
def lastOption? (key : String) : Option (List Char) :=
  ((optionTokens lines).filter (optionKey · == key)).getLast?.bind optionValue?

/-- Some option token has the key. -/
def hasOption (key : String) : Bool :=
  (optionTokens lines).any (optionKey · == key)

/-- The options of a script. -/
def optionsOf : Options where
  sharedMemory := (lastOption? lines "gmem").bind fun value =>
    if value.isEmpty then none else some (String.ofList value)
  memorySlots := ((lastOption? lines "maxmem").bind Number.number?).map Number.toNatural
  wantsKeyboard := hasOption lines "want_all_kb"
  noMeter := hasOption lines "no_meter"

/-- What a line says of the slider in a slot. -/
def sliderText? (slot : Fin sliderSlots) (line : List Char) : Option (List Char) :=
  (Slider.splitLine? line).bind fun parts => if parts.1 = slot then some parts.2 else none

/-- What the lines of a slider say, in order. -/
def sliderTexts (slot : Fin sliderSlots) : List (List Char) :=
  lines.filterMap (sliderText? slot)

/-- The slider in a slot. -/
def sliderOf (slot : Fin sliderSlots) : Slider :=
  match (sliderTexts lines slot).getLast? with
  | some text => Slider.parse slot text
  | none => Slider.absent slot

/-- The author: what the last line of the kind says, or else the first comment. -/
def authorOf : String :=
  let own := ((said "author:" lines).getLast?.map asText).getD ""
  if own = "" then ((said "//author:" lines).head?.map asText).getD "" else own

/-- The tags: what the last line of the kind says, or else the first comment. -/
def tagsOf : List String :=
  let own := ((said "tags:" lines).getLast?.map asWords).getD []
  if own = [] then ((said "//tags:" lines).head?.map asWords).getD [] else own

/-- What trimmed lines say as a header. -/
def reading : Header where
  description := ((said "desc:" lines).getLast?.map asText).getD ""
  author := authorOf lines
  tags := tagsOf lines
  inPins := pinsOf ((said "in_pin:" lines).map asText)
  outPins := pinsOf ((said "out_pin:" lines).map asText)
  imports := (said "import" lines).filterMap importedName?
  dataFiles := inTurn 0 ((said "filename:" lines).filterMap numberedName?)
  options := optionsOf lines
  sliders := Vector.ofFn (sliderOf lines)

end Reading

end Header

/-! ## The fields of a header -/

namespace Header

section Fields

variable {β : Type} {lines : List (List Char)} {lead : String}
  {read : List Char → Option Declaration} {field : Header → β}

/-- Take one line. -/
def takeLine (header : Header) (line : List Char) : Header :=
  (Declaration.ofLine? line).elim header header.declare

/-- What the declarations of some lines make of a header. -/
def declared (lines : List (List Char)) : Header :=
  (lines.filterMap Declaration.ofLine?).foldl declare {}

theorem declared_eq_foldl (lines : List (List Char)) : declared lines = lines.foldl takeLine {} :=
  foldl_filterMap_eq_elim Declaration.ofLine? declare lines {}

/-- A declaration changes the one field that it is about. -/
theorem declare_kept (header : Header) (declaration : Declaration) :
    let next := header.declare declaration
    (declaration.lead ≠ "desc:" → next.description = header.description) ∧
    (declaration.lead ≠ "author:" → next.author = header.author) ∧
    (declaration.lead ≠ "tags:" → next.tags = header.tags) ∧
    (declaration.lead ≠ "in_pin:" → next.inPins = header.inPins) ∧
    (declaration.lead ≠ "out_pin:" → next.outPins = header.outPins) ∧
    (declaration.lead ≠ "options:" → next.options = header.options) ∧
    (declaration.lead ≠ "import" → next.imports = header.imports) ∧
    (declaration.lead ≠ "filename:" → next.dataFiles = header.dataFiles) ∧
    (declaration.lead ≠ "slider" → next.sliders = header.sliders) := by
  cases declaration with
  | dataFile index name =>
      rw [declare]
      split <;> simp [Declaration.lead]
  | _ => simp [declare, Declaration.lead]

/-- A field is told from what stands behind its leading word, if only that word is about it. -/
theorem field_declared (step : β → List Char → β) (member : (lead, read) ∈ Declaration.readers)
    (kept : ∀ header (declaration : Declaration), declaration.lead ≠ lead →
      field (declare header declaration) = field header)
    (steps : ∀ header rest, field ((read rest).elim header header.declare) =
      step (field header) rest) :
    field (declared lines) = (said lead lines).foldl step (field {}) := by
  rw [declared_eq_foldl]
  apply foldl_part
  intro header line
  rw [takeLine]
  cases begins : afterPrefix? lead.toList line with
  | some rest => rw [Declaration.ofLine?_of_begins member begins, steps]
  | none =>
      cases declares : Declaration.ofLine? line with
      | none => rfl
      | some declaration =>
          apply kept
          rintro rfl
          rcases Declaration.begins_of_ofLine? declares with ⟨rest, begun⟩
          rw [begins] at begun
          cases begun

end Fields

section Values

variable (lines : List (List Char))

theorem description_declared :
    (declared lines).description = ((said "desc:" lines).getLast?.map asText).getD "" := by
  rw [field_declared (fun _ rest => asText rest) (List.mem_of_getElem? (i := 0) rfl)
    (fun header declaration => (declare_kept header declaration).1) fun _ _ => rfl]
  exact foldl_last asText _ _

theorem author_declared :
    (declared lines).author = ((said "author:" lines).getLast?.map asText).getD "" := by
  rw [field_declared (fun _ rest => asText rest) (List.mem_of_getElem? (i := 1) rfl)
    (fun header declaration => (declare_kept header declaration).2.1) fun _ _ => rfl]
  exact foldl_last asText _ _

theorem tags_declared :
    (declared lines).tags = ((said "tags:" lines).getLast?.map asWords).getD [] := by
  rw [field_declared (fun _ rest => asWords rest) (List.mem_of_getElem? (i := 2) rfl)
    (fun header declaration => (declare_kept header declaration).2.2.1) fun _ _ => rfl]
  exact foldl_last asWords _ _

/-- Before there are too many, pins are declared one by one. -/
theorem foldl_declare (names : List String) :
    names.foldl Pins.declare .unspecified =
      match names.getLast? with
      | none => .unspecified
      | some last =>
        if saysNone last then .none
        else .named (names.rtakeWhile fun name => !saysNone name) := by
  induction names using List.reverseRecOn with
  | nil => rfl
  | append_singleton before last ih =>
      rw [List.foldl_concat, ih, List.getLast?_concat, Pins.declare]
      dsimp only
      by_cases takesBack : saysNone last = true
      · rw [if_pos takesBack]
        exact if_pos takesBack
      · rw [if_neg takesBack, if_neg (show ¬ sameAscii last "none" = true from takesBack)]
        rw [List.rtakeWhile_concat_pos _ _ _ (by simpa using takesBack)]
        congr
        cases previous : before.getLast? with
        | none =>
            rw [List.getLast?_eq_none_iff.mp previous]
            rfl
        | some other =>
            dsimp only
            split
            · next takes =>
                rcases List.getLast?_eq_some_iff.mp previous with ⟨front, rfl⟩
                rw [List.rtakeWhile_concat_neg _ _ _ (by simpa using takes)]
                rfl
            · rfl

/-- Pins that are declared one by one. -/
theorem limit_foldl_declare (names : List String) :
    (names.foldl Pins.declare .unspecified).limit = pinsOf names := by
  rw [foldl_declare, pinsOf]
  cases names.getLast? with
  | none => rfl
  | some last =>
      dsimp only
      split <;> rfl

theorem inPins_declared :
    (declared lines).inPins.limit = pinsOf ((said "in_pin:" lines).map asText) := by
  have steps (header : Header) (rest : List Char) :
      ((some (Declaration.inPin (String.ofList (trim rest)))).elim header header.declare).inPins =
        header.inPins.declare (asText rest) := by
    rw [Option.elim_some, declare, asText]
  rw [← limit_foldl_declare, List.foldl_map]
  congr 1
  exact field_declared (fun pins rest => pins.declare (asText rest))
    (List.mem_of_getElem? (i := 3) rfl)
    (fun header declaration => (declare_kept header declaration).2.2.2.1) steps

theorem outPins_declared :
    (declared lines).outPins.limit = pinsOf ((said "out_pin:" lines).map asText) := by
  have steps (header : Header) (rest : List Char) :
      ((some (Declaration.outPin (String.ofList (trim rest)))).elim header header.declare).outPins =
        header.outPins.declare (asText rest) := by
    rw [Option.elim_some, declare, asText]
  rw [← limit_foldl_declare, List.foldl_map]
  congr 1
  exact field_declared (fun pins rest => pins.declare (asText rest))
    (List.mem_of_getElem? (i := 4) rfl)
    (fun header declaration => (declare_kept header declaration).2.2.2.2.1) steps

theorem imports_declared :
    (declared lines).imports = (said "import" lines).filterMap importedName? := by
  have steps (header : Header) (rest : List Char) :
      ((if (rest.head?.map isBlank).getD false && !(trim rest).isEmpty then
          some (Declaration.importFile (String.ofList (trim rest)))
        else none).elim header header.declare).imports =
      header.imports ++ (importedName? rest).toList := by
    rw [importedName?]
    split
    · rfl
    · exact (List.append_nil _).symm
  rw [field_declared (fun names rest => names ++ (importedName? rest).toList)
    (List.mem_of_getElem? (i := 6) rfl)
    (fun header declaration => (declare_kept header declaration).2.2.2.2.2.2.1) steps,
    List.foldl_append_eq_append, List.filterMap_eq_flatMap_toList, List.flatMap_def]
  rfl

/-- Take a name if it is in turn. -/
def takeInTurn (names : List String) (item : Nat × String) : List String :=
  if item.1 = names.length then names ++ [item.2] else names

theorem foldl_takeInTurn (items : List (Nat × String)) (names : List String) :
    items.foldl takeInTurn names = names ++ inTurn names.length items := by
  induction items generalizing names with
  | nil => exact (List.append_nil _).symm
  | cons item others ih =>
      rw [List.foldl_cons, ih, takeInTurn, inTurn]
      split
      · rw [List.length_append, List.append_assoc]
        rfl
      · rfl

theorem dataFile?_eq (rest : List Char) :
    Declaration.dataFile? rest =
      (numberedName? rest).map fun item => .dataFile item.1 item.2 := by
  rw [Declaration.dataFile?, numberedName?]
  cases splitFirst? ',' rest with
  | none => rfl
  | some parts =>
      change Option.bind (boundedNat? _ _) _ = Option.map _ (Option.bind (boundedNat? _ _) _)
      cases boundedNat? (Number.twoTo 64) (trim parts.1) <;> rfl

theorem declare_dataFile (header : Header) (index : Nat) (name : String) :
    (header.declare (.dataFile index name)).dataFiles =
      takeInTurn header.dataFiles (index, name) := by
  rw [declare, takeInTurn]
  by_cases turn : index = header.dataFiles.length
  · rw [if_pos (beq_iff_eq.mpr turn), if_pos turn]
  · rw [if_neg (mt beq_iff_eq.mp turn), if_neg turn]

theorem dataFiles_declared :
    (declared lines).dataFiles = inTurn 0 ((said "filename:" lines).filterMap numberedName?) := by
  have steps (header : Header) (rest : List Char) :
      ((Declaration.dataFile? rest).elim header header.declare).dataFiles =
        (numberedName? rest).elim header.dataFiles (takeInTurn header.dataFiles) := by
    rw [dataFile?_eq]
    cases numberedName? rest with
    | none => rfl
    | some item => exact declare_dataFile header item.1 item.2
  rw [field_declared (fun names rest => (numberedName? rest).elim names (takeInTurn names))
    (List.mem_of_getElem? (i := 7) rfl)
    (fun header declaration => (declare_kept header declaration).2.2.2.2.2.2.2.1) steps,
    ← foldl_filterMap_eq_elim, foldl_takeInTurn]
  rfl

/-- What one token does to the options. -/
theorem set_ofWord? (options : Options) (token : List Char) :
    let next := (HeaderOption.ofWord? token).elim options options.set
    next.sharedMemory = (if optionKey token = "gmem" then
      (optionValue? token).bind fun value =>
        if value.isEmpty then none else some (String.ofList value)
      else options.sharedMemory) ∧
    next.memorySlots = (if optionKey token = "maxmem" then
      ((optionValue? token).bind Number.number?).map Number.toNatural
      else options.memorySlots) ∧
    next.wantsKeyboard = (if optionKey token = "want_all_kb" then true
      else options.wantsKeyboard) ∧
    next.noMeter = (if optionKey token = "no_meter" then true else options.noMeter) := by
  have key : String.ofList (token.takeWhile (· != '=')) = optionKey token := rfl
  rw [HeaderOption.ofWord?]
  simp only [key, beq_iff_eq]
  generalize optionKey token = key
  by_cases gmem : key = "gmem"
  · subst gmem
    simp [Options.set, optionValue?]
  by_cases maxmem : key = "maxmem"
  · subst maxmem
    simp [Options.set, optionValue?]
  by_cases keyboard : key = "want_all_kb"
  · subst keyboard
    simp [Options.set]
  by_cases meter : key = "no_meter"
  · subst meter
    simp [Options.set]
  simp [gmem, maxmem, keyboard, meter]

/-- Take one option token. -/
def takeToken (options : Options) (token : List Char) : Options :=
  (HeaderOption.ofWord? token).elim options options.set

theorem options_declared_eq_foldl :
    (declared lines).options = (optionTokens lines).foldl takeToken {} := by
  rw [field_declared (fun options rest => (words rest).foldl takeToken options)
    (List.mem_of_getElem? (i := 5) rfl)
    (fun header declaration => (declare_kept header declaration).2.2.2.2.2.1), optionTokens,
    List.foldl_flatMap]
  intro header rest
  exact foldl_filterMap_eq_elim HeaderOption.ofWord? Options.set (words rest) header.options

/-- A part of the options that one key is about is told from the tokens with that key. -/
theorem option_declared {β : Type} (part : Options → β) (key : String) (value : List Char → β)
    (steps : ∀ options token, part (takeToken options token) =
      if optionKey token = key then value token else part options) :
    part (declared lines).options =
      (((optionTokens lines).filter (optionKey · == key)).getLast?.map value).getD (part {}) := by
  rw [options_declared_eq_foldl, ← foldl_last, ← List.filterMap_eq_filter]
  apply foldl_part
  intro options token
  rw [steps]
  by_cases own : optionKey token = key <;> simp [Option.guard, own]

theorem flag_eq_any (tokens : List (List Char)) (holds : List Char → Bool) :
    (((tokens.filter holds).getLast?.map fun _ => true).getD false) = tokens.any holds := by
  cases last : (tokens.filter holds).getLast? with
  | none =>
      have none := List.filter_eq_nil_iff.mp (List.getLast?_eq_none_iff.mp last)
      exact (List.any_eq_false.mpr none).symm
  | some token =>
      have both := List.mem_filter.mp (List.mem_of_getLast? last)
      exact (List.any_eq_true.mpr ⟨token, both⟩).symm

theorem lastOption_eq_bind {α : Type} (key : String) (value? : List Char → Option α) :
    (((optionTokens lines).filter (optionKey · == key)).getLast?.map fun token =>
      (optionValue? token).bind value?).getD none = (lastOption? lines key).bind value? := by
  rw [lastOption?]
  cases ((optionTokens lines).filter (optionKey · == key)).getLast? <;> rfl

theorem options_declared : (declared lines).options = optionsOf lines := by
  have shared : (declared lines).options.sharedMemory = (optionsOf lines).sharedMemory :=
    (option_declared lines Options.sharedMemory "gmem" _
      fun options token => (set_ofWord? options token).1).trans (lastOption_eq_bind lines "gmem" _)
  have slots : (declared lines).options.memorySlots = (optionsOf lines).memorySlots := by
    rw [option_declared lines Options.memorySlots "maxmem" _
      fun options token => (set_ofWord? options token).2.1]
    change _ = ((lastOption? lines "maxmem").bind Number.number?).map Number.toNatural
    unfold lastOption?
    cases ((optionTokens lines).filter (optionKey · == "maxmem")).getLast? <;> rfl
  have keyboard : (declared lines).options.wantsKeyboard = (optionsOf lines).wantsKeyboard :=
    (option_declared lines Options.wantsKeyboard "want_all_kb" _
      fun options token => (set_ofWord? options token).2.2.1).trans (flag_eq_any _ _)
  have meter : (declared lines).options.noMeter = (optionsOf lines).noMeter :=
    (option_declared lines Options.noMeter "no_meter" _
      fun options token => (set_ofWord? options token).2.2.2).trans (flag_eq_any _ _)
  revert shared slots keyboard meter
  cases (declared lines).options
  cases optionsOf lines
  rintro rfl rfl rfl rfl
  rfl

/-- A line changes the slider in a slot if it is a line of that slider. -/
theorem get_takeLine (header : Header) (line : List Char) (slot : Fin sliderSlots) :
    (header.takeLine line).sliders.get slot =
      match sliderText? slot line with
      | some text => Slider.parse slot text
      | none => header.sliders.get slot := by
  rw [sliderText?]
  cases parted : Slider.splitLine? line with
  | some parts =>
      rw [takeLine, Declaration.ofLine?_of_splitLine? parted]
      change (header.sliders.set parts.1 (Slider.parse parts.1 parts.2)).get slot = _
      rw [Option.bind_some]
      by_cases same : parts.1 = slot
      · subst same
        simp [Vector.get_eq_getElem]
      · rw [if_neg same]
        have different : parts.1.val ≠ slot.val := fun equal => same (Fin.ext equal)
        simp [Vector.get_eq_getElem, Vector.getElem_set_ne _ _ different]
  | none =>
      rw [takeLine]
      cases declares : Declaration.ofLine? line with
      | none => rfl
      | some declaration =>
          change (header.declare declaration).sliders.get slot = _
          rw [(declare_kept header declaration).2.2.2.2.2.2.2.2]
          · rfl
          · exact Declaration.lead_ne_slider parted declares

theorem slider_declared (slot : Fin sliderSlots) :
    (declared lines).sliders.get slot = sliderOf lines slot := by
  have absent : ({} : Header).sliders.get slot = .absent slot := by
    simp [Vector.get_eq_getElem]
  have told : (lines.foldl takeLine {}).sliders.get slot =
      (sliderTexts lines slot).foldl (fun _ text => Slider.parse slot text)
        (({} : Header).sliders.get slot) := by
    apply foldl_part fun header : Header => header.sliders.get slot
    intro header line
    rw [get_takeLine]
    cases sliderText? slot line <;> rfl
  rw [declared_eq_foldl, told, foldl_last, absent, sliderOf]
  cases (sliderTexts lines slot).getLast? <;> rfl

end Values

theorem sliders_declared (lines : List (List Char)) :
    (declared lines).sliders = Vector.ofFn (sliderOf lines) := by
  apply Vector.ext
  intro place bound
  rw [Vector.getElem_ofFn]
  exact slider_declared lines ⟨place, bound⟩

/-- The comment that counts is the first one of its kind. -/
theorem comment?_eq_head? (lead : String) (lines : List (List Char)) :
    comment? lead lines = (said lead lines).head? := by
  rw [comment?, said, List.head?_filterMap]

/-- The lines of a header, read all at once. -/
theorem parse_eq_reading_lines (text : String) : parse text = reading (lines text) := by
  have author : (if (declared (lines text)).author.isEmpty then
      ((comment? "//author:" (lines text)).map asText).getD ""
      else (declared (lines text)).author) = authorOf (lines text) := by
    rw [author_declared, comment?_eq_head?, authorOf]
    simp only [String.isEmpty_iff]
  have tags : (if (declared (lines text)).tags.isEmpty then
      ((comment? "//tags:" (lines text)).map asWords).getD []
      else (declared (lines text)).tags) = tagsOf (lines text) := by
    rw [tags_declared, comment?_eq_head?, tagsOf]
    simp only [List.isEmpty_iff]
  unfold reading
  rw [← author, ← tags, ← description_declared, ← inPins_declared, ← outPins_declared,
    ← imports_declared, ← dataFiles_declared, ← options_declared, ← sliders_declared]
  rfl

/-! ## Lines of different kinds -/

/-- The words that lines with a meaning of their own begin with, besides those of sliders. -/
def leads : List String :=
  ["desc:", "author:", "tags:", "in_pin:", "out_pin:", "options:", "import", "filename:",
    "//author:", "//tags:"]

/-- What kind of line a trimmed line is. -/
inductive LineKind where
  /-- A line with a leading word. -/
  | worded (lead : String)
  /-- A line of the slider in a slot. -/
  | slider (slot : Fin sliderSlots)
  /-- A line that says nothing to the header. -/
  | other
deriving DecidableEq, Repr

/-- The kind of a line. -/
def kind (line : List Char) : LineKind :=
  match Slider.splitLine? line with
  | some parts => .slider parts.1
  | none =>
    match leads.find? fun lead => (afterPrefix? lead.toList line).isSome with
    | some lead => .worded lead
    | none => .other

section Kinds

variable {line rest : List Char} {lead : String}

theorem pairwise_leads : leads.Pairwise LeadTable.Apart := by
  decide

theorem apart_slider_of_mem (listed : lead ∈ leads) : LeadTable.Apart "slider" lead := by
  revert lead
  decide

/-- A line with a leading word is no slider line and is of the kind of that word. -/
theorem kind_of_begins (listed : lead ∈ leads)
    (begins : afterPrefix? lead.toList line = some rest) : kind line = .worded lead := by
  have noSlider : Slider.splitLine? line = none := by
    rw [Option.eq_none_iff_forall_ne_some]
    intro parts parted
    rcases Declaration.afterPrefix?_of_splitLine? parted with ⟨behind, begun⟩
    rw [afterPrefix?_of_apart (apart_slider_of_mem listed) begun] at begins
    cases begins
  have found : (leads.find? fun other => (afterPrefix? other.toList line).isSome) = some lead := by
    rcases List.append_of_mem listed with ⟨front, back, split⟩
    have apart := pairwise_leads
    rw [split, List.pairwise_append] at apart
    rw [split, List.find?_append, List.find?_eq_none.mpr, Option.none_or, List.find?_cons, begins]
    · rfl
    · intro other before
      have different := apart.2.2 other before lead List.mem_cons_self
      rw [afterPrefix?_of_apart ⟨different.2, different.1⟩ begins]
      exact Bool.false_ne_true
  unfold kind
  rw [noSlider, found]

theorem kind_of_sliderText? {slot : Fin sliderSlots} (told : sliderText? slot line = some rest) :
    kind line = .slider slot := by
  rcases Option.bind_eq_some_iff.mp told with ⟨parts, parted, own⟩
  split_ifs at own with same
  subst same
  unfold kind
  rw [parted]

/-- What only the lines of one kind tell is told by them. -/
theorem filterMap_filter_kind {value? : List Char → Option (List Char)} {own : LineKind}
    (tells : ∀ line rest, value? line = some rest → kind line = own) (lines : List (List Char)) :
    (lines.filter (kind · == own)).filterMap value? = lines.filterMap value? := by
  rw [List.filterMap_filter]
  congr
  funext line
  cases told : value? line with
  | none => exact ite_self none
  | some rest => exact if_pos (beq_iff_eq.mpr (tells line rest told))

end Kinds

/-- The lines of each kind stand in the same order in both, however they are mixed. -/
def SameByKind (first second : List (List Char)) : Prop :=
  ∀ own : LineKind, own ≠ .other →
    first.filter (kind · == own) = second.filter (kind · == own)

theorem reading_eq_of_sameByKind {first second : List (List Char)}
    (same : SameByKind first second) : reading first = reading second := by
  have saids (lead : String) (listed : lead ∈ leads) : said lead first = said lead second := by
    have own (line rest : List Char) (begins : afterPrefix? lead.toList line = some rest) :
        kind line = .worded lead :=
      kind_of_begins listed begins
    rw [said, said, ← filterMap_filter_kind own first, ← filterMap_filter_kind own second,
      same (.worded lead) nofun]
  have texts : sliderTexts first = sliderTexts second := by
    funext slot
    have own (line rest : List Char) (told : sliderText? slot line = some rest) :
        kind line = .slider slot :=
      kind_of_sliderText? told
    rw [sliderTexts, sliderTexts, ← filterMap_filter_kind own first,
      ← filterMap_filter_kind own second, same (.slider slot) nofun]
  have tokens : optionTokens first = optionTokens second := by
    rw [optionTokens, optionTokens, saids "options:" (by decide)]
  have options : optionsOf first = optionsOf second := by
    unfold optionsOf lastOption? hasOption
    rw [tokens]
  have sliders : sliderOf first = sliderOf second := by
    funext slot
    rw [sliderOf, sliderOf, texts]
  unfold reading authorOf tagsOf
  rw [options, sliders, saids "desc:" (by decide), saids "author:" (by decide),
    saids "tags:" (by decide), saids "//author:" (by decide), saids "//tags:" (by decide),
    saids "in_pin:" (by decide), saids "out_pin:" (by decide), saids "import" (by decide),
    saids "filename:" (by decide)]

theorem sameByKind_swap {line other : List Char} (different : kind line ≠ kind other)
    (front back : List (List Char)) :
    SameByKind (front ++ line :: other :: back) (front ++ other :: line :: back) := by
  intro own _
  simp only [List.filter_append, List.filter_cons, beq_iff_eq]
  by_cases first : kind line = own
  · have second : kind other ≠ own := first ▸ different.symm
    simp only [if_pos first, if_neg second]
  · simp only [if_neg first]

/-! ## The rows of a text -/

/-- The rows of a text are what is between its line feeds, without the blanks around it. -/
def Rows (text : String) (rows : List (List Char)) : Prop :=
  ∃ pieces, Line.CutInto text.toList pieces ∧ List.Forall₂ TrimsTo pieces rows

theorem forall₂_trimsTo_iff {pieces rows : List (List Char)} :
    List.Forall₂ TrimsTo pieces rows ↔ pieces.map trim = rows := by
  have trims : TrimsTo = fun text inner => trim text = inner :=
    funext₂ fun _ _ => propext trimsTo_iff
  rw [trims, ← List.forall₂_map_left_iff (R := Eq), List.forall₂_eq_eq_eq]

theorem rows_iff {text : String} {rows : List (List Char)} :
    Rows text rows ↔ rows = (Line.pieces text.toList).map trim := by
  constructor
  · rintro ⟨pieces, cut, trimmed⟩
    rw [← cut.eq_pieces, forall₂_trimsTo_iff.mp trimmed]
  · rintro rfl
    exact ⟨_, Line.cutInto_pieces text.toList, forall₂_trimsTo_iff.mpr rfl⟩

/-- What is behind the last line feed counts as a line even if there is nothing. -/
theorem lines_cases (text : String) :
    lines text = (Line.pieces text.toList).map trim ∨
      lines text = (Line.pieces text.toList).map trim ++ [[]] := by
  rw [lines, Line.pieces]
  by_cases fed : (text.toList.splitOn '\n').getLast? == some []
  · right
    rcases List.getLast?_eq_some_iff.mp (beq_iff_eq.mp fed) with ⟨front, split⟩
    rw [if_pos fed, split, List.dropLast_concat, List.map_append]
    rfl
  · left
    rw [if_neg fed]

theorem Rows.sameByKind {text : String} {rows : List (List Char)} (cut : Rows text rows) :
    SameByKind (lines text) rows := by
  intro own told
  have none : ([[]] : List (List Char)).filter (kind · == own) = [] := by
    rw [List.filter_cons_of_neg, List.filter_nil]
    rw [beq_iff_eq]
    exact told.symm
  rw [rows_iff.mp cut]
  rcases lines_cases text with same | more
  · rw [same]
  · rw [more, List.filter_append, none, List.append_nil]

theorem Rows.parse_eq {text : String} {rows : List (List Char)} (cut : Rows text rows) :
    parse text = reading rows :=
  (parse_eq_reading_lines text).trans (reading_eq_of_sameByKind cut.sameByKind)

/-- A header is what its rows say together: the description, author and tags that are named
last (author and tags otherwise by the first comment), the pins behind the last `none`, the imports
in their order, the data files that are in turn, the last value of each option, and for each slot
its last line.  Rows of different kinds may be mixed in any way. -/
theorem parse_tells (text : String) :
    ∃ rows, (∀ others, Rows text others ↔ others = rows) ∧ parse text = reading rows ∧
    (∀ line slot behind, Slider.splitLine? line = some (slot, behind) ↔
      ∃ digits, digits ≠ [] ∧ (∀ c ∈ digits, isDigit c = true) ∧
        digitsValue digits = slot + 1 ∧ line = "slider".toList ++ digits ++ ':' :: behind) ∧
    (∀ other others, Rows other others → SameByKind rows others → parse other = parse text) := by
  have own : Rows text ((Line.pieces text.toList).map trim) := rows_iff.mpr rfl
  refine ⟨_, fun _ => rows_iff, own.parse_eq, fun _ _ _ => Slider.splitLine?_eq_some_iff, ?_⟩
  intro other others cut same
  rw [cut.parse_eq, own.parse_eq, reading_eq_of_sameByKind same]

/-- A slider and an import change places. -/
theorem parse_tells_of_swapped_lines :
    Rows "slider2:1<0,3>Mode\r\nimport tables"
      ["slider2:1<0,3>Mode".toList, "import tables".toList] ∧
    (parse "slider2:1<0,3>Mode\r\nimport tables").imports = ["tables"] ∧
    ((parse "slider2:1<0,3>Mode\r\nimport tables").sliders.get 1).description = "Mode" ∧
    parse " import tables\nslider2:1<0,3>Mode\n" =
      parse "slider2:1<0,3>Mode\r\nimport tables" := by
  have first : Rows "slider2:1<0,3>Mode\r\nimport tables"
      ["slider2:1<0,3>Mode".toList, "import tables".toList] := rows_iff.mpr (by decide +kernel)
  have second : Rows " import tables\nslider2:1<0,3>Mode\n"
      ["import tables".toList, "slider2:1<0,3>Mode".toList] := rows_iff.mpr (by decide +kernel)
  have different : kind "slider2:1<0,3>Mode".toList ≠ kind "import tables".toList := by
    decide +kernel
  rcases parse_tells "slider2:1<0,3>Mode\r\nimport tables" with ⟨rows, cut, told, _, mixed⟩
  cases (cut _).mp first
  refine ⟨first, ?_, ?_, mixed _ _ second (sameByKind_swap different [] [])⟩
  · rw [told]
    decide +kernel
  · rw [told]
    decide +kernel

end Header
end EffectHost

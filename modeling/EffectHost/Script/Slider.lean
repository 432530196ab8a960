import EffectHost.Number.Layout
import EffectHost.Number.Numeral

/-!
# Sliders

A header declares up to sixty-four sliders, each by a line

* `sliderN:[name=]default<min,max[,inc[{names}]]>[-]description`, or
* `sliderN:[name=]/path:default:[-]description`,

where the second form takes its choices from the files of a folder.  Every part but
the leading word may be missing, and what cannot be read as a number counts as zero.
-/

namespace EffectHost

open Text Number

/-- Number of slider slots. -/
abbrev sliderSlots : Nat := 64

/-- One adjustable parameter. -/
structure Slider where
  /-- Slot, counted from zero. -/
  slot : Nat
  /-- The header declares the slider. -/
  declared : Bool
  default : Float
  min : Float
  max : Float
  inc : Float
  /-- The script variable that holds the slider's value. -/
  variableName : String
  /-- The value chooses among names. -/
  isEnumeration : Bool
  choices : List String
  /-- The folder of a path slider; empty for any other. -/
  path : String
  description : String
  initiallyVisible : Bool

namespace Slider

/-- The variable of a slider that names none. -/
def standardName (slot : Nat) : String :=
  "slider" ++ toString (slot + 1)

/-- An undeclared slot. -/
def absent (slot : Nat) : Slider where
  slot := slot
  declared := false
  default := 0.0
  min := 0.0
  max := 1.0
  inc := 0.0
  variableName := standardName slot
  isEnumeration := false
  choices := []
  path := ""
  description := ""
  initiallyVisible := false

/-- The choices are the files of a folder. -/
def isPath (slider : Slider) : Bool :=
  !slider.path.isEmpty

/-- A character that may follow the first one of a variable name. -/
def isNamePart (c : Char) : Bool :=
  isLetter c || isDigit c || c == '_' || c == '.'

/-- A variable name with an equals sign right behind it, and what follows. -/
def splitName? (text : List Char) : Option (List Char × List Char) :=
  match text with
  | [] => none
  | first :: _ =>
    if isLetter first || first == '_' then
      match text.dropWhile isNamePart with
      | '=' :: behind => some (text.takeWhile isNamePart, behind)
      | _ => none
    else none

/-- Take the description.  A leading minus hides the slider. -/
def withDescription (slider : Slider) (text : List Char) : Slider :=
  match trim text with
  | '-' :: hidden =>
    { slider with
      initiallyVisible := false
      description := String.ofList (trim hidden) }
  | shown => { slider with description := String.ofList shown }

/-- The numbers of a range, in order; empty fields are passed over. -/
def rangeNumbers (text : List Char) : List Float :=
  ((text.splitOn ',').map trim).filterMap fun field =>
    if field.isEmpty then none else some (numberPrefix field).1

/-- The names between the braces of a range; the closing brace may be missing. -/
def rangeNames? (text : List Char) : Option (List String) :=
  (splitFirst? '{' text).map fun parts =>
    ((parts.2.takeWhile (· != '}')).splitOn ',').map fun name => String.ofList (trim name)

/-- Take the minimum, the maximum, the increment and the names of a range. -/
def withRange (slider : Slider) (text : List Char) : Slider :=
  let numbers := rangeNumbers (text.takeWhile (· != '{'))
  let ranged := { slider with
    min := numbers[0]?.getD 0.0
    max := numbers[1]?.getD slider.max
    inc := numbers[2]?.getD 0.0 }
  match rangeNames? text with
  | some names => { ranged with isEnumeration := true, choices := names }
  | none => ranged

/-- Take the path form, of which the leading slash has been read.  The description
may hold colons. -/
def withPath (slider : Slider) (text : List Char) : Slider :=
  let afterPath := ((splitFirst? ':' text).map Prod.snd).getD []
  let afterDefault := ((splitFirst? ':' afterPath).map Prod.snd).getD []
  { slider with
    path := String.ofList (trim (text.takeWhile (· != ':')))
    default := (numberPrefix (trim (afterPath.takeWhile (· != ':')))).1
    inc := 1.0
    min := 0.0
    max := 0.0
    isEnumeration := true }.withDescription afterDefault

/-- Take the form with a default and a range. -/
def withDefault (slider : Slider) (text : List Char) : Slider :=
  let number := numberPrefix text
  let valued := { slider with default := number.1 }
  match trimStart number.2 with
  | '<' :: behind =>
    (valued.withRange (behind.takeWhile (· != '>'))).withDescription
      (((splitFirst? '>' behind).map Prod.snd).getD [])
  | rest => valued.withDescription rest

/-- The slider declared by the text behind the colon. -/
def parse (slot : Nat) (text : List Char) : Slider :=
  let blank := { absent slot with declared := true, initiallyVisible := true }
  let start := trimStart text
  let named := match splitName? start with
    | some (name, behind) =>
      ({ blank with variableName := String.ofList name }, trimStart behind)
    | none => (blank, start)
  match named.2 with
  | '/' :: path => named.1.withPath path
  | rest => named.1.withDefault rest

/-- The greatest value of an enumeration with `count` names. -/
def lastChoice (count : Nat) : Float :=
  Float.ofNat (Nat.max count 1 - 1)

/-- The range fits the names. -/
def hasChoiceRange (slider : Slider) : Bool :=
  !slider.choices.isEmpty && slider.min == 0.0 &&
    slider.max == lastChoice slider.choices.length && slider.inc == 1.0

/-- What is wrong with an enumeration, in words. -/
def choiceFault (slider : Slider) : String :=
  if slider.choices.isEmpty then
    standardName slider.slot ++ ": enumeration has no names"
  else
    standardName slider.slot ++ ": enumeration range <" ++ plainText slider.min ++ "," ++
      plainText slider.max ++ "," ++ plainText slider.inc ++ "> corrected to <0," ++
      plainText (lastChoice slider.choices.length) ++ ",1>"

/-- Give an enumeration the range of its names, with a warning where that changes
it.  An enumeration without names is warned of every time. -/
def withChoiceRange (slider : Slider) : Slider × Option String :=
  if !slider.declared || !slider.isEnumeration || slider.hasChoiceRange then (slider, none)
  else
    ({ slider with min := 0.0, max := lastChoice slider.choices.length, inc := 1.0 },
      some slider.choiceFault)

/-- The slot and the declaration of a slider line. -/
def splitLine? (line : List Char) : Option (Fin sliderSlots × List Char) := do
  let rest ← afterPrefix? "slider".toList line
  let parts ← splitFirst? ':' rest
  if parts.1.isEmpty || !parts.1.all isDigit then none
  else
    let number := digitsValue parts.1
    if h : 0 < number ∧ number ≤ sliderSlots then
      some (⟨number - 1, by omega⟩, parts.2)
    else none

end Slider
end EffectHost

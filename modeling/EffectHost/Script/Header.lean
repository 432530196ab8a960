import EffectHost.Number.Whole
import EffectHost.Text.LowerCase
import EffectHost.Script.Slider

/-!
# Headers

The lines in front of the first section declare what a script is called, who wrote
it, its pins, options, imports, data files and sliders.  Each line is read on its own
as a declaration, and declarations are applied one after another.  Author and tags may
also be given in comments, which count only where the declarations leave them empty.
-/

namespace EffectHost

open Text Number

/-- Greatest number of pins in one direction. -/
def maxPins : Nat := 64

/-- The declared pins of one direction. -/
inductive Pins where
  /-- No line speaks of them. -/
  | unspecified
  /-- There are explicitly none. -/
  | none
  | named (names : List String)
deriving DecidableEq, Repr

namespace Pins

/-- The pin names. -/
def names : Pins → List String
  | .named names => names
  | _ => []

/-- Number of audio channels. -/
def count (pins : Pins) : Nat :=
  pins.names.length

/-- One more pin line.  The word `none` takes back all pins before it. -/
def declare (pins : Pins) (name : String) : Pins :=
  if sameAscii name "none" then .none else .named (pins.names ++ [name])

/-- Keep as many pins as there can be. -/
def limit : Pins → Pins
  | .named names => .named (names.take maxPins)
  | pins => pins

end Pins

/-- One word of an options line. -/
inductive HeaderOption where
  /-- The name of the shared memory; an empty or missing name takes it back. -/
  | sharedMemory (name : Option String)
  /-- The wanted memory size in slots; an unreadable size takes it back. -/
  | memorySlots (slots : Option Nat)
  | wantsKeyboard
  | noMeter
deriving DecidableEq, Repr

/-- The options of a script. -/
structure Options where
  sharedMemory : Option String := none
  memorySlots : Option Nat := none
  wantsKeyboard : Bool := false
  noMeter : Bool := false
deriving DecidableEq, Repr

namespace HeaderOption

/-- The option that a word spells. -/
def ofWord? (word : List Char) : Option HeaderOption :=
  let key := String.ofList (word.takeWhile (· != '='))
  let value? := (splitFirst? '=' word).map Prod.snd
  if key == "gmem" then
    some <| .sharedMemory <| value?.bind fun value =>
      if value.isEmpty then none else some (String.ofList value)
  else if key == "maxmem" then
    some <| .memorySlots <| (value?.bind number?).map toNatural
  else if key == "want_all_kb" then some .wantsKeyboard
  else if key == "no_meter" then some .noMeter
  else none

end HeaderOption

/-- Apply one option. -/
def Options.set (options : Options) : HeaderOption → Options
  | .sharedMemory name => { options with sharedMemory := name }
  | .memorySlots slots => { options with memorySlots := slots }
  | .wantsKeyboard => { options with wantsKeyboard := true }
  | .noMeter => { options with noMeter := true }

/-- What one header line declares. -/
inductive Declaration where
  | description (text : String)
  | author (text : String)
  | tags (words : List String)
  | inPin (name : String)
  | outPin (name : String)
  | options (settings : List HeaderOption)
  | importFile (name : String)
  | dataFile (index : Nat) (name : String)
  | slider (slot : Fin sliderSlots) (text : List Char)

namespace Declaration

/-- A number and the name of a data file. -/
def dataFile? (text : List Char) : Option Declaration := do
  let parts ← splitFirst? ',' text
  let index ← boundedNat? (twoTo 64) (trim parts.1)
  some (.dataFile index (String.ofList (trim parts.2)))

/-- The text behind a leading word, and how it is read.  A line that begins with the
leading word is read in this way or not at all. -/
def readers : List (String × (List Char → Option Declaration)) :=
  [ ("desc:", fun text => some (.description (String.ofList (trim text)))),
    ("author:", fun text => some (.author (String.ofList (trim text)))),
    ("tags:", fun text => some (.tags ((words text).map String.ofList))),
    ("in_pin:", fun text => some (.inPin (String.ofList (trim text)))),
    ("out_pin:", fun text => some (.outPin (String.ofList (trim text)))),
    ("options:", fun text => some (.options ((words text).filterMap HeaderOption.ofWord?))),
    ("import", fun text =>
      if (text.head?.map isBlank).getD false && !(trim text).isEmpty then
        some (.importFile (String.ofList (trim text)))
      else none),
    ("filename:", dataFile?) ]

/-- The declaration of a trimmed line. -/
def ofLine? (line : List Char) : Option Declaration :=
  match readers.findSome? (fun reader =>
      (afterPrefix? reader.1.toList line).map reader.2) with
  | some declaration? => declaration?
  | none => (Slider.splitLine? line).map fun parts => .slider parts.1 parts.2

end Declaration

/-- What a header declares. -/
structure Header where
  description : String := ""
  author : String := ""
  tags : List String := []
  inPins : Pins := .unspecified
  outPins : Pins := .unspecified
  imports : List String := []
  /-- Data files; file number `k` stands at position `k`. -/
  dataFiles : List String := []
  options : Options := {}
  sliders : Vector Slider sliderSlots := Vector.ofFn fun slot => Slider.absent slot

namespace Header

/-- Apply one declaration.  Data files are numbered without gaps: one that is out of
turn is passed over. -/
def declare (header : Header) : Declaration → Header
  | .description text => { header with description := text }
  | .author text => { header with author := text }
  | .tags words => { header with tags := words }
  | .inPin name => { header with inPins := header.inPins.declare name }
  | .outPin name => { header with outPins := header.outPins.declare name }
  | .options settings => { header with options := settings.foldl Options.set header.options }
  | .importFile name => { header with imports := header.imports ++ [name] }
  | .dataFile index name =>
    if index == header.dataFiles.length then
      { header with dataFiles := header.dataFiles ++ [name] }
    else header
  | .slider slot text =>
    { header with sliders := header.sliders.set slot (Slider.parse slot text) }

/-- The trimmed lines of a header text. -/
def lines (text : String) : List (List Char) :=
  (text.toList.splitOn '\n').map trim

/-- What the first comment line with a given beginning says. -/
def comment? (lead : String) (lines : List (List Char)) : Option (List Char) :=
  lines.findSome? (afterPrefix? lead.toList)

/-- Take author and tags from comments where they are still empty. -/
def fillFromComments (header : Header) (lines : List (List Char)) : Header :=
  let author :=
    if header.author.isEmpty then
      ((comment? "//author:" lines).map fun text => String.ofList (trim text)).getD ""
    else header.author
  let tags :=
    if header.tags.isEmpty then
      ((comment? "//tags:" lines).map fun text => (words text).map String.ofList).getD []
    else header.tags
  { header with author := author, tags := tags }

/-- Read a header. -/
def parse (text : String) : Header :=
  let lines := lines text
  let declared := (lines.filterMap Declaration.ofLine?).foldl declare {}
  let filled := declared.fillFromComments lines
  { filled with inPins := filled.inPins.limit, outPins := filled.outPins.limit }

/-- A script with a sample section has two pins in each direction unless it speaks of
pins itself. -/
def withStandardPins (header : Header) (hasSample : Bool) : Header :=
  if hasSample && header.inPins == .unspecified && header.outPins == .unspecified then
    { header with
      inPins := .named ["Input 1", "Input 2"]
      outPins := .named ["Output 1", "Output 2"] }
  else header

/-- The declared sliders in the order of their slots. -/
def declaredSliders (header : Header) : List Slider :=
  header.sliders.toList.filter Slider.declared

/-- Give every enumeration the range of its names, with the warnings. -/
def withChoiceRanges (header : Header) : Header × List String :=
  ({ header with sliders := header.sliders.map fun slider => slider.withChoiceRange.1 },
    header.sliders.toList.filterMap fun slider => slider.withChoiceRange.2)

end Header
end EffectHost

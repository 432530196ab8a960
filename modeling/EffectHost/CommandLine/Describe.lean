import EffectHost.CommandLine.Json
import EffectHost.Effect.Basic
import EffectHost.Preset.Bank

/-!
# Descriptions

What the program prints about a script and about a bank.  The fields of a script stand
in alphabetical order, those of a bank in the order in which a bank is written.
-/

namespace EffectHost

/-- The description of a slider. -/
def Slider.toJson (slider : Slider) : JsonValue :=
  .object
    [ ("default", .number slider.default), ("desc", .text slider.description),
      ("enum_names", .texts slider.choices), ("exists", .bool slider.declared),
      ("id", .natural slider.slot), ("inc", .number slider.inc),
      ("initially_visible", .bool slider.initiallyVisible),
      ("is_enum", .bool slider.isEnumeration), ("max", .number slider.max),
      ("min", .number slider.min), ("path", .text slider.path),
      ("var", .text slider.variableName) ]

/-- The description of the options. -/
def Options.toJson (options : Options) : JsonValue :=
  .object
    [ ("gmem", .optional .text options.sharedMemory),
      ("maxmem", .optional .natural options.memorySlots),
      ("no_meter", .bool options.noMeter), ("want_all_kb", .bool options.wantsKeyboard) ]

/-- The description of a script. -/
def LoadedScript.toJson (script : LoadedScript) : JsonValue :=
  let header := script.header
  .object
    [ ("author", .text header.author), ("bank", .optional .text script.bankPath?),
      ("desc", .text header.description), ("filenames", .texts header.dataFiles),
      ("gfx", .optional (fun size => .list [.natural size.1, .natural size.2])
        script.drawingSize?),
      ("imports", .texts header.imports), ("inputs", .texts header.inPins.names),
      ("options", header.options.toJson), ("outputs", .texts header.outPins.names),
      ("sliders", .list (header.declaredSliders.map Slider.toJson)),
      ("tags", .texts header.tags) ]

/-- The description of a saved state. -/
def EffectState.toJson (state : EffectState) : JsonValue :=
  .object
    [ ("sliders", .list (state.sliders.map fun entry =>
        .object [("index", .natural entry.slot.toNat), ("value", .number entry.value)])),
      ("data", .list (state.data.data.toList.map fun byte => .natural byte.toNat)) ]

namespace Bank

/-- The description of a bank. -/
def toJson (bank : Bank) : JsonValue :=
  .object
    [ ("name", .text bank.name),
      ("presets", .list (bank.presets.map fun preset =>
        .object [("name", .text preset.name), ("state", preset.state.toJson)])) ]

/-- Spaces that fill a text up to a width. -/
def padding (width : Nat) (text : String) : String :=
  String.ofList (List.replicate (width - text.length) ' ')

/-- A number at the right of a column. -/
def column (width number : Nat) : String :=
  padding width (toString number) ++ toString number

/-- The line of a preset in a listing. -/
def listingLine (number : Nat) (preset : Preset) : String :=
  column 3 number ++ ". " ++ preset.name ++ padding 40 preset.name ++ " " ++
    column 2 preset.state.sliders.length ++ " slider(s) " ++
    column 6 preset.state.data.size ++ " byte(s)\n"

/-- The presets of a bank, one in a line. -/
def listing (bank : Bank) : String :=
  "Bank: " ++ bank.name ++ "\n" ++ String.ofList (List.replicate 60 '-') ++ "\n" ++
    String.join (bank.presets.mapIdx fun position preset => listingLine (position + 1) preset)

end Bank
end EffectHost

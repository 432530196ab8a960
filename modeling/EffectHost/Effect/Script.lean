import EffectHost.DataFile.Open
import EffectHost.Effect.Config
import EffectHost.Host.Alias
import EffectHost.Script.Imports

/-!
# Loaded scripts

A script is loaded together with the units that it imports.  On the way its header is
completed: a missing description is replaced by the name of the file, path sliders get
the files of their folders as choices, and enumerations the ranges of their names.
-/

namespace EffectHost

/-- A script with everything that belongs to it. -/
structure LoadedScript where
  /-- The unit of the script's own file. -/
  main : ScriptUnit
  /-- The imported units, each behind those that it imports. -/
  imports : List ScriptUnit := []
  /-- The preset bank next to the script. -/
  bankPath? : Option String := none

/-- What those who run code or draw need to know of a loaded script. -/
structure ScriptInfo where
  /-- The completed header. -/
  header : Header
  /-- Folder of the script. -/
  folder? : Option String
  /-- The names of the sliders. -/
  aliases : SliderAliases

namespace LoadedScript

/-- The completed header. -/
def header (script : LoadedScript) : Header :=
  script.main.header

/-- What others need to know of the script. -/
def info (script : LoadedScript) : ScriptInfo where
  header := script.header
  folder? := script.main.folder?
  aliases := SliderAliases.ofHeader script.header

/-- The section that an effect runs of its kind: that of the script itself, or else of the
first imported unit that has one. -/
def section? (script : LoadedScript) (kind : SectionKind) : Option Section :=
  (script.main :: script.imports).findSome? fun unit => unit.section? kind

/-- Some unit has a section of a kind. -/
def has (script : LoadedScript) (kind : SectionKind) : Bool :=
  (script.section? kind).isSome

/-- Width and height that the drawing section asks for. -/
def drawingSize? (script : LoadedScript) : Option (Nat × Nat) :=
  (script.section? .gfx).map fun drawing => (drawing.width, drawing.height)

/-- Names in alphabetical order. -/
def sortNames (names : List String) : List String :=
  names.mergeSort fun first second => !decide (second < first)

/-- The names of the data files directly inside a folder. -/
def dataFilesIn (disk : Disk) (formats : List AudioFormat) (folder : String) : List String :=
  sortNames (((disk.list? folder).getD []).filterMap fun (name, item) =>
    match item with
    | .file _ =>
      if DataFile.isKnown disk formats (Path.join folder name) then some name else none
    | .folder => none)

/-- Give a path slider the files of the first of some folders in which its own folder
exists. -/
def withListedChoices (disk : Disk) (formats : List AudioFormat) (folders : List String)
    (slider : Slider) : Slider :=
  if slider.declared && slider.isPath then
    match (folders.map (Path.join · slider.path)).find? disk.isFolder with
    | some folder =>
      let names := dataFilesIn disk formats folder
      { slider with
        choices := names
        max := if names.isEmpty then slider.max else Float.ofNat (names.length - 1) }
    | none => slider
  else slider

/-- Describe a script that does not describe itself by the name of its file. -/
def describe (unit : ScriptUnit) (path : String) : ScriptUnit × List Report :=
  if unit.header.description.isEmpty then
    let name := (Path.fileName? path).getD ""
    ({ unit with header := { unit.header with description := name } },
      [⟨.warning, name ++ ": the description is missing"⟩])
  else (unit, [])

/-- What is reported when a script's file cannot be used. -/
def loadMessage (path : String) : Failure → String
  | .malformed line reason => path ++ ":" ++ toString line ++ ": " ++ reason
  | other => other.message

/-- The bank next to a script has the script's name and an extension of its own. -/
def findBank? (disk : Disk) (unit : ScriptUnit) (path : String) : Option String := do
  let folder ← unit.folder?
  let name ← Path.fileName? path
  disk.resolveIn? folder (name ++ ".rpl")

/-- Complete the header of a script. -/
def complete (disk : Disk) (config : Config) (unit : ScriptUnit) : ScriptUnit × List Report :=
  let folders := unit.folder?.toList ++ config.dataRoot?.toList
  let listed := { unit.header with
    sliders := unit.header.sliders.map (withListedChoices disk config.formats folders) }
  let ranged := listed.withChoiceRanges
  ({ unit with header := ranged.1 }, ranged.2.map (⟨.warning, ·⟩))

/-- Load the script at a path.  The reports come also where loading fails. -/
def load (disk : Disk) (config : Config) (path : String) (ignoreImports : Bool) :
    Except Failure LoadedScript × List Report :=
  match ScriptUnit.load disk path with
  | .error failure => (.error failure, [⟨.error, loadMessage path failure⟩])
  | .ok unit =>
    let described := describe unit path
    let main :=
      if ignoreImports then
        { described.1 with header := { described.1.header with imports := [] } }
      else described.1
    match Imports.load disk config.importRoot? main with
    | .error failure => (.error failure, described.2 ++ [⟨.error, failure.message⟩])
    | .ok imports =>
      let completed := complete disk config main
      (.ok { main := completed.1, imports := imports, bankPath? := findBank? disk unit path },
        described.2 ++ completed.2)

end LoadedScript
end EffectHost

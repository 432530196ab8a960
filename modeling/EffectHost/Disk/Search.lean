import EffectHost.Disk.Basic
import EffectHost.Text.LowerCase

/-!
# Looking for files

Scripts name files without regard to case.  A path is first taken as it stands.
If it leads to no file it is followed again from the same folder, taking at each
name the first entry that differs from it in case alone.  A file that is imported by
name may also lie anywhere below the import root; there the first one counts, in the
order of a walk that visits entries by name.
-/

namespace EffectHost
namespace Disk

/-- The first entry of a folder whose name differs from the wanted one in case
alone. -/
def entryNamed? (disk : Disk) (folder name : String) : Option String := do
  let entries ← disk.list? folder
  let found ← entries.find? (fun entry => Text.lower entry.1 == Text.lower name)
  some found.1

/-- Follow one step of a path without regard to case. -/
def stepAnyCase? (disk : Disk) (current : String) : Path.Step → Option String
  | .name text => (disk.entryNamed? current text).map (Path.join current)
  | .here => some current
  | .up => Path.parent? current
  | .root => none

/-- The file that a relative path names under a folder. -/
def resolveIn? (disk : Disk) (folder relative : String) : Option String :=
  let direct := Path.join folder relative
  if disk.isFile direct then some direct
  else
    match (Path.steps relative).foldlM (disk.stepAnyCase?) folder with
    | some found => if disk.isFile found then some found else none
    | none => none

/-- The file that a relative path names under the first folder that has it. -/
def resolveAmong? (disk : Disk) (folders : List String) (relative : String) :
    Option String :=
  folders.findSome? (disk.resolveIn? · relative)

/-- Locations in the order of a walk: a folder before what is in it, and entries of
one folder by name. -/
def walkOrder (first second : Location) : Bool :=
  match first, second with
  | [], _ => true
  | _ :: _, [] => false
  | a :: rest, b :: others => if a == b then walkOrder rest others else decide (a < b)

/-- All files below a location, or the one at it, in walking order. -/
def filesBelow (disk : Disk) (location : Location) : List Location :=
  let files := disk.entries.filterMap fun entry =>
    match entry.2 with
    | .file _ => if location.isPrefixOf entry.1 then some entry.1 else none
    | .folder => none
  files.mergeSort walkOrder

/-- The first file of a walk from `root` with the given name in any case. -/
def searchBelow? (disk : Disk) (root name : String) : Option String := do
  let start ← (disk.locate root).toOption
  let wanted := Text.lower name
  let found ← (disk.filesBelow start).find? fun location =>
    match location.drop start.length with
    | [] => Text.lower ((Path.fileName? root).getD root) == wanted
    | rest => (rest.getLast?.map Text.lower) == some wanted
  some ((found.drop start.length).foldl Path.join root)

end Disk
end EffectHost

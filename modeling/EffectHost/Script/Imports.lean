import EffectHost.Disk.Search
import EffectHost.Script.Unit

/-!
# Imports

A script may import other script files, which may import further ones.  A file is
looked for next to the importing file, then under the import root, and last by its
name anywhere below the import root.  Every file is loaded once, however often and by
whatever path it is imported, and the script itself is never loaded again.  The units
come in the order in which they are complete: behind the units that they import.
-/

namespace EffectHost

/-- A chain of imports may have this many links. -/
def maxImportDepth : Nat := 32

namespace Imports

/-- The file that an import line names. -/
def resolve? (disk : Disk) (name : String) (folder? root? : Option String) : Option String :=
  if Path.isAbsolute name then if disk.isFile name then some name else none
  else
    match disk.resolveAmong? (folder?.toList ++ root?.toList) name with
    | some found => some found
    | none => do
      let wanted ← Path.fileName? name
      let root ← root?
      disk.searchBelow? root wanted

/-- The files met so far, and the units completed so far. -/
structure Progress where
  seen : List Location := []
  units : List ScriptUnit := []

/-- Load what `unit` imports.  The first argument counts the links that the chain of
imports down to this unit may still grow by. -/
def visit (disk : Disk) (root? : Option String) :
    Nat → ScriptUnit → Progress → Except Failure Progress
  | links, unit, progress =>
    unit.header.imports.foldlM (fun progress name => do
      let origin := unit.path.getD ""
      match links with
      | 0 => .error (.unusable origin "too many import levels")
      | links + 1 =>
        match resolve? disk name unit.folder? root? with
        | none => .error (.unusable origin ("cannot find import '" ++ name ++ "'"))
        | some path =>
          match disk.locate path with
          | .error fault => .error (.unreadable path fault)
          | .ok location =>
            if progress.seen.contains location then .ok progress
            else do
              let imported ← ScriptUnit.load disk path
              let inner ← visit disk root? links imported
                { progress with seen := location :: progress.seen }
              .ok { inner with units := inner.units ++ [imported] }) progress

/-- The units that a script imports, directly or through others. -/
def load (disk : Disk) (root? : Option String) (main : ScriptUnit) :
    Except Failure (List ScriptUnit) := do
  let start := main.path.bind fun path => (disk.locate path).toOption
  let progress ← visit disk root? maxImportDepth main { seen := start.toList }
  .ok progress.units

end Imports
end EffectHost

import EffectHost.CommandLine.Run

/-!
# The program

The program takes a picture of the files that a command may need, runs the command on it,
and then writes and prints what the command asks for.  A script's folder is pictured with
what lies below it, so that imports and data files are found there.
-/

namespace EffectHost
namespace Program

/-- Levels of folders that a picture goes down. -/
def pictureDepth : Nat := 8

/-- The words that a user may type. -/
def usage : String :=
  "usage: info SCRIPT [--no-imports]\n" ++
  "       bank PATH [--json]\n" ++
  "       render SCRIPT INPUT OUTPUT [-b FRAMES] [-s INDEX=VALUE]...\n"

/-- The path of a location. -/
def pathOf (location : Location) : String :=
  "/" ++ String.intercalate "/" location

/-- The location that a path means by its text alone. -/
def locationOf (workingFolder : Location) (path : String) : Location :=
  (Path.pieces path).foldl (fun location piece =>
    if piece == "" || piece == "." then location
    else if piece == ".." then location.dropLast
    else location ++ [piece]) (if Path.isAbsolute path then [] else workingFolder)

/-- The names in a folder. -/
def namesIn (location : Location) : IO (List String) := do
  let here ← IO.currentDir
  let entries ← (here / pathOf location).readDir
  return entries.toList.map fun entry => entry.fileName

/-- Add what is at a location to a picture, at most so many levels of folders down. -/
def addTree (depth : Nat) (disk : Disk) (location : Location) : IO Disk := do
  match ← (IO.FS.readBinFile (pathOf location)).toBaseIO with
  | .ok bytes => return disk.addFile location bytes
  | .error _ =>
    match ← (namesIn location).toBaseIO with
    | .error _ => return disk
    | .ok names =>
      let listed := disk.addFolder location
      match depth with
      | 0 => return listed
      | depth + 1 => names.foldlM (fun disk name =>
          addTree depth disk (location ++ [name])) listed

/-- The paths that a command names, each with the levels of folders that it needs. -/
def wanted (workingFolder : Location) : Command → List (Location × Nat)
  | .idle => []
  | .info script _ => [((locationOf workingFolder script).dropLast, pictureDepth)]
  | .bank path _ => [(locationOf workingFolder path, 0)]
  | .render job =>
    [ ((locationOf workingFolder job.script).dropLast, pictureDepth),
      (locationOf workingFolder job.input, 0),
      ((locationOf workingFolder job.output).dropLast, 0),
      (locationOf workingFolder job.output, 0) ]

/-- Take a picture of the files that a command may need. -/
def picture (command : Command) : IO Disk := do
  let folder ← IO.currentDir
  let workingFolder := locationOf [] folder.toString
  (wanted workingFolder command).foldlM (fun disk (location, depth) =>
    addTree depth disk location)
    ({ workingFolder := workingFolder : Disk }.addFolder workingFolder)

/-- Run a command on the files of the system. -/
def run (command : Command) : IO UInt32 := do
  match command.run (← picture command) with
  | .error fault =>
    IO.eprintln ("Error: " ++ fault.message)
    return 1
  | .ok output =>
    if let some (path, bytes) := output.file? then IO.FS.writeBinFile path bytes
    IO.print output.text
    return 0

end Program
end EffectHost

/-- Run the command that the words on the command line name. -/
def main (words : List String) : IO UInt32 := do
  match EffectHost.Command.ofWords? words with
  | none =>
    IO.eprint EffectHost.Program.usage
    return 2
  | some .idle =>
    IO.print EffectHost.Program.usage
    return 0
  | some command => EffectHost.Program.run command

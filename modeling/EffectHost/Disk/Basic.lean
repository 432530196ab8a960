import EffectHost.Disk.Path

/-!
# The file system

Scripts, imported files, data files and banks are read from a finite file system,
which is a value: a list of folders and files with their locations.  A folder lists
its entries in the order in which they stand in that list.  Paths are followed piece by
piece, and every piece, also an empty one behind a slash, needs a folder to start from.
A path that is too long as a whole is refused before it is followed; a name that is too
long is refused where it is reached.
-/

namespace EffectHost

/-- Where an entry is: the names from the root downwards. -/
abbrev Location := List String

/-- What is found at a location. -/
inductive Item where
  | file (bytes : ByteArray)
  | folder

/-- Why the system refuses a path. -/
inductive SystemFault where
  | missing
  | notFolder
  | isFolder
  /-- A path or one of its names has too many bytes. -/
  | tooLong
  /-- A path contains the character that ends texts of the system. -/
  | holdsNul
deriving DecidableEq, Repr

/-- The system's words for a fault. -/
def SystemFault.message : SystemFault → String
  | .missing => "No such file or directory (os error 2)"
  | .notFolder => "Not a directory (os error 20)"
  | .isFolder => "Is a directory (os error 21)"
  | .tooLong => "File name too long (os error 36)"
  | .holdsNul => "file name contained an unexpected NUL byte"

/-- Number of bytes that a name may have. -/
def longestName : Nat := 255

/-- Number of bytes that a path may have. -/
def longestPath : Nat := 4095

/-- A finite file system.  The root is a folder that is not listed. -/
structure Disk where
  entries : List (Location × Item) := []
  /-- The folder at which relative paths start. -/
  workingFolder : Location := []

namespace Disk

/-- No files at all. -/
def empty : Disk := {}

/-- The item at a location. -/
def item? (disk : Disk) (location : Location) : Option Item :=
  if location.isEmpty then some .folder
  else disk.entries.lookup location

/-- Put a folder and all folders above it, unless they are there. -/
def addFolder (disk : Disk) (location : Location) : Disk :=
  (List.range location.length).foldl (fun built depth =>
    let folder := location.take (depth + 1)
    if (built.item? folder).isSome then built
    else { built with entries := built.entries ++ [(folder, .folder)] }) disk

/-- Put a file and the folders above it.  A file that is there is replaced. -/
def addFile (disk : Disk) (location : Location) (bytes : ByteArray) : Disk :=
  let built := disk.addFolder location.dropLast
  if (built.item? location).isSome then
    { built with
      entries := built.entries.map fun entry =>
        if entry.1 == location then (location, .file bytes) else entry }
  else { built with entries := built.entries ++ [(location, .file bytes)] }

/-- Follow one piece of a path. -/
def follow (disk : Disk) (location : Location) (piece : String) :
    Except SystemFault Location :=
  match disk.item? location with
  | some .folder =>
    if piece == "" || piece == "." then .ok location
    else if piece == ".." then .ok location.dropLast
    else if longestName < piece.utf8ByteSize then .error .tooLong
    else
      let next := location ++ [piece]
      if (disk.item? next).isSome then .ok next else .error .missing
  | some (.file _) => .error .notFolder
  | none => .error .missing

/-- The location at which a path starts. -/
def origin (disk : Disk) (path : String) : Location :=
  if Path.isAbsolute path then [] else disk.workingFolder

/-- What makes the system refuse a path unseen. -/
def refusal? (path : String) : Option SystemFault :=
  if path.toList.contains '\x00' then some .holdsNul
  else if path.isEmpty then some .missing
  else if longestPath < path.utf8ByteSize then some .tooLong
  else none

/-- The location that a path leads to. -/
def locate (disk : Disk) (path : String) : Except SystemFault Location :=
  match refusal? path with
  | some fault => .error fault
  | none => (Path.pieces path).foldlM disk.follow (disk.origin path)

/-- The path leads to an item. -/
def find? (disk : Disk) (path : String) : Option Item :=
  match disk.locate path with
  | .ok location => disk.item? location
  | .error _ => none

/-- The path leads to a file. -/
def isFile (disk : Disk) (path : String) : Bool :=
  match disk.find? path with
  | some (.file _) => true
  | _ => false

/-- The path leads to a folder. -/
def isFolder (disk : Disk) (path : String) : Bool :=
  match disk.find? path with
  | some .folder => true
  | _ => false

/-- The contents of a file. -/
def read (disk : Disk) (path : String) : Except SystemFault ByteArray :=
  match disk.locate path with
  | .error fault => .error fault
  | .ok location =>
    match disk.item? location with
    | some (.file bytes) => .ok bytes
    | some .folder => .error .isFolder
    | none => .error .missing

/-- The location of the file that a path is to lead to.  The folder must be there already,
and the path must end in a name that is not that of a folder. -/
def placeFor (disk : Disk) (path : String) : Except SystemFault Location := do
  if let some fault := refusal? path then throw fault
  let backwards := (Path.pieces path).reverse
  let named := backwards.dropWhile (· == "")
  let folder ← (named.drop 1).reverse.foldlM disk.follow (disk.origin path)
  let name := (named.head?).getD ""
  match disk.item? folder with
  | some .folder =>
    if backwards.head? == some "" || name == "." || name == ".." then throw .isFolder
    else if longestName < name.utf8ByteSize then throw .tooLong
    else
      match disk.item? (folder ++ [name]) with
      | some .folder => throw .isFolder
      | _ => return folder ++ [name]
  | some (.file _) => throw .notFolder
  | none => throw .missing

/-- Write a file. -/
def write (disk : Disk) (path : String) (bytes : ByteArray) : Except SystemFault Disk :=
  (disk.placeFor path).map fun location => disk.addFile location bytes

/-- The entries directly inside a folder: their names and what they are. -/
def children (disk : Disk) (folder : Location) : List (String × Item) :=
  disk.entries.filterMap fun entry =>
    match entry.1.getLast? with
    | some name => if entry.1.dropLast == folder then some (name, entry.2) else none
    | none => none

/-- The entries of the folder that a path leads to, or none if it leads to no
folder. -/
def list? (disk : Disk) (path : String) : Option (List (String × Item)) :=
  match disk.locate path with
  | .error _ => none
  | .ok location =>
    match disk.item? location with
    | some .folder => some (disk.children location)
    | _ => none

end Disk
end EffectHost

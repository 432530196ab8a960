import EffectHost.Code.Run
import EffectHost.Host.Surroundings

/-!
# Functions on files

A script opens files by a path slider, by the number of a declared data file, or by a
string, and reads values, blocks of memory and strings from them.  While its state is
saved it writes to the serializer with the same functions.
-/

namespace EffectHost

open Number

namespace FileFunctions

/-- The slider whose variable an argument is. -/
def sliderOf? (header : Header) (arg : Arg) : Option Slider :=
  (arg.cell?.bind HostVariable.sliderOf?).map fun slot => header.sliders.get slot

/-- The file that a value chooses in the folder of a path slider. -/
def chosenFile? (slider : Slider) (value : Float) : Option String :=
  let choice := roundToSigned value
  if choice < 0 then none
  else slider.choices[choice.toNat]?.map fun name => slider.path ++ "/" ++ name

/-- The declared data file that a value numbers. -/
def declaredFile? (header : Header) (value : Float) : Option String :=
  let index := roundToSigned value
  if index < 0 || value.isNaN then none else header.dataFiles[index.toNat]?

/-- The name of the file that an argument asks for, and whether it may be absolute. -/
def target? (header : Header) (arg : Arg) (strings : Strings) : Option (String × Bool) :=
  match (sliderOf? header arg).filter Slider.isPath with
  | some slider => (chosenFile? slider arg.value).map fun name => (name, false)
  | none =>
    match declaredFile? header arg.value with
    | some name => some (name, false)
    | none => (strings.find? arg.value).map fun name => (name, true)

/-- The handle that the first argument names. -/
def handle (args : List Arg) : Int :=
  roundToSigned (argValue args 0)

/-- Open a file; the result is its handle, or -1. -/
def openFile (facts : Facts) (args : List Arg) (store : Store) (files : FileTable) :
    Float × FileTable :=
  let opened : Option (Nat × FileTable) := do
    let arg ← args.head?
    let target ← target? facts.header arg store.strings
    let path ← DataFile.find? facts.disk target.1 target.2 facts.folder? facts.dataRoot?
    let file ← (DataFile.openPath facts.disk facts.formats path).toOption
    (files.insert file).toOption
  match opened with
  | some (index, table) => (Float.ofNat index, table)
  | none => (-1.0, files)

/-- Close a file; the result is zero, or -1 if it was not open. -/
def close (args : List Arg) (files : FileTable) : Float × FileTable :=
  match files.close (handle args) with
  | .ok table => (0.0, table)
  | .error _ => (-1.0, files)

/-- Go back to the beginning of a file; the result is its handle, or -1. -/
def rewind (args : List Arg) (files : FileTable) : Float × FileTable :=
  let done := files.withFile (handle args) fun file => ((), file.rewind)
  (if done.1.isSome then Float.ofInt (handle args) else -1.0, done.2)

/-- Read a value into a variable, or write one; the result tells whether it was done. -/
def value (args : List Arg) (store : Store) (files : FileTable) :
    Float × Store × FileTable :=
  match args[1]? with
  | none => (0.0, store, files)
  | some arg =>
    let done := files.withFile (handle args) fun file =>
      if file.isWriting then
        let written := file.writeValue arg.value
        ((written.1, store), written.2)
      else
        match file.readValue with
        | (some value, next) => ((true, arg.assign store value), next)
        | (none, next) => ((false, store), next)
    match done.1 with
    | some (success, store) => (if success then 1.0 else 0.0, store, done.2)
    | none => (0.0, store, done.2)

/-- Slots moved at a time. -/
def blockSlots : Nat := 4096

/-- Read values into memory, `left` of them from an address on; also how many there
were. -/
def readBlocks (left address : Nat) (store : Store) (file : OpenFile) :
    Nat × Store × OpenFile :=
  if left = 0 then (0, store, file)
  else
    let wanted := min left blockSlots
    let read := file.readValues wanted
    let stored := store.writeRange address read.1
    if stored.1 < wanted then (stored.1, stored.2, read.2)
    else
      let more := readBlocks (left - wanted) (address + wanted) stored.2 read.2
      (wanted + more.1, more.2)
termination_by left
decreasing_by simp only [blockSlots]; omega

/-- Write values from memory, `left` of them from an address on; also how many there
were. -/
def writeBlocks (left address : Nat) (memory : Memory) (file : OpenFile) : Nat × OpenFile :=
  if left = 0 then (0, file)
  else
    let wanted := min left blockSlots
    let values := memory.readRange address wanted
    let written := values.foldl (fun file value => (file.writeValue value).2) file
    if values.size < wanted then (values.size, written)
    else
      let more := writeBlocks (left - wanted) (address + wanted) memory written
      (wanted + more.1, more.2)
termination_by left
decreasing_by simp only [blockSlots]; omega

/-- Move a block between a file and memory; the result is the number of values moved. -/
def block (args : List Arg) (store : Store) (files : FileTable) :
    Float × Store × FileTable :=
  let address := argValue args 1
  let count := argValue args 2
  if address < 0.0 || count ≤ 0.0 then (0.0, store, files)
  else
    let start := toNatural address
    let left := min (toNatural count) maxMemorySlots
    let done := files.withFile (handle args) fun file =>
      if file.isWriting then
        let written := writeBlocks left start store.memory file
        ((written.1, store), written.2)
      else
        let read := readBlocks left start store file
        ((read.1, read.2.1), read.2.2)
    match done.1 with
    | some (moved, store) => (Float.ofNat moved, store, done.2)
    | none => (0.0, store, done.2)

/-- Number of values left to read; zero if the file is not open. -/
def available (args : List Arg) (files : FileTable) : Float :=
  match files.get? (handle args) with
  | some file => Float.ofInt file.available
  | none => 0.0

/-- Tell the channels and the rate of an audio file, zero for any other; the result is the
handle, or -1 if the file is not open. -/
def audioShape (args : List Arg) (store : Store) (files : FileTable) : Float × Store :=
  match files.get? (handle args) with
  | none => (-1.0, store)
  | some file =>
    let shape := file.audioShape?.getD (0, 0)
    let told := assignArg args 1 store (Float.ofNat shape.1)
    (Float.ofInt (handle args), assignArg args 2 told (Float.ofNat shape.2))

/-- The file is open and is read as text. -/
def isText (args : List Arg) (files : FileTable) : Float :=
  match files.get? (handle args) with
  | some file => if file.isText then 1.0 else 0.0
  | none => 0.0

/-- Read a string, or write one; the result tells whether it was done. -/
def string (args : List Arg) (store : Store) (files : FileTable) :
    Float × Store × FileTable :=
  let id := argValue args 1
  let done := files.withFile (handle args) fun file =>
    if file.isWriting then
      let written := file.writeString ((store.strings.find? id).getD "")
      ((written.1, store), written.2)
    else
      match file.readString with
      | (some text, next) => (store.setString id text, next)
      | (none, next) => ((false, store), next)
  match done.1 with
  | some (success, store) => (if success then 1.0 else 0.0, store, done.2)
  | none => (0.0, store, done.2)

end FileFunctions
end EffectHost

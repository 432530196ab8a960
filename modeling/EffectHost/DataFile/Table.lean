import EffectHost.DataFile.Handle
import EffectHost.Failure

/-!
# Table of open files

A script knows its open files by number.  Number zero is always the serializer, which
can be neither closed nor replaced; up to sixty-three files have the other numbers, and
a file that is opened gets the least number that is free.
-/

namespace EffectHost

/-- Number of handles, the serializer's included. -/
def maxFileHandles : Nat := 64

/-- The open files.  File number `k + 1` stands at position `k`; what is closed leaves a gap,
except at the end. -/
structure FileTable where
  serializer : Serializer := {}
  files : List (Option OpenFile) := []

namespace FileTable

/-- The position of a handle past zero. -/
def position? (handle : Int) : Option Nat :=
  if 0 < handle then some (handle - 1).toNat else none

/-- The file of a handle. -/
def get? (table : FileTable) (handle : Int) : Option OpenFile :=
  if handle = 0 then some (.serializer table.serializer)
  else (position? handle).bind fun position => table.files[position]?.join

/-- Put a file back behind a handle that is open. -/
def put (table : FileTable) (handle : Int) (file : OpenFile) : FileTable :=
  if handle = 0 then
    match file with
    | .serializer state => { table with serializer := state }
    | _ => table
  else
    match position? handle with
    | some position => { table with files := table.files.set position (some file) }
    | none => table

/-- Run an operation on an open file. -/
def withFile (table : FileTable) (handle : Int) (operation : OpenFile → α × OpenFile) :
    Option α × FileTable :=
  match table.get? handle with
  | some file =>
    let done := operation file
    (some done.1, table.put handle done.2)
  | none => (none, table)

/-- Why no further file can be opened. -/
def exhausted : Failure :=
  .exhausted ("file handles (limit " ++ toString maxFileHandles ++ ")")

/-- Store a file in the first gap, or else behind all others if there is room. -/
def insert (table : FileTable) (file : OpenFile) : Except Failure (Nat × FileTable) :=
  match table.files.findIdx? Option.isNone with
  | some position =>
    .ok (position + 1, { table with files := table.files.set position (some file) })
  | none =>
    if table.files.length + 1 < maxFileHandles then
      .ok (table.files.length + 1, { table with files := table.files ++ [some file] })
    else .error exhausted

/-- Give up the gaps at the end. -/
def trimmed (files : List (Option OpenFile)) : List (Option OpenFile) :=
  (files.reverse.dropWhile Option.isNone).reverse

/-- Close a file. -/
def close (table : FileTable) (handle : Int) : Except Failure FileTable :=
  match position? handle with
  | some position =>
    if (table.files[position]?.join).isSome then
      .ok { table with files := trimmed (table.files.set position none) }
    else .error (.unknownHandle handle)
  | none => .error (.unknownHandle handle)

/-- Close every file but the serializer. -/
def clear (table : FileTable) : FileTable :=
  { table with files := [] }

/-- Number of open files, the serializer included. -/
def openCount (table : FileTable) : Nat :=
  1 + table.files.countP Option.isSome

/-- Begin to save or to restore. -/
def beginSerialize (table : FileTable) (mode : SerializeMode) (data : ByteArray) : FileTable :=
  { table with serializer := Serializer.start mode data }

/-- Stop saving or restoring.  The bytes of the serializer are given out and forgotten. -/
def endSerialize (table : FileTable) : ByteArray × FileTable :=
  (table.serializer.stream.bytes, { table with serializer := {} })

end FileTable
end EffectHost

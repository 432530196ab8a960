import EffectHost.Number.Whole
import Std.Data.HashMap

/-!
# What running code reads and writes

Variables are cells, and a cell keeps its identity for as long as anything refers to it:
it is never given to another variable.  Memory is a map from addresses below a limit to
values, zero where nothing was stored.  The limit may lie beyond what a list can hold, but
to store a value there fails.  Strings have numbers; the low ones belong to the script, and
each quoted text of its code gets a number of its own from ten thousand upwards.
-/

namespace EffectHost

open Number

/-- A variable cell. -/
structure Cell where
  index : Nat
deriving DecidableEq, Repr

/-- Memory size unless a script asks for another one. -/
def standardMemorySlots : Nat := 8 * twoTo 20

/-- Greatest memory size. -/
def maxMemorySlots : Nat := 32 * twoTo 20

/-- Length of the longest list of values.  A value takes eight bytes, and the bytes of a list are
counted by a signed number of 64 bits.  Whether the system has that much storage to give, and what
room is taken ahead of need, does not count here. -/
def longestList : Nat := twoTo 60 - 1

/-- Memory, of which only stored values are kept. -/
structure Memory where
  limit : Nat := standardMemorySlots
  slots : Std.HashMap Nat Float := ∅

namespace Memory

/-- The value at an address. -/
def read (memory : Memory) (address : Nat) : Float :=
  if address < memory.limit then memory.slots.getD address 0.0 else 0.0

/-- Store a value; past the limit nothing is stored. -/
def write (memory : Memory) (address : Nat) (value : Float) : Memory :=
  if address < memory.limit then { memory with slots := memory.slots.insert address value }
  else memory

/-- How many of `count` slots from an address on are below the limit. -/
def covered (memory : Memory) (address count : Nat) : Nat :=
  min count (memory.limit - address)

/-- The values of those of `count` slots that are below the limit. -/
def readRange (memory : Memory) (address count : Nat) : Array Float :=
  Array.ofFn fun position : Fin (memory.covered address count) =>
    memory.read (address + position)

/-- Store values from an address on, as far as the limit allows; also how many were
stored. -/
def writeRange (memory : Memory) (address : Nat) (values : Array Float) : Nat × Memory :=
  let count := memory.covered address values.size
  (count, ((values.toList.take count).foldl (fun state value =>
    (state.1 + 1, state.2.write state.1 value)) (address, memory)).2)

/-- Set the limit.  Values past it are gone for good. -/
def setLimit (memory : Memory) (limit : Nat) : Memory where
  limit := limit
  slots := memory.slots.filter fun address _ => address < limit

/-- Forget all values. -/
def clear (memory : Memory) : Memory :=
  { memory with slots := ∅ }

/-- Some list reaches up to the last value that is stored. -/
def isHeld (memory : Memory) : Bool :=
  memory.slots.all fun address _ => address < longestList

/-- The address of a slot that is read.  There is none below zero, and what is no number
counts as zero. -/
def readAddress? (position : Float) : Option Nat :=
  if position < 0.0 then none else some (toNatural position)

/-- The address of a slot that is written. -/
def writeAddress? (position : Float) : Option Nat :=
  if 0.0 ≤ position then some (toNatural position) else none

end Memory

/-- Number of strings that belong to the script. -/
def userStrings : Nat := 1024

/-- Number of the first quoted text. -/
def firstLiteral : Nat := 10000

/-- The strings of a machine. -/
structure Strings where
  texts : Std.HashMap Nat String := ∅
  nextLiteral : Nat := firstLiteral

namespace Strings

/-- The number of a string, which is whole and not negative. -/
def key? (id : Float) : Option Nat :=
  if isWhole id && 0.0 ≤ id then some (toSigned id).toNat else none

/-- The string of a number. -/
def find? (strings : Strings) (id : Float) : Option String :=
  (key? id).bind fun key => strings.texts[key]?

/-- Replace a string.  A number past the script's own ones must be in use already. -/
def set? (strings : Strings) (id : Float) (text : String) : Option Strings :=
  match key? id with
  | some key =>
    if key < userStrings || strings.texts.contains key then
      some { strings with texts := strings.texts.insert key text }
    else none
  | none => none

/-- Give a number to a quoted text. -/
def addLiteral (strings : Strings) (text : String) : Nat × Strings :=
  (strings.nextLiteral,
    { texts := strings.texts.insert strings.nextLiteral text
      nextLiteral := strings.nextLiteral + 1 })

/-- Forget the script's own strings. -/
def forgetUser (strings : Strings) : Strings :=
  { strings with texts := strings.texts.filter fun key _ => userStrings ≤ key }

end Strings

/-- Cells, memory and strings. -/
structure Store where
  cells : Array Float := #[]
  memory : Memory := {}
  strings : Strings := {}

namespace Store

/-- The value of a cell. -/
def get (store : Store) (cell : Cell) : Float :=
  store.cells.getD cell.index 0.0

/-- Store a value in a cell. -/
def set (store : Store) (cell : Cell) (value : Float) : Store :=
  { store with cells := store.cells.setIfInBounds cell.index value }

/-- A cell that was never used before. -/
def addCell (store : Store) : Cell × Store :=
  (⟨store.cells.size⟩, { store with cells := store.cells.push 0.0 })

/-- The value at a position in memory. -/
def readItem (store : Store) (position : Float) : Float :=
  match Memory.readAddress? position with
  | some address => store.memory.read address
  | none => 0.0

/-- Store a value at a position in memory. -/
def writeItem (store : Store) (position value : Float) : Store :=
  match Memory.writeAddress? position with
  | some address => { store with memory := store.memory.write address value }
  | none => store

/-- Store values in memory from an address on; also how many were stored. -/
def writeRange (store : Store) (address : Nat) (values : Array Float) : Nat × Store :=
  let done := store.memory.writeRange address values
  (done.1, { store with memory := done.2 })

/-- Replace a string; whether that was possible. -/
def setString (store : Store) (id : Float) (text : String) : Bool × Store :=
  match store.strings.set? id text with
  | some strings => (true, { store with strings := strings })
  | none => (false, store)

end Store
end EffectHost

import EffectHost.Code.Parser
import EffectHost.Code.Store
import Std.Data.HashSet

/-!
# The expression machine

The machine keeps the programs that were compiled and the cells that the names in their
code denote.  A name denotes the cell that the caller assigns to it, or else one cell for
all code; the names that the host has registered keep their cells when the machine is
reset.  Code that cannot be read adds no program, but the names and texts in front of the
fault are known from then on.
-/

namespace EffectHost

open Code

/-- A program that can run: variables are cells, and texts are their numbers. -/
abbrev Program := List (Expr Cell Nat)

/-- Names and programs. -/
structure Codebase where
  names : Std.HashMap String Cell := ∅
  /-- The names of the host. -/
  registered : Std.HashSet String := ∅
  programs : Std.HashMap Nat Program := ∅
  nextProgram : Nat := 1
  /-- The memory that the script shares with others. -/
  sharedMemory : Option String := none

/-- A machine. -/
structure Machine where
  store : Store := {}
  code : Codebase := {}

namespace Machine

/-- The cell of a name, which is made if there is none. -/
def cellOf (machine : Machine) (name : String) : Cell × Machine :=
  match machine.code.names[name]? with
  | some cell => (cell, machine)
  | none =>
    let fresh := machine.store.addCell
    (fresh.1, { store := fresh.2
                code := { machine.code with names := machine.code.names.insert name fresh.1 } })

/-- The value of a name that is known. -/
def value? (machine : Machine) (name : String) : Option Float :=
  machine.code.names[name]?.map machine.store.get

/-- Make a name one of the host's. -/
def register (machine : Machine) (name : String) : Cell × Machine :=
  let known := machine.cellOf name
  (known.1, { known.2 with
    code := { known.2.code with registered := known.2.code.registered.insert name } })

/-- The cell of a name in code.  What the caller assigns to names comes first. -/
def link (resolve : String → Option Cell) (machine : Machine) (name : String) :
    Cell × Machine :=
  match resolve name with
  | some cell => (cell, machine)
  | none => machine.cellOf name

/-- Give a number to a quoted text. -/
def addLiteral (machine : Machine) (text : String) : Nat × Machine :=
  let added := machine.store.strings.addLiteral text
  (added.1, { machine with store := { machine.store with strings := added.2 } })

mutual

/-- Replace names by cells and texts by numbers, in the order of the source. -/
def linkExpr (resolve : String → Option Cell) : SourceExpr → Machine →
    Expr Cell Nat × Machine
  | .number value, machine => (.number value, machine)
  | .text content, machine =>
    let id := machine.addLiteral content
    (.text id.1, id.2)
  | .variable name, machine =>
    let cell := machine.link resolve name
    (.variable cell.1, cell.2)
  | .item base index, machine =>
    let base := linkExpr resolve base machine
    let index := linkExpr resolve index base.2
    (.item base.1 index.1, index.2)
  | .negate operand, machine =>
    let operand := linkExpr resolve operand machine
    (.negate operand.1, operand.2)
  | .binary op left right, machine =>
    let left := linkExpr resolve left machine
    let right := linkExpr resolve right left.2
    (.binary op left.1 right.1, right.2)
  | .call function arguments, machine =>
    let arguments := linkAll resolve arguments machine
    (.call function arguments.1, arguments.2)
  | .assign name value, machine =>
    let cell := machine.link resolve name
    let value := linkExpr resolve value cell.2
    (.assign cell.1 value.1, value.2)
  | .assignItem base index value, machine =>
    let base := linkExpr resolve base machine
    let index := linkExpr resolve index base.2
    let value := linkExpr resolve value index.2
    (.assignItem base.1 index.1 value.1, value.2)
termination_by structural expression => expression

/-- Link expressions one after another. -/
def linkAll (resolve : String → Option Cell) : List SourceExpr → Machine →
    List (Expr Cell Nat) × Machine
  | [], machine => ([], machine)
  | first :: others, machine =>
    let first := linkExpr resolve first machine
    let others := linkAll resolve others first.2
    (first.1 :: others.1, others.2)
termination_by structural expressions => expressions

end

/-- Get to know the names and texts among some tokens.  A name in front of an opening
parenthesis is that of a function. -/
def noteTokens (resolve : String → Option Cell) : List Token → Machine → Machine
  | [], machine => machine
  | token :: rest, machine =>
    match token.lexeme with
    | .name name =>
      if (takeSymbol? .openParen rest).isSome then noteTokens resolve rest machine
      else noteTokens resolve rest (machine.link resolve name).2
    | .text content => noteTokens resolve rest (machine.addLiteral content).2
    | _ => noteTokens resolve rest machine

/-- Add a program. -/
def addProgram (machine : Machine) (program : Program) : Nat × Machine :=
  let id := machine.code.nextProgram
  (id, { machine with
    code := { machine.code with
      programs := machine.code.programs.insert id program
      nextProgram := id + 1 } })

/-- Compile code.  The result is the number of the program. -/
def compile (machine : Machine) (source : String) (resolve : String → Option Cell) :
    Except Fault Nat × Machine :=
  match Token.scan source with
  | .error fault => (.error fault, machine)
  | .ok tokens =>
    match program tokens with
    | .ok statements =>
      let linked := linkAll resolve statements machine
      let added := linked.2.addProgram linked.1
      (.ok added.1, added.2)
    | .error stop =>
      let read := tokens.take (tokens.length - stop.unread.length)
      (.error ⟨stop.line tokens, stop.cause⟩, noteTokens resolve read machine)

/-- Give a program up. -/
def free (machine : Machine) (id : Nat) : Machine :=
  { machine with code := { machine.code with programs := machine.code.programs.erase id } }

/-- Give several programs up. -/
def freeAll (machine : Machine) (ids : List Nat) : Machine :=
  ids.foldl free machine

/-- Number of programs. -/
def programCount (machine : Machine) : Nat :=
  machine.code.programs.size

/-- Set the size of the memory. -/
def setMemoryLimit (machine : Machine) (limit : Nat) : Machine :=
  { machine with
    store := { machine.store with memory := machine.store.memory.setLimit limit } }

/-- The machine after something that was done to it.  There is none if a value was stored where no
list reaches: then what was done has failed. -/
def held? (machine : Machine) : Option Machine :=
  if machine.store.memory.isHeld then some machine else none

/-- Forget the names, memory and strings of the script. -/
def reset (machine : Machine) : Machine where
  store := { machine.store with
    memory := machine.store.memory.clear
    strings := machine.store.strings.forgetUser }
  code := { machine.code with
    names := machine.code.names.filter fun name _ => machine.code.registered.contains name }

end Machine

/-- A fault in words, with its line in a file where the code begins behind `offset`
lines. -/
def Code.Fault.report (fault : Fault) (offset : Nat) : String :=
  "line " ++ toString (offset + fault.line + 1) ++ ": " ++ fault.cause.message

end EffectHost

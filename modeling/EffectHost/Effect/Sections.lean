import EffectHost.Code.Machine
import EffectHost.Effect.Script

/-!
# Compiled sections

Of a loaded script every init section is compiled, those of imported units first, and of
every other kind the one section that the effect runs.  If one of them does not compile,
the programs of all others are given up again.
-/

namespace EffectHost

open Text

/-- Which sections are left out. -/
structure CompileOptions where
  skipDrawing : Bool := false
  skipSerialize : Bool := false
deriving DecidableEq, Repr

namespace CompileOptions

/-- The sections of a kind are compiled. -/
def includes (options : CompileOptions) : SectionKind → Bool
  | .gfx => !options.skipDrawing
  | .serialize => !options.skipSerialize
  | _ => true

end CompileOptions

namespace LoadedScript

/-- Every init section, that of the script itself last. -/
def initSections (script : LoadedScript) : List Section :=
  (script.imports ++ [script.main]).filterMap fun unit => unit.section? .init

/-- The sections to compile, in this order. -/
def sectionsToCompile (script : LoadedScript) (options : CompileOptions) : List Section :=
  script.initSections ++ (SectionKind.single.filter options.includes).filterMap script.section?

/-- Slots of memory that the script may use. -/
def memorySlots (script : LoadedScript) : Nat :=
  min (script.header.options.memorySlots.getD standardMemorySlots) maxMemorySlots

end LoadedScript

/-- The programs of the sections, in the order in which they were compiled. -/
structure CompiledSections where
  programs : List (SectionKind × Nat) := []
deriving DecidableEq, Repr

namespace CompiledSections

/-- The programs of a kind. -/
def ofKind (sections : CompiledSections) (kind : SectionKind) : List Nat :=
  sections.programs.filterMap fun (other, id) => if other = kind then some id else none

/-- The init programs, in the order in which they run. -/
def inits (sections : CompiledSections) : List Nat :=
  sections.ofKind .init

/-- The program of a kind of which there is one at most. -/
def single? (sections : CompiledSections) (kind : SectionKind) : Option Nat :=
  (sections.ofKind kind).head?

/-- The numbers of all programs. -/
def ids (sections : CompiledSections) : List Nat :=
  sections.programs.map Prod.snd

/-- Give the programs up. -/
def release (sections : CompiledSections) (machine : Machine) : Machine :=
  machine.freeAll sections.ids

/-- The drawing program, and the sections without it. -/
def takeDrawing (sections : CompiledSections) : Option Nat × CompiledSections :=
  (sections.single? .gfx, ⟨sections.programs.filter fun entry => entry.1 ≠ .gfx⟩)

/-- The line that a message names in front of everything else it tells. -/
def toldLine? (message : String) : Option Nat :=
  (afterPrefix? "line ".toList message.toList).bind fun behind =>
    let digits := behind.takeWhile isDigit
    if digits.isEmpty || digits.length == behind.length then none else some (digitsValue digits)

/-- The failure to compile a section.  Where the message names no line, it is the first one of
the section. -/
def failureOf (part : Section) (fault : Code.Fault) : Failure :=
  let message := fault.report part.lineOffset
  .uncompilable part.kind ((toldLine? message).getD (part.lineOffset + 1)) message

/-- Compile sections behind those that are compiled already. -/
def compileAll (resolve : String → Option Cell) :
    List Section → CompiledSections → Machine → Except Failure CompiledSections × Machine
  | [], done, machine => (.ok done, machine)
  | part :: others, done, machine =>
    match machine.compile part.text resolve with
    | (.ok id, machine) => compileAll resolve others ⟨done.programs ++ [(part.kind, id)]⟩ machine
    | (.error fault, machine) => (.error (failureOf part fault), done.release machine)

/-- A machine with the memory that a script asks for. -/
def prepare (script : LoadedScript) (machine : Machine) : Machine :=
  let sized := machine.setMemoryLimit script.memorySlots
  { sized with code := { sized.code with sharedMemory := script.header.options.sharedMemory } }

/-- Compile a script. -/
def compile (resolve : String → Option Cell) (script : LoadedScript)
    (options : CompileOptions) (machine : Machine) :
    Except Failure CompiledSections × Machine :=
  compileAll resolve (script.sectionsToCompile options) {} (prepare script machine)

end CompiledSections
end EffectHost

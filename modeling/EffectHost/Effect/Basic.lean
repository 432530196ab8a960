import EffectHost.Effect.Sections
import EffectHost.Host.Function

/-!
# Effects

An effect is a machine with the variables of the host, what its scripts reach through
host functions, and a rig that scripts do not reach: the loaded script and its programs,
the settings of the host, and the work that waits for the next cycle.  Code that does
not draw runs on the store and the surroundings alone, so that it cannot touch the rig.

The parameter `σ` is the kind of surface that drawing functions paint on.
-/

namespace EffectHost

/-- The drawing side of an effect. -/
structure Drawing (σ : Type) where
  /-- The program that drawing passes run. -/
  program? : Option Nat := none
  surface? : Option σ := none
  /-- The drawing variables have been set up for the present code and surface. -/
  isReady : Bool := false
  /-- The next drawing pass sets them up again. -/
  initRequested : Bool := false
  /-- The script can draw at a higher resolution. -/
  wantsRetina : Bool := false
  /-- A drawing pass is going on, and the machine is in use. -/
  isBusy : Bool := false

namespace Drawing

variable {σ : Type}

/-- Replace the program of drawing passes.  The result has the one that was there, which
the caller gives up. -/
def install (drawing : Drawing σ) (program? : Option Nat) : Option Nat × Drawing σ :=
  (drawing.program?, { drawing with program? := program?, isReady := false })

/-- Take the program of drawing passes away. -/
def take (drawing : Drawing σ) : Option Nat × Drawing σ :=
  drawing.install none

/-- Ask that the next drawing pass begins afresh, and note at which resolution the script
draws. -/
def requestInit (drawing : Drawing σ) (wantsRetina : Bool) : Drawing σ :=
  { drawing with initRequested := true, wantsRetina := wantsRetina }

end Drawing

/-- Work for the next cycle. -/
structure PendingWork where
  /-- The programs have not run since they were compiled. -/
  isFresh : Bool := false
  init : Bool := false
  slider : Bool := false
  /-- A slider was moved from the drawing side. -/
  sliderMoved : Bool := false
  triggers : Mask := Mask.empty
deriving DecidableEq, Repr

/-- What belongs to an effect out of the reach of scripts. -/
structure Rig (σ : Type) where
  disk : Disk
  config : Config
  code : Codebase
  script? : Option LoadedScript := none
  info? : Option ScriptInfo := none
  /-- The programs of the script, but for the one that draws. -/
  sections? : Option CompiledSections := none
  drawing : Drawing σ := {}
  pending : PendingWork := {}
  /-- Number of frames that the host announces for a cycle. -/
  blockSize : Nat := 128
  sampleRate : Float := 44100.0
  time : TimeInfo := {}

/-- An effect. -/
structure Effect (σ : Type) where
  store : Store
  around : Surroundings
  rig : Rig σ

namespace Effect

variable {σ : Type}

/-- An effect without a script. -/
def new (disk : Disk) (config : Config) : Effect σ where
  store := Machine.hosted.store
  around :=
    { input := MidiLog.new config.midiCapacity true
      output := MidiLog.new config.midiCapacity config.midiOutputExtensible }
  rig := { disk := disk, config := config, code := Machine.hosted.code }

/-- The machine of an effect. -/
def machine (effect : Effect σ) : Machine where
  store := effect.store
  code := effect.rig.code

/-- Replace the machine. -/
def withMachine (effect : Effect σ) (machine : Machine) : Effect σ :=
  { effect with store := machine.store, rig := { effect.rig with code := machine.code } }

/-- Change the work that waits. -/
def updatePending (effect : Effect σ) (change : PendingWork → PendingWork) : Effect σ :=
  { effect with rig := { effect.rig with pending := change effect.rig.pending } }

/-- Change the drawing side. -/
def updateDrawing (effect : Effect σ) (change : Drawing σ → Drawing σ) : Effect σ :=
  { effect with rig := { effect.rig with drawing := change effect.rig.drawing } }

/-- The completed header of the script; a blank one if none is loaded. -/
def header (effect : Effect σ) : Header :=
  (effect.rig.info?.map ScriptInfo.header).getD {}

/-- A script is loaded. -/
def isLoaded (effect : Effect σ) : Bool :=
  effect.rig.script?.isSome

/-- The script is compiled. -/
def isCompiled (effect : Effect σ) : Bool :=
  effect.rig.sections?.isSome

/-- What there is to know of the script is at hand. -/
def hasInfo (effect : Effect σ) : Bool :=
  effect.rig.info?.isSome

/-- The number of the program of a kind of section, if it is compiled. -/
def programId? (effect : Effect σ) (kind : SectionKind) : Option Nat :=
  if kind = .gfx then effect.rig.drawing.program?
  else effect.rig.sections?.bind fun sections => sections.single? kind

/-- The program of a number.  For a number that the machine does not know there is nothing
to run. -/
def programOf (effect : Effect σ) (id : Nat) : Program :=
  effect.rig.code.programs.getD id []

/-- The program of a kind of section, if it is compiled. -/
def program? (effect : Effect σ) (kind : SectionKind) : Option Program :=
  (effect.programId? kind).map effect.programOf

/-- The numbers of the init programs, in the order in which they run. -/
def initIds (effect : Effect σ) : List Nat :=
  (effect.rig.sections?.map CompiledSections.inits).getD []

/-- The init programs, in the order in which they run. -/
def initPrograms (effect : Effect σ) : List Program :=
  effect.initIds.map effect.programOf

/-- What host functions may know. -/
def facts (effect : Effect σ) : Facts where
  disk := effect.rig.disk
  header := effect.header
  folder? := effect.rig.info?.bind ScriptInfo.folder?
  dataRoot? := effect.rig.config.dataRoot?
  formats := effect.rig.config.formats

/-- The caller of code in a cycle. -/
def cycleCaller : Caller where
  role := .audio
  hasMidi := true

/-- The caller of code that saves or restores the script's data. -/
def serializeCaller : Caller where
  role := .audio

/-- Who runs code that does not draw. -/
def codeHost (effect : Effect σ) (caller : Caller) : CodeHost Surroundings where
  call := HostFunction.call effect.facts caller

/-- Run a program that does not draw. -/
def run (effect : Effect σ) (caller : Caller) (program : Program) : Effect σ :=
  let done := Code.run (effect.codeHost caller) program (effect.store, effect.around)
  { effect with store := done.1, around := done.2 }

/-- Run the section of a kind that does not draw, if it is compiled. -/
def runSection (effect : Effect σ) (caller : Caller) (kind : SectionKind) : Effect σ :=
  match effect.program? kind with
  | some program => effect.run caller program
  | none => effect

end Effect
end EffectHost

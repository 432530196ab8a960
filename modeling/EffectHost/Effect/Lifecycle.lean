import EffectHost.Effect.Basic

/-!
# Loading and compiling

An effect loads one script at a time and compiles it as often as the host wants.  Either
step first gives up what the same step brought before; if it fails, nothing takes its
place.
-/

namespace EffectHost
namespace Effect

variable {σ : Type}

/-- What an attempt to load or to compile leads to. -/
structure Attempt (σ : Type) where
  effect : Effect σ
  result : Except Failure Unit
  reports : List Report := []

/-- Give up the programs, and with them the names, memory and strings of the script. -/
def unloadCode (effect : Effect σ) : Effect σ :=
  let taken := effect.rig.drawing.take
  let undrawn := effect.machine.freeAll taken.1.toList
  let emptied := effect.withMachine ((effect.rig.sections?.getD {}).release undrawn).reset
  { emptied with
    rig := { emptied.rig with
      sections? := none
      drawing := taken.2
      pending := { emptied.rig.pending with isFresh := false, init := false, slider := false } } }

/-- Give up the script, its programs and its files. -/
def unload (effect : Effect σ) : Effect σ :=
  let emptied := effect.unloadCode
  { emptied with
    around := { emptied.around with files := emptied.around.files.clear }
    rig := { emptied.rig with script? := none, info? := none } }

/-- Set the declared sliders to their defaults. -/
def defaultSliders (store : Store) (header : Header) : Store :=
  (List.finRange sliderSlots).foldl (fun store slot =>
    let slider := header.sliders.get slot
    if slider.declared then store.write (.slider slot) slider.default else store) store

/-- Take a script that has been loaded. -/
def install (effect : Effect σ) (script : LoadedScript) : Effect σ where
  store := defaultSliders effect.store script.header
  around := { effect.around with
    masks := { effect.around.masks with
      visible := SliderMasks.initiallyVisible script.header } }
  rig := { effect.rig with script? := some script, info? := some script.info }

/-- Load the script at a path. -/
def load (effect : Effect σ) (path : String) (ignoreImports : Bool) : Attempt σ :=
  let emptied := effect.unload
  match LoadedScript.load emptied.rig.disk emptied.rig.config path ignoreImports with
  | (.ok script, reports) => ⟨emptied.install script, .ok (), reports⟩
  | (.error failure, reports) => ⟨emptied, .error failure, reports⟩

/-- Without a script there is nothing to compile. -/
def nothingLoaded : Failure :=
  .unusable "" "no source is loaded, cannot compile"

/-- Take the programs of a script.  The drawing program goes to the drawing side, and the
one that was there is given up. -/
def installCode (effect : Effect σ) (sections : CompiledSections) : Effect σ :=
  let parted := sections.takeDrawing
  let installed := effect.rig.drawing.install parted.1
  let cleaned := effect.withMachine (effect.machine.freeAll installed.1.toList)
  { cleaned with
    rig := { cleaned.rig with
      sections? := some parted.2
      drawing := installed.2
      pending := { cleaned.rig.pending with isFresh := true, init := true, slider := true } } }

/-- Compile the loaded script. -/
def compile (effect : Effect σ) (options : CompileOptions) : Attempt σ :=
  let emptied := effect.unloadCode
  match emptied.rig.script?, emptied.rig.info? with
  | some script, some info =>
    match CompiledSections.compile info.aliases.cell? script options emptied.machine with
    | (.ok sections, machine) => ⟨(emptied.withMachine machine).installCode sections, .ok (), []⟩
    | (.error failure, machine) =>
      ⟨emptied.withMachine machine, .error failure, [⟨.error, failure.message⟩]⟩
  | _, _ => ⟨emptied, .error nothingLoaded, [⟨.error, nothingLoaded.message⟩]⟩

end Effect
end EffectHost

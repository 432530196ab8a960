import EffectHost.Proofs.Effect.Grounded

/-!
# Pins have channel variables

However many pins a script declares, its header keeps no more in either direction than there
are channel variables.  So wherever an effect has been led, every declared channel has a
variable through which the script can reach it.
-/

namespace EffectHost

/-- There are no more pins than channel variables, in either direction. -/
structure Header.Pinned (header : Header) : Prop where
  inputs : header.inPins.count ≤ channelVariables
  outputs : header.outPins.count ≤ channelVariables

theorem Pins.count_limit (pins : Pins) : pins.limit.count ≤ channelVariables := by
  cases pins with
  | unspecified => exact Nat.zero_le _
  | none => exact Nat.zero_le _
  | named names => exact (List.length_take_le maxPins names)

namespace Header

theorem pinned_empty : ({} : Header).Pinned :=
  ⟨Nat.zero_le _, Nat.zero_le _⟩

theorem pinned_parse (text : String) : (parse text).Pinned :=
  ⟨Pins.count_limit _, Pins.count_limit _⟩

theorem Pinned.withStandardPins {header : Header} (pinned : header.Pinned) (hasSample : Bool) :
    (header.withStandardPins hasSample).Pinned := by
  rw [Header.withStandardPins]
  split
  · have two : 2 ≤ channelVariables := by decide
    exact ⟨two, two⟩
  · exact pinned

end Header

/-- A header keeps no more pins than there can be, whatever else it declares. -/
theorem ScriptUnit.pinned_load {disk : Disk} {path : String} {unit : ScriptUnit}
    (loaded : ScriptUnit.load disk path = .ok unit) : unit.header.Pinned := by
  rw [ScriptUnit.load] at loaded
  split at loaded
  · cases loaded
  · next bytes _ =>
      rw [ScriptUnit.parse] at loaded
      dsimp only at loaded
      cases sections : ScriptUnit.readSections
          (ScriptUnit.splitAtMarkers (Line.ofText (Utf8.decode bytes))).2 with
      | error failure =>
          rw [sections] at loaded
          cases loaded
      | ok sections =>
          rw [sections] at loaded
          cases loaded
          exact (Header.pinned_parse _).withStandardPins _

/-- What happens to the header of a script on the way leaves its pins. -/
theorem LoadedScript.pinned_of_load {disk : Disk} {config : Config} {path : String}
    {ignoreImports : Bool} {script : LoadedScript} {reports : List Report}
    (loaded : load disk config path ignoreImports = (.ok script, reports)) :
    script.header.Pinned := by
  rw [load] at loaded
  split at loaded
  · cases loaded
  · next unit read =>
      have own := ScriptUnit.pinned_load read
      have described : (describe unit path).1.header.Pinned := by
        rw [describe]
        split
        · exact ⟨own.inputs, own.outputs⟩
        · exact own
      dsimp only at loaded
      split at loaded
      · cases loaded
      · cases loaded
        split <;> exact ⟨described.inputs, described.outputs⟩

namespace Effect

variable {σ : Type} {painter : Painter σ} {config : Config}

theorem header_compile (effect : Effect σ) (options : CompileOptions) :
    (effect.compile options).effect.header = effect.header := by
  rw [compile]
  split
  · split <;> rfl
  · rfl

/-- Wherever an effect has been led, its header has no more pins than there are channel
variables. -/
theorem Reached.pinned {effect : Effect σ} (reached : Reached painter config effect) :
    effect.header.Pinned := by
  induction reached with
  | new disk => exact Header.pinned_empty
  | load before path ignoreImports ih =>
      rw [Effect.load]
      split
      · next script reports loaded => exact LoadedScript.pinned_of_load loaded
      · exact Header.pinned_empty
  | compile before options ih =>
      rw [header_compile]
      exact ih
  | unloadCode before ih => exact ih
  | unload before ih => exact Header.pinned_empty
  | @moment effect before next ih =>
      have same : (effect.moment painter next).header = effect.header := by
        rw [header, header, (keepsCode_moment painter effect next).info]
      rw [same]
      exact ih

end Effect
end EffectHost

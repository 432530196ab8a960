import EffectHost.Effect.Script
import Mathlib

/-!
# Sliders know their slots

The slider at a position of a header says itself which position that is.  Reading a
header puts every slider into the slot that it names, and what happens to the header of a
loaded script afterwards changes sliders where they are.
-/

namespace EffectHost

/-- Every slider stands in the slot that it names. -/
def Header.Slotted (header : Header) : Prop :=
  ∀ slot : Fin sliderSlots, (header.sliders.get slot).slot = slot

namespace Slider

theorem slot_withDescription (slider : Slider) (text : List Char) :
    (slider.withDescription text).slot = slider.slot := by
  rw [withDescription]
  split <;> rfl

theorem slot_withRange (slider : Slider) (text : List Char) :
    (slider.withRange text).slot = slider.slot := by
  rw [withRange]
  split <;> rfl

theorem slot_withPath (slider : Slider) (text : List Char) :
    (slider.withPath text).slot = slider.slot :=
  slot_withDescription _ _

theorem slot_withDefault (slider : Slider) (text : List Char) :
    (slider.withDefault text).slot = slider.slot := by
  rw [withDefault]
  split
  · rw [slot_withDescription, slot_withRange]
  · rw [slot_withDescription]

theorem slot_parse (slot : Nat) (text : List Char) : (parse slot text).slot = slot := by
  rw [parse]
  dsimp only
  cases splitName? (Text.trimStart text) <;> dsimp only
  all_goals
    split
    · exact slot_withPath _ _
    · exact slot_withDefault _ _

theorem slot_withChoiceRange (slider : Slider) : slider.withChoiceRange.1.slot = slider.slot := by
  rw [withChoiceRange]
  split <;> rfl

end Slider

namespace Header

section Sliders

variable {holds : Fin sliderSlots → Slider → Prop}

/-- A declaration puts at most a slider that was read into a slot. -/
theorem forall_declare (read : ∀ (slot : Fin sliderSlots) text, holds slot (.parse slot text))
    {header : Header} (all : ∀ slot, holds slot (header.sliders.get slot))
    (declaration : Declaration) :
    ∀ slot, holds slot ((header.declare declaration).sliders.get slot) := by
  cases declaration with
  | slider slot text =>
      intro other
      change holds other ((header.sliders.set slot (Slider.parse slot text)).get other)
      by_cases same : slot = other
      · subst same
        simpa [Vector.get_eq_getElem] using read slot text
      · have different : slot.val ≠ other.val := fun equal => same (Fin.ext equal)
        rw [Vector.get_eq_getElem, Vector.getElem_set_ne _ _ different]
        exact all other
  | dataFile index name =>
      rw [declare]
      split <;> exact all
  | description | author | tags | inPin | outPin | options | importFile => exact all

/-- What holds of absent sliders and of those that are read holds of all sliders of a
header. -/
theorem forall_parse (absent : ∀ slot : Fin sliderSlots, holds slot (.absent slot))
    (read : ∀ (slot : Fin sliderSlots) text, holds slot (.parse slot text)) (text : String) :
    ∀ slot, holds slot ((parse text).sliders.get slot) := by
  have declared : ∀ (declarations : List Declaration) (header : Header),
      (∀ slot, holds slot (header.sliders.get slot)) →
        ∀ slot, holds slot ((declarations.foldl declare header).sliders.get slot) := by
    intro declarations
    induction declarations with
    | nil => exact fun _ all => all
    | cons declaration others ih =>
        exact fun header all => ih _ (forall_declare read all declaration)
  apply declared ((lines text).filterMap Declaration.ofLine?) {}
  intro slot
  simpa [Vector.get_eq_getElem] using absent slot

theorem forall_withStandardPins {header : Header}
    (all : ∀ slot, holds slot (header.sliders.get slot)) (hasSample : Bool) :
    ∀ slot, holds slot ((header.withStandardPins hasSample).sliders.get slot) := by
  rw [withStandardPins]
  split <;> exact all

end Sliders

theorem slotted_empty : ({} : Header).Slotted := by
  intro slot
  simp [Vector.get_eq_getElem, Slider.absent]

/-- Changes that leave every slider its slot leave it in place. -/
theorem slotted_map {header : Header} (slotted : header.Slotted) {change : Slider → Slider}
    (kept : ∀ slider, (change slider).slot = slider.slot) :
    ({ header with sliders := header.sliders.map change } : Header).Slotted := by
  intro slot
  rw [Vector.get_eq_getElem, Vector.getElem_map, kept]
  exact slotted slot

end Header

/-- What holds of absent sliders and of those that are read holds of all sliders of a unit. -/
theorem ScriptUnit.forall_load (holds : Fin sliderSlots → Slider → Prop)
    (absent : ∀ slot : Fin sliderSlots, holds slot (.absent slot))
    (read : ∀ (slot : Fin sliderSlots) text, holds slot (.parse slot text)) {disk : Disk}
    {path : String} {unit : ScriptUnit} (loaded : ScriptUnit.load disk path = .ok unit) :
    ∀ slot, holds slot (unit.header.sliders.get slot) := by
  have parsed : ∀ (text : String) (unit : ScriptUnit), ScriptUnit.parse text = .ok unit →
      ∀ slot, holds slot (unit.header.sliders.get slot) := by
    intro text unit made
    rw [ScriptUnit.parse] at made
    dsimp only at made
    cases sections : ScriptUnit.readSections (ScriptUnit.splitAtMarkers (Line.ofText text)).2 with
    | error failure =>
        rw [sections] at made
        cases made
    | ok sections =>
        rw [sections] at made
        cases made
        exact Header.forall_withStandardPins (Header.forall_parse absent read _) _
  rw [ScriptUnit.load] at loaded
  split at loaded
  · cases loaded
  · next bytes _ =>
      cases made : ScriptUnit.parse (Utf8.decode bytes) with
      | error failure =>
          rw [made] at loaded
          cases loaded
      | ok own =>
          rw [made] at loaded
          cases loaded
          exact parsed _ own made

namespace LoadedScript

theorem slotted_unit {disk : Disk} {path : String} {unit : ScriptUnit}
    (loaded : ScriptUnit.load disk path = .ok unit) : unit.header.Slotted :=
  ScriptUnit.forall_load (fun slot slider => slider.slot = slot) (fun _ => rfl)
    (fun slot => Slider.slot_parse slot) loaded

theorem slotted_complete {unit : ScriptUnit} (slotted : unit.header.Slotted) (disk : Disk)
    (config : Config) : (complete disk config unit).1.header.Slotted := by
  apply Header.slotted_map _ Slider.slot_withChoiceRange
  apply Header.slotted_map slotted
  intro slider
  rw [withListedChoices]
  split
  · split <;> rfl
  · rfl

/-- Every slider of a loaded script stands in the slot that it names. -/
theorem slotted_of_load {disk : Disk} {config : Config} {path : String}
    {ignoreImports : Bool} {script : LoadedScript} {reports : List Report}
    (loaded : load disk config path ignoreImports = (.ok script, reports)) :
    script.header.Slotted := by
  rw [load] at loaded
  split at loaded
  · cases loaded
  · next unit read =>
      have own := slotted_unit read
      have described : (describe unit path).1.header.Slotted := by
        rw [describe]
        split <;> exact own
      dsimp only at loaded
      split at loaded
      · cases loaded
      · cases loaded
        apply slotted_complete
        split <;> exact described

end LoadedScript
end EffectHost

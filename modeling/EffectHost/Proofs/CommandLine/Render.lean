import EffectHost.CommandLine.Run
import EffectHost.Proofs.Effect.Chunks
import EffectHost.Proofs.Effect.Names

/-!
# Renderings and block sizes

A rendering cuts an audio file into blocks of the size that the user asks for.  The size
reaches the script in three ways: as the number of frames of each cycle, as the variable
that tells it, and as a setting of the effect that is due to be told before the first init.
A script that does not look at it is rendered alike at all sizes.
-/

namespace EffectHost

open Channel

namespace Effect

open Rig

variable {σ : Type} {config : Config}

/-- What a host does between cycles leaves steady code steady if no event is sent. -/
theorem Steady.actInCycle {effect : Effect σ} (steady : effect.Steady config)
    (action : CycleAction)
    (input : (effect.actInCycle action).around.input = effect.around.input) :
    (effect.actInCycle action).Steady config := by
  have keeps := KeepsCode.of_continues (continues_actInCycle effect action)
  have compiled : (effect.actInCycle action).isCompiled = true := by
    rw [isCompiled, keeps.sections]
    exact steady.compiled
  refine ⟨grounded_actInCycle steady.grounded action, steady.grows, compiled,
    steady.ignores.of_keepsCode keeps, ?_⟩
  rw [input]
  exact steady.input

/-- A block size is only noted if init is due in any case. -/
theorem setBlockSize_of_due {effect : Effect σ} (due : effect.rig.pending.init = true)
    (size : Nat) :
    effect.setBlockSize size =
      { effect with rig := { effect.rig with blockSize := size } } := by
  rcases effect with ⟨store, around, rig⟩
  rcases rig with ⟨_, _, _, _, _, _, _, pending, blockSize, _, _⟩
  rcases pending with ⟨_, init, _, _, _⟩
  cases due
  rw [setBlockSize]
  split
  · next same =>
      cases same
      rfl
  · rw [requestInit]
    split <;> rfl

theorem alike_setSlider {first second : Effect σ} (alike : Alike first second) (index : Nat)
    (value : Float) : Alike (first.setSlider index value) (second.setSlider index value) := by
  rw [setSlider, setSlider, moveSlider, moveSlider]
  split
  · next inside =>
      apply Alike.updatePending
      exact ⟨⟨alike.state.store.set _ value, alike.state.files, alike.state.visible,
        alike.state.firstInput, alike.state.secondInput, alike.state.firstOutput,
        alike.state.secondOutput⟩, alike.rig⟩
  · exact alike

theorem length_process {effect : Effect σ} (steady : effect.Steady config)
    (precision : Precision) (inputs outputs : List Channel) (frames : Nat) :
    (effect.process precision inputs outputs frames).1.length = outputs.length := by
  cases busy : effect.rig.drawing.isBusy with
  | true =>
      rw [process_of_busy steady.compiled busy]
      exact List.length_mapIdx
  | false =>
      rw [process_eq_opened steady busy]
      exact length_runBlock _ _ _ _ _ _

end Effect

namespace Channel

theorem joined_assoc (first second third : List Channel) :
    joined (joined first second) third = joined first (joined second third) := by
  apply List.ext_getElem?
  intro channel
  simp only [joined, List.getElem?_zipWith]
  cases first[channel]? <;> cases second[channel]? <;> cases third[channel]? <;>
    simp [Array.append_assoc]

theorem joined_blank {done : List Channel} {count : Nat} (length : done.length = count)
    (blank : Channel) : joined done ((List.replicate count blank).map fun _ => #[]) = done := by
  apply List.ext_getElem?
  intro channel
  simp only [joined, List.getElem?_zipWith, List.getElem?_map, List.getElem?_replicate]
  by_cases inside : channel < count
  · rw [if_pos inside, List.getElem?_eq_getElem (by omega)]
    simp
  · rw [if_neg inside, List.getElem?_eq_none (by omega)]

theorem slices_blank (count total start frames : Nat) (inside : start + frames ≤ total) :
    slices start frames (List.replicate count (Array.replicate total 0.0)) =
      List.replicate count (Array.replicate frames 0.0) := by
  have slice_blank : slice start frames (Array.replicate total 0.0) =
      Array.replicate frames 0.0 := by
    apply Array.ext_getElem?
    intro frame
    rw [getElem?_slice]
    by_cases early : frame < frames
    · have within : start + frame < total := by omega
      simp [early, within]
    · simp [early]
  rw [slices, List.map_replicate, slice_blank]

end Channel

namespace Command

open Effect

/-- The effect of a script that is loaded and compiled for a rendering. -/
def compiled (disk : Disk) (script : String) : Except CommandFault Silent := do
  let loaded ← attempted ((Effect.new disk {}).load script false)
  attempted (loaded.compile { skipDrawing := true })

theorem attempted_ok {attempt : Effect.Attempt Empty} {effect : Silent}
    (done : attempted attempt = .ok effect) :
    attempt.result = .ok () ∧ effect = attempt.effect := by
  rw [attempted] at done
  split at done
  · next result =>
      cases done
      exact ⟨result, rfl⟩
  · cases done

theorem prepare_eq_compiled (disk : Disk) (job : RenderJob) (rate : Nat) :
    prepare disk job rate =
      compiled disk job.script >>= fun effect =>
        assignSliders ((effect.setSampleRate (Float.ofNat rate)).setBlockSize
          (job.blockSize % Number.twoTo 32)) job.assignments := by
  rw [prepare, compiled]
  cases attempted ((Effect.new disk {}).load job.script false) with
  | error fault => rfl
  | ok loaded => rfl

theorem input_load (effect : Silent) (path : String) (ignoreImports : Bool) :
    (effect.load path ignoreImports).effect.around.input = effect.around.input := by
  rw [load]
  split <;> rfl

theorem input_compile (effect : Silent) (options : CompileOptions) :
    (effect.compile options).effect.around.input = effect.around.input := by
  rw [compile]
  split
  · split <;> rfl
  · rfl

theorem compiled_ok {disk : Disk} {script : String} {effect : Silent}
    (done : compiled disk script = .ok effect) :
    let loaded := ((Effect.new disk {} : Silent).load script false).effect
    (loaded.compile { skipDrawing := true }).result = .ok () ∧
      effect = (loaded.compile { skipDrawing := true }).effect := by
  rw [compiled] at done
  cases opened : attempted ((Effect.new disk {}).load script false) with
  | error fault =>
      rw [opened] at done
      cases done
  | ok loaded =>
      rw [opened] at done
      rcases attempted_ok opened with ⟨_, rfl⟩
      exact attempted_ok done

/-- Compiled code that ignores blocks is steady, and its init sections are due. -/
theorem steady_of_compiled {disk : Disk} {script : String} {effect : Silent}
    (done : compiled disk script = .ok effect) (ignores : effect.IgnoresBlocks) :
    effect.Steady {} ∧ effect.rig.pending.init = true := by
  rcases compiled_ok done with ⟨succeeded, rfl⟩
  rcases compiled_of_ok succeeded with ⟨code, due⟩
  have begun : (Effect.new disk {} : Silent).Grounded {} := grounded_new disk {}
  have grounded := grounded_compile (grounded_load begun script false) { skipDrawing := true }
  have input : (Effect.new disk {} : Silent).around.input.Holds [] :=
    ⟨rfl, List.forall_mem_nil _⟩
  refine ⟨⟨grounded, rfl, code, ignores, ?_⟩, congrArg DueWork.init due⟩
  rw [input_compile, input_load]
  exact input

/-- Two preparations fail alike, or succeed with effects that are alike. -/
def PreparedAlike (first second : Except CommandFault Silent) : Prop :=
  (∃ fault, first = .error fault ∧ second = .error fault) ∨
    ∃ effect other, first = .ok effect ∧ second = .ok other ∧ effect.Alike other ∧
      effect.Steady {} ∧ other.Steady {}

theorem assignSliders_agree {first second : Silent} (alike : first.Alike second)
    (steady : first.Steady {}) (again : second.Steady {}) (assignments : List String) :
    PreparedAlike (assignSliders first assignments) (assignSliders second assignments) := by
  induction assignments generalizing first second with
  | nil => exact Or.inr ⟨first, second, rfl, rfl, alike, steady, again⟩
  | cons text others ih =>
      rw [assignSliders, assignSliders, List.foldlM_cons, List.foldlM_cons]
      cases (Assignment.parse text).mapError CommandFault.badAssignment with
      | error fault => exact Or.inl ⟨fault, rfl, rfl⟩
      | ok assignment =>
          have moved : ∀ effect : Silent,
              (effect.setSlider assignment.slot assignment.value).around.input =
                effect.around.input :=
            fun effect => (onlyTells_actInCycle effect
              (.setSlider assignment.slot assignment.value) rfl).input
          exact ih (alike_setSlider alike _ _)
            (steady.actInCycle (.setSlider assignment.slot assignment.value) (moved first))
            (again.actInCycle (.setSlider assignment.slot assignment.value) (moved second))

/-- The block size of a rendering leaves no trace in the effect that is prepared for it. -/
theorem prepare_agree (disk : Disk) (job : RenderJob) (size other : Nat)
    (ignores : ∀ effect, compiled disk job.script = .ok effect → effect.IgnoresBlocks)
    (rate : Nat) :
    PreparedAlike (prepare disk { job with blockSize := size } rate)
      (prepare disk { job with blockSize := other } rate) := by
  rw [prepare_eq_compiled, prepare_eq_compiled]
  cases done : compiled disk job.script with
  | error fault => exact Or.inl ⟨fault, rfl, rfl⟩
  | ok effect =>
      rcases steady_of_compiled done (ignores effect done) with ⟨steady, due⟩
      let timed := effect.setSampleRate (Float.ofNat rate)
      have kept : timed.around.input = effect.around.input :=
        (onlyTells_actInCycle effect (.setSampleRate (Float.ofNat rate)) rfl).input
      have still : timed.Steady {} :=
        steady.actInCycle (.setSampleRate (Float.ofNat rate)) kept
      have dueStill : timed.rig.pending.init = true := by
        have requested := noted_setSampleRate steady.compiled (Float.ofNat rate)
        exact (congrArg DueWork.init requested).trans (by simp [noted, due])
      have sized : ∀ frames, (timed.setBlockSize frames).Steady {} := by
        intro frames
        apply still.actInCycle (.setBlockSize frames)
        rw [Effect.actInCycle, setBlockSize_of_due dueStill]
      refine assignSliders_agree ?_ (sized _) (sized _) job.assignments
      rw [setBlockSize_of_due dueStill, setBlockSize_of_due dueStill]
      exact ⟨still.refl.state, _, rfl⟩

/-! ## Blocks of a rendering -/

/-- A rendering processes its frames in chunks. -/
theorem renderBlocks_eq_processChunks {size : Nat} (positive : 0 < size)
    (inputs : List Channel) (count total : Nat) {start left : Nat}
    (fits : start + left = total) {done : List Channel} (length : done.length = count)
    {effect : Silent} (steady : effect.Steady {}) :
    ∃ sizes : List Nat, (∀ frames ∈ sizes, 0 < frames) ∧ sizes.sum = left ∧
      renderBlocks size positive inputs start left done effect =
        joined done (effect.processChunks .single inputs
          (List.replicate count (Array.replicate total 0.0)) start sizes).1 := by
  induction left using Nat.strongRecOn generalizing start done effect with
  | ind left ih =>
      rw [renderBlocks]
      split
      · next nothing =>
          refine ⟨[], List.forall_mem_nil _, nothing.symm, ?_⟩
          exact (joined_blank length _).symm
      · next more =>
          let frames := min size left
          let blanks := List.replicate count (Array.replicate total 0.0)
          let processed := effect.process .single (slices start frames inputs)
            (slices start frames blanks) frames
          have filled : 0 < frames := by omega
          have within : start + frames ≤ total := by omega
          have blank : done.map (fun _ => Array.replicate frames 0.0) =
              slices start frames blanks := by
            rw [slices_blank count total start frames within, List.map_const', length]
          have lengths : (joined done processed.1).length = count := by
            rw [joined, List.length_zipWith, length_process steady, length_slices,
              List.length_replicate, length, Nat.min_self]
          have behind : start + frames + (left - frames) = total := by omega
          rcases ih (left - frames) (by omega) behind lengths
            (steady.process .single _ _ frames) with ⟨sizes, positives, sum, rendered⟩
          refine ⟨frames :: sizes, List.forall_mem_cons.mpr ⟨filled, positives⟩, ?_, ?_⟩
          · rw [List.sum_cons, sum]
            omega
          · dsimp only
            rw [blank]
            refine Eq.trans rendered ?_
            exact joined_assoc done processed.1 _

/-- Renderings of all block sizes put out the same samples. -/
theorem renderBlocks_agree {size other : Nat} (positive : 0 < size) (filled : 0 < other)
    (inputs : List Channel) (count frames : Nat) {first second : Silent}
    (alike : first.Alike second) (steady : first.Steady {}) (again : second.Steady {}) :
    renderBlocks size positive inputs 0 frames (List.replicate count #[]) first =
      renderBlocks other filled inputs 0 frames (List.replicate count #[]) second := by
  rcases renderBlocks_eq_processChunks positive inputs count frames (Nat.zero_add frames)
    List.length_replicate steady with ⟨sizes, positives, sum, rendered⟩
  rcases renderBlocks_eq_processChunks filled inputs count frames (Nat.zero_add frames)
    List.length_replicate again with ⟨others, positivesToo, sumToo, renderedToo⟩
  have same := processChunks_agree alike steady again .single inputs
    (List.replicate count (Array.replicate frames 0.0))
    (List.forall_mem_append.mpr ⟨positives, positivesToo⟩) (sum.trans sumToo.symm)
  rw [rendered, renderedToo, same.1]

/-- A rendering comes out alike at all block sizes. -/
theorem runRender_agrees (disk : Disk) (job : RenderJob) {size other : Nat}
    (ignores : ∀ effect, compiled disk job.script = .ok effect → effect.IgnoresBlocks)
    (positive : 0 < size) (filled : 0 < other) :
    runRender disk { job with blockSize := size } =
      runRender disk { job with blockSize := other } := by
  rw [runRender, runRender, dif_pos positive, dif_pos filled]
  dsimp only
  cases readInput disk job.input with
  | error fault => rfl
  | ok input =>
      rcases prepare_agree disk job size other ignores input.rate with
        ⟨fault, failed, failedToo⟩ | ⟨effect, again, ready, readyToo, alike, steady, steadyToo⟩
      · simp only [bind, Except.bind, failed, failedToo]
      · have blocks := fun inputs count frames =>
          renderBlocks_agree positive filled inputs count frames alike steady steadyToo
        simp only [bind, Except.bind, ready, readyToo, alike.header, blocks]

/-- Rendering does not depend on the block size.  Code that ignores blocks computes the same
samples, sliders, variables and memory from an input however it is cut into chunks, be the
machine free or taken by a drawing pass, and a rendering is the same at all block sizes. -/
theorem rendering_ignores_block_size {σ : Type} (painter : Painter σ) (config : Config)
    (extensible : config.midiOutputExtensible = true) :
    (∀ effect : Effect σ, Reached painter config effect → effect.isCompiled = true →
      effect.IgnoresBlocks → effect.around.input.events = [] →
      ∀ (precision : Precision) (inputs outputs : List Channel) (sizes others : List Nat),
        (∀ size ∈ sizes ++ others, 0 < size) → sizes.sum = others.sum →
        let done := effect.processChunks precision inputs outputs 0 sizes
        let again := effect.processChunks precision inputs outputs 0 others
        done.1 = again.1 ∧ (∀ index, done.2.sliderValue index = again.2.sliderValue index) ∧
          (∀ cell, Cell.Lasting cell → done.2.store.get cell = again.2.store.get cell) ∧
          done.2.store.memory = again.2.store.memory) ∧
    ∀ (disk : Disk) (job : RenderJob),
      (∀ effect, compiled disk job.script = .ok effect → effect.IgnoresBlocks) →
      ∀ size other : Nat, 0 < size → 0 < other →
        runRender disk { job with blockSize := size } =
          runRender disk { job with blockSize := other } := by
  constructor
  · intro effect reached code ignores quiet precision inputs outputs sizes others positive
      same done again
    have grounded : effect.Grounded config := reached.grounded
    have input : effect.around.input.Holds [] := by
      rcases grounded.input with ⟨events, holds⟩
      rw [← quiet, holds.events_eq]
      exact holds
    have steady : effect.Steady config := ⟨grounded, extensible, code, ignores, input⟩
    rcases processChunks_agree steady.refl steady steady precision inputs outputs positive same
      with ⟨samples, alike⟩
    have store : Store.Alike done.2.store again.2.store := alike.state.store
    refine ⟨samples, ?_, store.cells, store.memory⟩
    intro index
    rw [sliderValue, sliderValue]
    split
    · next inside =>
        apply store.read
        simp [HostVariable.ofCycle]
    · rfl
  · intro disk job ignores size other positive filled
    exact runRender_agrees disk job ignores positive filled

/-- A script that halves its gain in every frame, on three frames in two chunks and in
three, and rendered in blocks of one frame and of two. -/
theorem rendering_ignores_block_size_gain :
    let painter : Painter Unit :=
      { size := fun _ => (4, 3), scale := fun _ => 1.0, reset := fun surface => surface
        call := fun _ _ effect => (0.0, effect)
        takeDirty := fun surface => (true, surface) }
    let sound : Wav := ⟨1, 48000, #[0.5, 0.25, -0.5]⟩
    let disk := (Disk.empty.addFile ["script"]
      "@init\ngain = 1;\n@sample\nspl0 = spl0 * gain;\ngain = gain / 2;\n".toUTF8).addFile
        ["input"] sound.toBytes
    let loaded := (Effect.new disk {}).after painter [.load "/script" false]
    let effect := (loaded.compile {}).effect
    let job : RenderJob := { script := "/script", input := "/input", output := "/output" }
    let chunks (sizes : List Nat) := effect.processChunks .double [#[0.5, 0.25, -0.5]]
      [#[0.0, 0.0, 0.0]] 0 sizes
    (Reached painter {} effect ∧ effect.isCompiled = true ∧ effect.IgnoresBlocks ∧
      (chunks [2, 1]).1 = (chunks [1, 1, 1]).1) ∧
    runRender disk { job with blockSize := 1 } = runRender disk { job with blockSize := 2 } ∧
      (runRender disk { job with blockSize := 2 }).isOk = true := by
  intro painter sound disk loaded effect job chunks
  have confined : painter.Confined := fun _ _ _ => ⟨[], rfl⟩
  have read : Reached painter {} loaded := reached_after confined disk {} _
  have code : effect.isCompiled = true := by decide +kernel
  have quiet : effect.around.input.events = [] := by decide +kernel
  have ignores : effect.IgnoresBlocks := by
    have succeeded : (loaded.compile {}).result.isOk = true := by decide +kernel
    have overlooks : (loaded.rig.script?.all fun script => script.Overlooks {}) = true := by
      decide +kernel
    apply ignoresBlocks_compile (named_load (named_new disk {}) "/script" false)
      (result_of_isOk succeeded)
    intro script known
    exact of_decide_eq_true ((Option.all_eq_true _ _).mp overlooks script known)
  have law := rendering_ignores_block_size painter {} rfl
  rcases law.1 effect (read.compile {}) code ignores quiet .double [#[0.5, 0.25, -0.5]]
    [#[0.0, 0.0, 0.0]] [2, 1] [1, 1, 1] (by decide) rfl with ⟨samples, _⟩
  refine ⟨⟨read.compile {}, code, ignores, samples⟩, ?_, by decide +kernel⟩
  apply law.2 disk job ?_ 1 2 (by decide) (by decide)
  intro ready done
  have overlooks : (((Effect.new disk {} : Silent).load "/script" false).effect.rig.script?.all
      fun script => script.Overlooks { skipDrawing := true }) = true := by
    decide +kernel
  rcases compiled_ok done with ⟨succeeded, rfl⟩
  apply ignoresBlocks_compile (named_load (named_new disk {}) "/script" false) succeeded
  intro script known
  exact of_decide_eq_true ((Option.all_eq_true _ _).mp overlooks script known)

end Command
end EffectHost

import EffectHost.Host.Function
import EffectHost.Proofs.Code.Agreement
import EffectHost.Proofs.Host.Variables

/-!
# Targets of code

Code writes to the variables that it assigns and to those that it passes to functions, which
write to nothing else but memory, strings and the variable of the bus.  All other variables
are afterwards what they were before, whatever the code computes.
-/

namespace EffectHost
namespace Code

/-! ## Targets in the source -/

mutual

/-- The variables to which an expression may write. -/
def Expr.targets {ν τ : Type} : Expr ν τ → List ν
  | .number _ | .text _ | .variable _ => []
  | .item base index => base.targets ++ index.targets
  | .negate operand => operand.targets
  | .binary _ left right => left.targets ++ right.targets
  | .call _ arguments => targetsOfArgs arguments
  | .assign name value => name :: value.targets
  | .assignItem base index value => base.targets ++ index.targets ++ value.targets
termination_by structural expression => expression

/-- The variables to which arguments may write, and the function that they are passed to. -/
def targetsOfArgs {ν τ : Type} : List (Expr ν τ) → List ν
  | [] => []
  | .variable name :: others => name :: targetsOfArgs others
  | argument :: others => argument.targets ++ targetsOfArgs others
termination_by structural arguments => arguments

end

theorem targetsOfArgs_cons (argument : Expr Cell Nat) (others : List (Expr Cell Nat)) :
    targetsOfArgs (argument :: others) =
      argument.cell?.toList ++ argument.targets ++ targetsOfArgs others := by
  cases argument <;> simp [targetsOfArgs, Expr.targets, Expr.cell?]

end Code

open Code

/-- The cells to which a program may write. -/
def Program.targets (program : Program) : List Cell :=
  program.flatMap Expr.targets

/-- None of the arguments is a variable with the cell. -/
def ArgsSpare (cell : Cell) (args : List Arg) : Prop :=
  ∀ arg ∈ args, arg.cell? ≠ some cell

/-- The functions of the host write to the cell only where it is passed to them. -/
def CodeHost.Spares {σ : Type} (host : CodeHost σ) (cell : Cell) : Prop :=
  ∀ (name : String) (args : List Arg) (state : Store × σ), ArgsSpare cell args →
    (host.call name args state).2.1.get cell = state.1.get cell

namespace Code

variable {σ : Type} {host : CodeHost σ} {cell : Cell}

theorem cell_ne_of_not_mem {others : List Cell} {target : Cell}
    (absent : cell ∉ target :: others) : target ≠ cell := by
  rintro rfl
  exact absent (List.mem_cons_self ..)

mutual

theorem eval_spares (spares : host.Spares cell) :
    ∀ (expression : Expr Cell Nat) (state : Store × σ), cell ∉ expression.targets →
      (eval host expression state).2.1.get cell = state.1.get cell
  | .number _, _, _ => rfl
  | .text _, _, _ => rfl
  | .variable _, _, _ => rfl
  | .item base index, state, absent => by
      rw [Expr.targets, List.mem_append, not_or] at absent
      exact (eval_spares spares index _ absent.2).trans (eval_spares spares base state absent.1)
  | .negate operand, state, absent => eval_spares spares operand state absent
  | .binary _ left right, state, absent => by
      rw [Expr.targets, List.mem_append, not_or] at absent
      exact (eval_spares spares right _ absent.2).trans (eval_spares spares left state absent.1)
  | .call function arguments, state, absent => by
      rcases evalArgs_spares spares arguments state absent with ⟨kept, spared⟩
      exact (spares function _ _ spared).trans kept
  | .assign target value, state, absent => by
      rw [Expr.targets] at absent
      have other := cell_ne_of_not_mem absent
      exact (Store.get_set_of_ne _ other _).trans
        (eval_spares spares value state (fun member => absent (List.mem_cons_of_mem _ member)))
  | .assignItem base index value, state, absent => by
      rw [Expr.targets, List.mem_append, List.mem_append, not_or, not_or] at absent
      have last := eval_spares spares value
        (eval host index (eval host base state).2).2 absent.2
      have stored : ∀ (position item : Float) (store : Store),
          (store.writeItem position item).get cell = store.get cell := by
        intro position item store
        rw [Store.writeItem]
        split <;> rfl
      exact (stored _ _ _).trans (last.trans ((eval_spares spares index _ absent.1.2).trans
        (eval_spares spares base state absent.1.1)))

theorem evalArgs_spares (spares : host.Spares cell) :
    ∀ (arguments : List (Expr Cell Nat)) (state : Store × σ), cell ∉ targetsOfArgs arguments →
      (evalArgs host arguments state).2.1.get cell = state.1.get cell ∧
        ArgsSpare cell (evalArgs host arguments state).1
  | [], _, _ => ⟨rfl, List.forall_mem_nil _⟩
  | argument :: others, state, absent => by
      rw [targetsOfArgs_cons, List.mem_append, List.mem_append, not_or, not_or] at absent
      have head := eval_spares spares argument state absent.1.2
      have tail := evalArgs_spares spares others (eval host argument state).2 absent.2
      rw [evalArgs_cons]
      refine ⟨tail.1.trans head, List.forall_mem_cons.mpr ⟨?_, tail.2⟩⟩
      intro own
      exact absent.1.1 (Option.mem_toList.mpr own)

end

/-- A program leaves every cell as it is that is none of its targets. -/
theorem run_spares (spares : host.Spares cell) {program : Program}
    (absent : cell ∉ program.targets) (state : Store × σ) :
    (run host program state).1.get cell = state.1.get cell := by
  induction program generalizing state with
  | nil => rfl
  | cons statement others ih =>
      rw [Program.targets, List.flatMap_cons, List.mem_append, not_or] at absent
      exact (ih absent.2 _).trans (eval_spares spares statement state absent.1)

end Code

/-! ## What functions write -/

/-- What a function with some arguments can make of a store. -/
inductive WritesTo (args : List Arg) (store : Store) : Store → Prop
  | refl : WritesTo args store store
  | assign {after : Store} (before : WritesTo args store after) {arg : Arg} (passed : arg ∈ args)
      (value : Float) : WritesTo args store (arg.assign after value)
  | writeRange {after : Store} (before : WritesTo args store after) (address : Nat)
      (values : Array Float) : WritesTo args store (after.writeRange address values).2
  | setString {after : Store} (before : WritesTo args store after) (id : Float) (text : String) :
      WritesTo args store (after.setString id text).2
  | tellBus {after : Store} (before : WritesTo args store after) (value : Float) :
      WritesTo args store (after.write .midiBus value)

namespace WritesTo

variable {args : List Arg} {store after : Store}

theorem assignArg (before : WritesTo args store after) (position : Nat) (value : Float) :
    WritesTo args store (assignArg args position after value) := by
  rw [EffectHost.assignArg]
  split
  · next arg passed => exact before.assign (List.mem_of_getElem? passed) value
  · exact before

/-- No other variables are written to. -/
theorem get (written : WritesTo args store after) {cell : Cell} (spared : ArgsSpare cell args)
    (notBus : cell ≠ HostVariable.midiBus.cell) : after.get cell = store.get cell := by
  induction written with
  | refl => rfl
  | @assign after before arg passed value ih =>
      rw [Arg.assign]
      split
      · next target own =>
          have other : target ≠ cell := fun same => spared arg passed (same ▸ own)
          exact (Store.get_set_of_ne _ other value).trans ih
      · exact ih
  | writeRange before address values ih => exact ih
  | @setString after before id text ih =>
      rw [Store.setString]
      split <;> exact ih
  | tellBus before value ih => exact (Store.get_set_of_ne _ (Ne.symm notBus) value).trans ih

end WritesTo

namespace HostFunction

open MidiFunctions

variable {args : List Arg}

/-- Taking a message writes to nothing else. -/
def AcceptanceWrites (args : List Arg) (accept : Acceptance) : Prop :=
  ∀ (event : MidiEvent) (store taken : Store) (result : Float),
    accept event store = some (result, taken) → WritesTo args store taken

theorem writes_acceptShort (args : List Arg) : AcceptanceWrites args (acceptShort args) := by
  intro event store taken result accepted
  rw [acceptShort] at accepted
  split at accepted
  · cases accepted
  · cases accepted
    split
    · exact (((WritesTo.refl.assignArg 0 _).assignArg 1 _).assignArg 2 _).assignArg 3 _
    · exact ((WritesTo.refl.assignArg 0 _).assignArg 1 _).assignArg 2 _

theorem writes_memoryAcceptance? {accept : Acceptance}
    (allowed : memoryAcceptance? args = some accept) : AcceptanceWrites args accept := by
  rw [memoryAcceptance?] at allowed
  split at allowed
  · cases allowed
  · cases allowed
    intro event store taken result accepted
    rw [acceptMemory] at accepted
    split at accepted
    · cases accepted
    · cases accepted
      exact (WritesTo.refl.writeRange _ _).assignArg 0 _

theorem writes_acceptText (args : List Arg) (id : Float) :
    AcceptanceWrites args (acceptText args id) := by
  intro event store taken result accepted
  simp only [acceptText] at accepted
  split at accepted
  · cases accepted
    exact (WritesTo.refl.setString id _).assignArg 0 _
  · cases accepted

theorem writes_receiveFrom {accept : Acceptance} (writes : AcceptanceWrites args accept)
    (allBuses : Bool) (store : Store) (input output : MidiLog) :
    WritesTo args store (receiveFrom accept allBuses store input output).2.1 := by
  fun_induction receiveFrom accept allBuses store input output with
  | case1 => exact .refl
  | case2 input output event rest read result taken accepted told =>
      have stored := writes event store taken result accepted
      dsimp only [told]
      split
      · exact stored.tellBus _
      · exact stored
  | case3 input output event rest read _ ih => exact ih

theorem writes_receive {accept? : Option Acceptance}
    (writes : ∀ accept, accept? = some accept → AcceptanceWrites args accept) (caller : Caller)
    (state : State) : WritesTo args state.1 (receive caller accept? state).2.1 := by
  cases accept? with
  | none => exact .refl
  | some accept =>
      rw [receive.eq_def]
      dsimp only
      split
      · exact writes_receiveFrom (writes accept rfl) _ _ _ _
      · exact .refl

theorem writes_send (sender : Store → MidiLog → List Arg → Float × MidiLog) (caller : Caller)
    (state : State) : WritesTo args state.1 (send caller sender args state).2.1 := by
  rw [send]
  split <;> exact .refl

/-- What an operation on an open file writes. -/
theorem writes_withFile {α : Type} {store : Store} {files : FileTable} {handle : Int}
    {operation : OpenFile → (α × Store) × OpenFile}
    (writes : ∀ file, WritesTo args store (operation file).1.2) {moved : α × Store}
    (done : (files.withFile handle operation).1 = some moved) : WritesTo args store moved.2 := by
  rw [FileTable.withFile] at done
  cases found : files.get? handle with
  | none =>
      rw [found] at done
      cases done
  | some file =>
      rw [found] at done
      cases done
      exact writes file

theorem writes_value (args : List Arg) (store : Store) (files : FileTable) :
    WritesTo args store (FileFunctions.value args store files).2.1 := by
  rw [FileFunctions.value]
  split
  · exact .refl
  · next arg passed =>
      dsimp only
      split
      · next done =>
          refine writes_withFile ?_ done
          intro file
          split
          · exact .refl
          · split
            · exact WritesTo.refl.assign (List.mem_of_getElem? passed) _
            · exact .refl
      · exact .refl

theorem writes_readBlocks (args : List Arg) (left address : Nat) {start store : Store}
    (before : WritesTo args start store) (file : OpenFile) :
    WritesTo args start (FileFunctions.readBlocks left address store file).2.1 := by
  fun_induction FileFunctions.readBlocks left address store file with
  | case1 => exact before
  | case2 left address store file _ wanted read stored short =>
      exact before.writeRange address read.1
  | case3 left address store file _ wanted read stored _ more ih =>
      exact ih (before.writeRange address read.1)

theorem writes_block (args : List Arg) (store : Store) (files : FileTable) :
    WritesTo args store (FileFunctions.block args store files).2.1 := by
  rw [FileFunctions.block]
  dsimp only
  split
  · exact .refl
  · split
    · next done =>
        refine writes_withFile ?_ done
        intro file
        split
        · exact .refl
        · exact writes_readBlocks args _ _ .refl file
    · exact .refl

theorem writes_string (args : List Arg) (store : Store) (files : FileTable) :
    WritesTo args store (FileFunctions.string args store files).2.1 := by
  rw [FileFunctions.string]
  dsimp only
  split
  · next done =>
      refine writes_withFile ?_ done
      intro file
      split
      · exact .refl
      · split
        · exact WritesTo.refl.setString _ _
        · exact .refl
  · exact .refl

theorem writes_audioShape (args : List Arg) (store : Store) (files : FileTable) :
    WritesTo args store (FileFunctions.audioShape args store files).2 := by
  rw [FileFunctions.audioShape]
  split
  · exact .refl
  · exact (WritesTo.refl.assignArg 1 _).assignArg 2 _

/-- Host functions write to what is passed to them, memory, strings and the bus. -/
theorem writes_run (facts : Facts) (caller : Caller) (function : HostFunction)
    (args : List Arg) (state : State) :
    WritesTo args state.1 (function.run facts caller args state).2.1 := by
  cases function with
  | sliderChange | sliderAutomate | sliderShow | fileOpen | fileClose | fileRewind
    | fileAvailable | fileIsText => exact .refl
  | midiSend | midiSendMemory | midiSendText | midiSendExclusive =>
      exact writes_send _ caller state
  | midiReceive =>
      refine writes_receive ?_ caller state
      intro accept same
      cases same
      exact writes_acceptShort args
  | midiReceiveMemory => exact writes_receive (fun _ => writes_memoryAcceptance?) caller state
  | midiReceiveText =>
      refine writes_receive ?_ caller state
      intro accept same
      cases same
      exact writes_acceptText args _
  | fileValue => exact writes_value args state.1 state.2.files
  | fileBlock => exact writes_block args state.1 state.2.files
  | fileString => exact writes_string args state.1 state.2.files
  | fileAudioShape => exact writes_audioShape args state.1 state.2.files
  | nextKey =>
      rw [run, key]
      dsimp only
      split
      · split <;> exact .refl
      · exact .refl

theorem spares_call (facts : Facts) (caller : Caller) {cell : Cell}
    (notBus : cell ≠ HostVariable.midiBus.cell) :
    CodeHost.Spares ⟨call facts caller⟩ cell := by
  intro name args state spared
  change (call facts caller name args state).2.1.get cell = state.1.get cell
  rw [call]
  split
  · exact (writes_run facts caller _ args state).get spared notBus
  · rfl

end HostFunction
end EffectHost

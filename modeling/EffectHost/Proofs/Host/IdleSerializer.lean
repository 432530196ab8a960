import EffectHost.Proofs.DataFile.Table
import EffectHost.Proofs.Host.Agreement

/-!
# An idle serializer

While no state is saved or restored, the serializer is idle and empty.  A script may name it
all the same, but nothing that is moved to or from it then gets anywhere: every function
returns zero and leaves everything as it is.  So it stays idle and empty.
-/

namespace EffectHost

open HostFunction

namespace FileTable

/-- Nobody has put the serializer to use. -/
def Idle (table : FileTable) : Prop :=
  table.serializer = {}

variable {α : Type} {table : FileTable}

theorem idle_insert (idle : table.Idle) {file : OpenFile} {handle : Nat} {next : FileTable}
    (inserted : table.insert file = .ok (handle, next)) : next.Idle := by
  rw [insert] at inserted
  split at inserted
  · cases inserted
    exact idle
  · split at inserted
    · cases inserted
      exact idle
    · cases inserted

theorem idle_close (idle : table.Idle) {handle : Int} {next : FileTable}
    (closed : table.close handle = .ok next) : next.Idle := by
  rw [close] at closed
  split at closed
  · split at closed
    · cases closed
      exact idle
    · cases closed
  · cases closed

/-- An operation that leaves an idle serializer alone leaves the table with one. -/
theorem idle_withFile (idle : table.Idle) (handle : Int)
    {operation : OpenFile → α × OpenFile}
    (stays : (operation (.serializer {})).2 = .serializer {}) :
    (table.withFile handle operation).2.Idle := by
  rw [withFile]
  cases isOpen : table.get? handle with
  | none => exact idle
  | some file =>
      dsimp only
      rcases handle_cases handle with rfl | before | ⟨position, rfl⟩
      · rw [get?_zero, idle] at isOpen
        cases isOpen
        rw [stays]
        rfl
      · rw [get?_of_neg before] at isOpen
        cases isOpen
      · rw [put_succ]
        exact idle

/-- On the serializer itself it leaves the whole table as it is. -/
theorem withFile_zero_of_idle (idle : table.Idle) {operation : OpenFile → α × OpenFile}
    (stays : (operation (.serializer {})).2 = .serializer {}) :
    table.withFile 0 operation = (some (operation (.serializer {})).1, table) := by
  have serializer : table.get? 0 = some (.serializer {}) := by
    rw [get?_zero, show table.serializer = {} from idle]
  have same : table.put 0 (.serializer {}) = table := by
    rw [put_serializer, ← show table.serializer = {} from idle]
  rw [withFile, serializer]
  dsimp only
  rw [stays, same]

end FileTable

namespace OpenFile

theorem readEach_idle (count : Nat) (done : Array Float) :
    readEach count done (.serializer {}) = (done, .serializer {}) := by
  cases count <;> rfl

end OpenFile

namespace HostFunction

open FileTable

theorem moveValue_idle (arg : Arg) (store : Store) :
    moveValue arg store (.serializer {}) = ((false, store), .serializer {}) :=
  rfl

theorem moveString_idle (id : Float) (store : Store) :
    moveString id store (.serializer {}) = ((false, store), .serializer {}) :=
  rfl

/-- There are no values to store. -/
theorem moveBlock_idle (left start : Nat) (store : Store) :
    moveBlock left start store (.serializer {}) = ((0, store), .serializer {}) := by
  have nothing (count : Nat) :
      (OpenFile.serializer {}).readValues count = (#[], .serializer {}) :=
    OpenFile.readEach_idle count #[]
  rw [moveBlock, if_neg (by decide), FileFunctions.readBlocks_eq, nothing]
  dsimp only
  rw [Store.writeRange_empty]

/-- An operation that a call runs on a file leaves the serializer idle, and if the call names
the serializer it changes nothing at all. -/
theorem idle_ofFile {α : Type} {handle : Int} {tell : α → Float}
    {operation : Store → OpenFile → (α × Store) × OpenFile} {store : Store} {result : α}
    (stays : operation store (.serializer {}) = ((result, store), .serializer {}))
    {files : FileTable} (idle : files.Idle) :
    (ofFile handle tell operation store files).2.2.Idle ∧
      (handle = 0 → ofFile handle tell operation store files = (tell result, store, files)) := by
  have still := idle_withFile idle handle (congrArg Prod.snd stays)
  constructor
  · simp only [ofFile]
    split <;> exact still
  · rintro rfl
    simp only [ofFile, withFile_zero_of_idle idle (congrArg Prod.snd stays), stays]

/-- Opening a file inserts it, or nothing happens. -/
theorem openFile_cases (facts : Facts) (args : List Arg) (store : Store) (files : FileTable) :
    (FileFunctions.openFile facts args store files).2 = files ∨
      ∃ file handle, files.insert file =
        .ok (handle, (FileFunctions.openFile facts args store files).2) := by
  simp only [FileFunctions.openFile]
  split
  · next index table opened =>
      simp only [Option.bind_eq_bind, Option.bind_eq_some_iff] at opened
      rcases opened with ⟨arg, _, target, _, path, _, file, _, inserted⟩
      refine Or.inr ⟨file, index, ?_⟩
      cases done : files.insert file with
      | ok stored =>
          rw [done] at inserted
          cases inserted
          rfl
      | error failure =>
          rw [done] at inserted
          cases inserted
  · exact Or.inl rfl

/-- Receiving opens and closes no files. -/
theorem files_receive (caller : Caller) (accept? : Option MidiFunctions.Acceptance)
    (state : State) : (receive caller accept? state).2.2.files = state.2.files := by
  rw [receive.eq_def]
  split
  · rfl
  · split <;> rfl

/-- The functions that move something between a file and the store. -/
def transfers : List HostFunction :=
  [.fileValue, .fileBlock, .fileString]

theorem zero_eq_ofNat : Float.ofNat 0 = 0.0 := by
  decide +kernel

variable {facts : Facts} {caller : Caller} {state : State}

theorem value_idle (args : List Arg) (idle : state.2.files.Idle) :
    (FileFunctions.value args state.1 state.2.files).2.2.Idle ∧
      (FileFunctions.handle args = 0 →
        FileFunctions.value args state.1 state.2.files = (0.0, state.1, state.2.files)) := by
  cases named : args[1]? with
  | none =>
      rw [FileFunctions.value, named]
      exact ⟨idle, fun _ => rfl⟩
  | some arg =>
      rw [value_eq_ofFile named]
      exact idle_ofFile (moveValue_idle arg state.1) idle

theorem string_idle (args : List Arg) (idle : state.2.files.Idle) :
    (FileFunctions.string args state.1 state.2.files).2.2.Idle ∧
      (FileFunctions.handle args = 0 →
        FileFunctions.string args state.1 state.2.files = (0.0, state.1, state.2.files)) := by
  rw [string_eq_ofFile]
  exact idle_ofFile (moveString_idle _ state.1) idle

theorem block_idle (args : List Arg) (idle : state.2.files.Idle) :
    (FileFunctions.block args state.1 state.2.files).2.2.Idle ∧
      (FileFunctions.handle args = 0 →
        FileFunctions.block args state.1 state.2.files = (0.0, state.1, state.2.files)) := by
  by_cases nothing : (argValue args 1 < 0.0 || argValue args 2 ≤ 0.0) = true
  · simp only [FileFunctions.block, if_pos nothing, implies_true, and_true]
    exact idle
  · rw [block_eq_ofFile nothing, ← zero_eq_ofNat]
    exact idle_ofFile (moveBlock_idle _ _ state.1) idle

/-- Moving something to or from an idle serializer returns zero and changes nothing. -/
theorem run_of_idle {function : HostFunction} (transfer : function ∈ transfers)
    {args : List Arg} (zero : FileFunctions.handle args = 0) (idle : state.2.files.Idle) :
    function.run facts caller args state = (0.0, state) := by
  simp only [transfers, List.mem_cons, List.not_mem_nil, or_false] at transfer
  rcases transfer with rfl | rfl | rfl
  · rw [run, onFilesAndStore, (value_idle args idle).2 zero]
  · rw [run, onFilesAndStore, (block_idle args idle).2 zero]
  · rw [run, onFilesAndStore, (string_idle args idle).2 zero]

/-- No call puts an idle serializer to use. -/
theorem idle_run (function : HostFunction) (args : List Arg) (idle : state.2.files.Idle) :
    (function.run facts caller args state).2.2.files.Idle := by
  cases function with
  | sliderChange | sliderAutomate | sliderShow | fileAvailable | fileAudioShape | fileIsText =>
      exact idle
  | fileOpen =>
      rcases openFile_cases facts args state.1 state.2.files with same | ⟨file, handle, inserted⟩
      · rw [run, onFiles, Idle, same]
        exact idle
      · exact idle_insert idle inserted
  | fileClose =>
      simp only [run, onFiles, FileFunctions.close]
      split
      · next closed => exact idle_close idle closed
      · exact idle
  | fileRewind => exact idle_withFile idle (FileFunctions.handle args) rfl
  | fileValue => exact (value_idle args idle).1
  | fileBlock => exact (block_idle args idle).1
  | fileString => exact (string_idle args idle).1
  | midiSend | midiSendMemory | midiSendText | midiSendExclusive =>
      simp only [run, send]
      split <;> exact idle
  | midiReceive | midiReceiveMemory | midiReceiveText =>
      rw [run, Idle, files_receive]
      exact idle
  | nextKey =>
      simp only [run, key]
      split
      · split <;> exact idle
      · exact idle

theorem idle_call (name : String) (args : List Arg) (idle : state.2.files.Idle) :
    (call facts caller name args state).2.2.files.Idle := by
  rw [call]
  split
  · exact idle_run _ args idle
  · exact idle

end HostFunction
end EffectHost

import EffectHost.Proofs.Host.Agreement
import EffectHost.Proofs.Host.Blocks

/-!
# Blocks and their slots

Moving a block is meant to do what a loop over its slots does.  It returns what the loop
returns and leaves the memory that the loop leaves, and in writing it appends what the loop
appends.  In reading it asks the file for a piece at a time, before it knows how much of the
piece has room.  So values that the loop would leave in the file are lost if the memory ends
within a block and the file goes on.
-/

namespace EffectHost

open Number

namespace FileFunctions

/-- Move values of a file to slots, one after another, as long as there are slots below the
limit and values in the file. -/
def readSlots : Nat → Nat → Store → OpenFile → Nat × Store × OpenFile
  | 0, _, store, file => (0, store, file)
  | left + 1, address, store, file =>
    if address < store.memory.limit then
      match file.readValue with
      | (some value, next) =>
        let stored := { store with memory := store.memory.write address value }
        let more := readSlots left (address + 1) stored next
        (1 + more.1, more.2)
      | (none, next) => (0, store, next)
    else (0, store, file)

/-- Move slots to a file, one after another, as long as they are below the limit. -/
def writeSlots : Nat → Nat → Memory → OpenFile → Nat × OpenFile
  | 0, _, _, file => (0, file)
  | left + 1, address, memory, file =>
    if address < memory.limit then
      let more := writeSlots left (address + 1) memory (file.writeValue (memory.read address)).2
      (1 + more.1, more.2)
    else (0, file)

/-- Nothing is covered past the limit. -/
theorem covered_past (memory : Memory) {address : Nat} (past : ¬ address < memory.limit)
    (count : Nat) : memory.covered address count = 0 := by
  simp only [Memory.covered]
  omega

theorem covered_succ (memory : Memory) {address : Nat} (inside : address < memory.limit)
    (count : Nat) :
    memory.covered address (count + 1) = memory.covered (address + 1) count + 1 := by
  simp only [Memory.covered]
  omega

theorem writeRange_singleton (store : Store) {address : Nat}
    (inside : address < store.memory.limit) (value : Float) :
    store.writeRange address #[value] =
      (1, { store with memory := store.memory.write address value }) := by
  have room : (#[value] : Array Float).size ≤ store.memory.limit - address := by
    simp only [List.size_toArray, List.length_singleton]
    omega
  rw [Store.writeRange, Memory.writeRange_of_room store.memory room]
  rfl

/-- The loop reads as many values as there is room for, and stores all of them. -/
theorem readSlots_eq (left address : Nat) (store : Store) (file : OpenFile) :
    readSlots left address store file =
      let read := file.readValues (store.memory.covered address left)
      let stored := store.writeRange address read.1
      (stored.1, stored.2, read.2) := by
  induction left generalizing address store file with
  | zero =>
      rw [readSlots, Memory.covered, Nat.zero_min, OpenFile.readValues_zero]
      dsimp only
      rw [Store.writeRange_empty]
  | succ left ih =>
      rw [readSlots]
      by_cases inside : address < store.memory.limit
      · rw [if_pos inside, covered_succ _ inside, OpenFile.readValues_succ]
        cases file.readValue with
        | mk read next =>
            cases read with
            | none =>
                dsimp only
                rw [Store.writeRange_empty]
            | some value =>
                have room : (#[value] : Array Float).size ≤ store.memory.limit - address := by
                  simp only [List.size_toArray, List.length_singleton]
                  omega
                have first := writeRange_singleton store inside value
                have limit : (store.memory.write address value).covered (address + 1) left =
                    store.memory.covered (address + 1) left := by
                  rw [Memory.covered, Store.limit_write, Memory.covered]
                have stored := store.writeRange_append room
                  (next.readValues (store.memory.covered (address + 1) left)).1
                rw [first] at stored
                dsimp only
                rw [ih, limit, stored]
                rfl
      · rw [if_neg inside, covered_past _ inside, OpenFile.readValues_zero]
        dsimp only
        rw [Store.writeRange_empty]

/-- The loop writes the slots that are below the limit. -/
theorem writeSlots_eq (left address : Nat) (memory : Memory) (file : OpenFile) :
    writeSlots left address memory file =
      (memory.covered address left,
        (memory.readRange address left).toList.foldl
          (fun file value => (file.writeValue value).2) file) := by
  simp only [Memory.toList_readRange]
  induction left generalizing address file with
  | zero =>
      rw [writeSlots, Memory.covered, Nat.zero_min]
      rfl
  | succ left ih =>
      rw [writeSlots]
      by_cases inside : address < memory.limit
      · rw [if_pos inside, covered_succ _ inside, ih, List.range'_succ, List.map_cons,
          List.foldl_cons]
        dsimp only
        rw [Nat.add_comm 1]
      · rw [if_neg inside, covered_past _ inside]
        rfl

end FileFunctions

namespace HostFunction

open FileFunctions

/-- Move slots between a file and memory, one after another. -/
def moveSlots (left start : Nat) (store : Store) (file : OpenFile) : (Nat × Store) × OpenFile :=
  if file.isWriting then
    let written := writeSlots left start store.memory file
    ((written.1, store), written.2)
  else
    let read := readSlots left start store file
    ((read.1, read.2.1), read.2.2)

variable {left start : Nat} {store : Store} {file : OpenFile}

theorem moveBlock_of_writing (writing : file.isWriting = true) :
    moveBlock left start store file = moveSlots left start store file := by
  rw [moveBlock, if_pos writing, moveSlots, if_pos writing, writeBlocks_eq, writeSlots_eq]

theorem covered_le_asked (memory : Memory) (left start : Nat) :
    memory.covered start left ≤ asked memory left start := by
  simp only [asked, blockSlots, Memory.covered]
  omega

/-- More is asked for than there is room for only where the room ends. -/
theorem limit_le_of_asked {memory : Memory}
    (more : memory.covered start left < asked memory left start) :
    memory.limit ≤ start + memory.covered start left := by
  simp only [asked, blockSlots, Memory.covered] at more ⊢
  omega

/-- A file that ends below the limit gives what it would give to the loop. -/
theorem readValues_asked (memory : Memory)
    (ends : (file.readValues (memory.covered start left)).1.size < memory.covered start left) :
    file.readValues (asked memory left start) =
      file.readValues (memory.covered start left) := by
  have parts := Nat.add_sub_cancel' (covered_le_asked memory left start)
  rw [← parts, OpenFile.readValues_add, if_pos ends]

/-- What is read past the room is not stored. -/
theorem writeRange_asked (left start : Nat) (store : Store) (file : OpenFile) :
    store.writeRange start (file.readValues (asked store.memory left start)).1 =
      store.writeRange start (file.readValues (store.memory.covered start left)).1 := by
  let count := store.memory.covered start left
  let read := file.readValues count
  by_cases ends : read.1.size < count
  · rw [readValues_asked store.memory ends]
  · have size : read.1.size = count :=
      Nat.le_antisymm (OpenFile.size_readValues_le file count) (Nat.le_of_not_lt ends)
    have room : read.1.size ≤ store.memory.limit - start := size ▸ Nat.min_le_right _ _
    let extra := (read.2.readValues (asked store.memory left start - count)).1
    have whole : (file.readValues (asked store.memory left start)).1 = read.1 ++ extra := by
      have parts := Nat.add_sub_cancel' (covered_le_asked store.memory left start)
      rw [← parts, OpenFile.readValues_add, if_neg ends]
    let front := store.writeRange start read.1
    have first : front.1 = read.1.size := Memory.covered_of_le _ room
    have dropped : front.2.writeRange (start + read.1.size) extra = (0, front.2) := by
      by_cases more : count < asked store.memory left start
      · have past : front.2.memory.limit ≤ start + read.1.size := by
          have limit : front.2.memory.limit = store.memory.limit :=
            Memory.limit_writeRange store.memory start read.1
          rw [limit, size]
          exact limit_le_of_asked more
        rw [Store.writeRange, Memory.writeRange_past _ past]
      · have none : asked store.memory left start - count = 0 := by omega
        have empty : extra = #[] := by
          rw [show extra = (read.2.readValues (asked store.memory left start - count)).1 from rfl,
            none, OpenFile.readValues_zero]
        rw [empty, Store.writeRange_empty]
    rw [whole, store.writeRange_append room, dropped, Nat.add_zero, ← first]

/-- A block that is read is told and stored as the loop does it. -/
theorem moveBlock_of_reading (reading : file.isWriting = false) :
    moveBlock left start store file =
      ((moveSlots left start store file).1,
        (file.readValues (asked store.memory left start)).2) := by
  have reads : ¬ file.isWriting = true := Bool.eq_false_iff.mp reading
  rw [moveBlock, if_neg reads, moveSlots, if_neg reads, readBlocks_eq, readSlots_eq]
  dsimp only
  rw [writeRange_asked]

/-- The loop takes from the file what it moves. -/
theorem moveSlots_of_reading (reading : file.isWriting = false) :
    (moveSlots left start store file).1.1 =
        (file.readValues (store.memory.covered start left)).1.size ∧
      (moveSlots left start store file).2 =
        (file.readValues (store.memory.covered start left)).2 := by
  have reads : ¬ file.isWriting = true := Bool.eq_false_iff.mp reading
  have room : (file.readValues (store.memory.covered start left)).1.size ≤
      store.memory.limit - start :=
    (OpenFile.size_readValues_le file _).trans (Nat.min_le_right _ _)
  rw [moveSlots, if_neg reads, readSlots_eq]
  exact ⟨Memory.covered_of_le _ room, rfl⟩

theorem run_fileBlock (facts : Facts) (caller : Caller) {args : List Arg} {state : State}
    (isOpen : state.2.files.get? (FileFunctions.handle args) = some file)
    (moves : ¬ (argValue args 1 < 0.0 || argValue args 2 ≤ 0.0) = true) :
    let moved := moveBlock (min (toNatural (argValue args 2)) maxMemorySlots)
      (toNatural (argValue args 1)) state.1 file
    fileBlock.run facts caller args state =
      (Float.ofNat moved.1.1, moved.1.2,
        { state.2 with files := state.2.files.put (FileFunctions.handle args) moved.2 }) := by
  have run : fileBlock.run facts caller args state =
      onFilesAndStore (FileFunctions.block args) state := rfl
  rw [run, onFilesAndStore, block_eq_ofFile moves, ofFile, FileTable.withFile, isOpen]

/-- Moving a block between an open file and memory returns what the loop over its slots
returns, and leaves the memory that the loop leaves.  It leaves the file as the loop does, too,
if it writes, if the block ends below the limit of the memory, or if the file ends there.  But
if it reads a file that goes on past the limit, it takes from the file what it has asked for:
the values past the limit are taken and not stored. -/
theorem blocks_move_slots_of_loop (facts : Facts) (caller : Caller) (args : List Arg)
    (state : State) {file : OpenFile}
    (isOpen : state.2.files.get? (FileFunctions.handle args) = some file)
    (addressed : ¬ argValue args 1 < 0.0) (sized : ¬ argValue args 2 ≤ 0.0) :
    let handle := FileFunctions.handle args
    let address := toNatural (argValue args 1)
    let count := min (toNatural (argValue args 2)) maxMemorySlots
    let room := state.1.memory.limit - address
    let loop := moveSlots count address state.1 file
    let done := fileBlock.run facts caller args state
    let taken := file.readValues (asked state.1.memory count address)
    done.1 = Float.ofNat loop.1.1 ∧ done.2.1 = loop.1.2 ∧
      (file.isWriting = true ∨ count ≤ room ∨ (file.readValues room).1.size < room →
        done.2.2 = { state.2 with files := state.2.files.put handle loop.2 }) ∧
      (file.isWriting = false →
        done.2.2 = { state.2 with files := state.2.files.put handle taken.2 } ∧
        loop.2 = (file.readValues (min count room)).2 ∧
        loop.1.1 = min taken.1.size room) := by
  intro handle address count room loop done taken
  have moves : ¬ (argValue args 1 < 0.0 || argValue args 2 ≤ 0.0) = true := by
    simp [addressed, sized]
  have ran : done = _ := run_fileBlock facts caller isOpen moves
  cases mode : file.isWriting with
  | true =>
      rw [moveBlock_of_writing mode] at ran
      rw [ran]
      exact ⟨rfl, rfl, fun _ => rfl, nofun⟩
  | false =>
      rw [moveBlock_of_reading mode] at ran
      have told : loop.1.1 = (file.readValues (min count room)).1.size ∧
          loop.2 = (file.readValues (min count room)).2 := moveSlots_of_reading mode
      rw [ran]
      refine ⟨rfl, rfl, ?_, fun _ => ⟨rfl, told.2, ?_⟩⟩
      · intro holds
        have same : taken = file.readValues (min count room) := by
          rcases holds with writing | fits | ends
          · cases writing
          · rw [Nat.min_eq_left fits]
            exact congrArg file.readValues (asked_of_le fits)
          · by_cases fits : count ≤ room
            · rw [Nat.min_eq_left fits]
              exact congrArg file.readValues (asked_of_le fits)
            · rw [← Nat.min_eq_right (Nat.le_of_not_le fits)] at ends
              exact readValues_asked state.1.memory ends
        rw [told.2, ← same]
      · have stored := congrArg Prod.fst (writeRange_asked count address state.1 file)
        have all : (file.readValues (min count room)).1.size ≤ room :=
          (OpenFile.size_readValues_le file _).trans (Nat.min_le_right _ _)
        rw [told.1, ← Memory.covered_of_le state.1.memory all]
        exact stored.symm

/-- A block of five slots is asked of a file with one sample, two slots below the limit. -/
theorem blocks_move_slots_of_loop_sample :
    let file : OpenFile := .audio { channels := 1, rate := 44100, samples := #[0.5] }
    let store : Store := { Machine.hosted.store with memory := { limit := 8 } }
    let state : State := (store,
      { input := MidiLog.new 0 true, output := MidiLog.new 0 true,
        files := { files := [some file] } })
    let args : List Arg := [⟨1.0, none⟩, ⟨6.0, none⟩, ⟨5.0, none⟩]
    let loop := moveSlots 5 6 store file
    let done := fileBlock.run {} { role := .audio, hasMidi := true } args state
    done.1 = Float.ofNat loop.1.1 ∧ done.2.1 = loop.1.2 ∧
      done.2.2.files = { files := [some loop.2] } := by
  intro file store state args loop done
  have handle : FileFunctions.handle args = 1 := by decide +kernel
  have address : toNatural (argValue args 1) = 6 := by decide +kernel
  have count : min (toNatural (argValue args 2)) maxMemorySlots = 5 := by decide +kernel
  have isOpen : state.2.files.get? (FileFunctions.handle args) = some file := by
    rw [handle]
    rfl
  have law := blocks_move_slots_of_loop {} { role := .audio, hasMidi := true } args state isOpen
    (by decide +kernel) (by decide +kernel)
  dsimp only at law
  rw [handle, address, count] at law
  rcases law with ⟨result, stored, left, _⟩
  have around := left (.inr (.inr (by decide +kernel)))
  exact ⟨result, stored, congrArg Surroundings.files around⟩

/-- Two slots below the limit, a block of three slots is asked of a file with four values.  Two
values are moved, but three are taken; the loop leaves the third in the file. -/
theorem block_takes_values_past_limit :
    let file : OpenFile := .text (TextStream.ofText "1 2 3 4")
    let store : Store := { Machine.hosted.store with memory := { limit := 8 } }
    let state : State := (store,
      { input := MidiLog.new 0 true, output := MidiLog.new 0 true,
        files := { files := [some file] } })
    let args : List Arg := [⟨1.0, none⟩, ⟨6.0, none⟩, ⟨3.0, none⟩]
    let loop := moveSlots 3 6 store file
    let done := fileBlock.run {} { role := .audio, hasMidi := true } args state
    file.available = 4 ∧ done.1 = 2.0 ∧ FileFunctions.available args done.2.2.files = 1.0 ∧
      loop.1.1 = 2 ∧ loop.2.available = 2 := by
  intro file store state args loop done
  exact ⟨by decide +kernel, by decide +kernel, by decide +kernel, by decide +kernel,
    by decide +kernel⟩

end HostFunction
end EffectHost

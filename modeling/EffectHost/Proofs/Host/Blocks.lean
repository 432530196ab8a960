import EffectHost.Proofs.DataFile.Reading
import EffectHost.Proofs.Host.Rounding

/-!
# Blocks of values

A block is moved between a file and memory in pieces of equal size.  It is read as if its values
were asked of the file at once and then stored, as far as there is room.  What is asked for
includes the piece in which the room ends.  It is written as if it were one piece.
-/

namespace EffectHost

open FileFunctions

namespace Memory

/-- Of a range and the one behind it, each covers its part. -/
theorem covered_add (memory : Memory) {address first : Nat}
    (room : first ≤ memory.limit - address) (others : Nat) :
    memory.covered address (first + others) = first + memory.covered (address + first) others := by
  simp only [covered]
  omega

theorem covered_of_le (memory : Memory) {address count : Nat}
    (room : count ≤ memory.limit - address) : memory.covered address count = count :=
  Nat.min_eq_left room

/-- Store values one after another, wherever they go. -/
def writeList (memory : Memory) (address : Nat) (values : List Float) : Nat × Memory :=
  values.foldl (fun state value => (state.1 + 1, state.2.write state.1 value)) (address, memory)

theorem writeRange_eq (memory : Memory) (address : Nat) (values : Array Float) :
    memory.writeRange address values =
      (memory.covered address values.size,
        (memory.writeList address
          (values.toList.take (memory.covered address values.size))).2) := rfl

theorem writeList_fst (memory : Memory) (address : Nat) (values : List Float) :
    (memory.writeList address values).1 = address + values.length := by
  induction values generalizing memory address with
  | nil => rfl
  | cons value others ih =>
      rw [writeList, List.foldl_cons]
      refine (ih _ _).trans ?_
      rw [List.length_cons]
      omega

theorem writeList_append (memory : Memory) (address : Nat) (first others : List Float) :
    memory.writeList address (first ++ others) =
      (memory.writeList address first).2.writeList (address + first.length) others := by
  rw [← writeList_fst memory address first, writeList, List.foldl_append]
  rfl

theorem limit_writeRange (memory : Memory) (address : Nat) (values : Array Float) :
    (memory.writeRange address values).2.limit = memory.limit :=
  (Store.sameShape_writeRange { memory := memory } address values).2

/-- Where there is room for all values, all are stored. -/
theorem writeRange_of_room (memory : Memory) {address : Nat} {values : Array Float}
    (room : values.size ≤ memory.limit - address) :
    memory.writeRange address values =
      (values.size, (memory.writeList address values.toList).2) := by
  have all : values.toList.take values.size = values.toList :=
    List.take_of_length_le (Nat.le_of_eq Array.length_toList)
  rw [writeRange_eq, covered_of_le memory room, all]

/-- Values for which there is room are stored in front of the others. -/
theorem writeRange_append (memory : Memory) {address : Nat} {first : Array Float}
    (room : first.size ≤ memory.limit - address) (others : Array Float) :
    let front := memory.writeRange address first
    let back := front.2.writeRange (address + first.size) others
    memory.writeRange address (first ++ others) = (first.size + back.1, back.2) := by
  intro front back
  have limit : front.2.limit = memory.limit := limit_writeRange memory address first
  have same : front.2.covered (address + first.size) others.size =
      memory.covered (address + first.size) others.size := by rw [covered, covered, limit]
  have parts (kept : Nat) : (first.toList ++ others.toList).take (first.size + kept) =
      first.toList ++ others.toList.take kept := by
    rw [← Array.length_toList, List.take_length_add_append]
  have whole : front = (first.size, (memory.writeList address first.toList).2) :=
    writeRange_of_room memory room
  have stored := congrArg Prod.snd whole
  rw [writeRange_eq, Array.size_append, covered_add memory room, Array.toList_append, parts,
    writeList_append, Array.length_toList, ← stored, ← same]
  rfl

/-- Past the limit nothing is stored. -/
theorem writeRange_past (memory : Memory) {address : Nat} (past : memory.limit ≤ address)
    (values : Array Float) : memory.writeRange address values = (0, memory) := by
  have none : memory.covered address values.size = 0 := by
    simp only [covered]
    omega
  rw [writeRange_eq, none]
  rfl

/-- The values of a range stand in front of those of the one behind it. -/
theorem toList_readRange_add (memory : Memory) {address first : Nat}
    (room : first ≤ memory.limit - address) (others : Nat) :
    (memory.readRange address (first + others)).toList =
      (memory.readRange address first).toList ++
        (memory.readRange (address + first) others).toList := by
  rw [toList_readRange, toList_readRange, toList_readRange, covered_add memory room,
    covered_of_le memory room, ← List.range'_append_1, List.map_append]

@[simp] theorem size_readRange (memory : Memory) (address count : Nat) :
    (memory.readRange address count).size = memory.covered address count :=
  Array.size_ofFn

end Memory

namespace Store

/-- Values for which there is room are stored in front of the others. -/
theorem writeRange_append (store : Store) {address : Nat} {first : Array Float}
    (room : first.size ≤ store.memory.limit - address) (others : Array Float) :
    let front := store.writeRange address first
    let back := front.2.writeRange (address + first.size) others
    store.writeRange address (first ++ others) = (first.size + back.1, back.2) := by
  intro front back
  rw [writeRange, Memory.writeRange_append store.memory room]
  rfl

@[simp] theorem writeRange_empty (store : Store) (address : Nat) :
    store.writeRange address #[] = (0, store) := by
  have none : store.memory.covered address (#[] : Array Float).size = 0 := Nat.zero_min _
  rw [writeRange, Memory.writeRange_eq, none]
  rfl

end Store

namespace FileFunctions

/-- The number of values that a block asks of a file: no more than the script wants, and only
in the piece in which the room ends more than there is room for. -/
def asked (memory : Memory) (left address : Nat) : Nat :=
  min left (((memory.limit - address) / blockSlots + 1) * blockSlots)

/-- The first piece is asked for in any case. -/
theorem le_asked (memory : Memory) (left address : Nat) :
    min left blockSlots ≤ asked memory left address := by
  simp only [asked, blockSlots]
  omega

/-- No more is asked for if there is room for the whole block. -/
theorem asked_of_le {memory : Memory} {left address : Nat}
    (room : left ≤ memory.limit - address) : asked memory left address = left := by
  simp only [asked, blockSlots]
  omega

/-- If there is no room for the first piece, no other is asked for. -/
theorem asked_of_short {memory : Memory} {left address : Nat}
    (short : memory.limit - address < min left blockSlots) :
    asked memory left address = min left blockSlots := by
  rw [asked, Nat.div_eq_of_lt (by omega), Nat.zero_add, Nat.one_mul]

/-- If there is room for the first piece, the others follow. -/
theorem asked_of_room {memory : Memory} {left address : Nat}
    (room : min left blockSlots ≤ memory.limit - address) :
    asked memory left address = min left blockSlots +
      asked memory (left - min left blockSlots) (address + min left blockSlots) := by
  simp only [asked, blockSlots] at room ⊢
  omega

/-- A block is read as if its values were asked for at once. -/
theorem readBlocks_eq (left address : Nat) (store : Store) (file : OpenFile) :
    readBlocks left address store file =
      let read := file.readValues (asked store.memory left address)
      let stored := store.writeRange address read.1
      (stored.1, stored.2, read.2) := by
  induction left using Nat.strongRecOn generalizing address store file with
  | ind left ih =>
      rw [readBlocks]
      by_cases none : left = 0
      · subst none
        have nothing : asked store.memory 0 address = 0 := Nat.zero_min _
        rw [if_pos rfl, nothing, OpenFile.readValues_zero]
        dsimp only
        rw [Store.writeRange_empty]
      · rw [if_neg none]
        let read := file.readValues (min left blockSlots)
        have within : read.1.size ≤ min left blockSlots := OpenFile.size_readValues_le file _
        have count : (store.writeRange address read.1).1 =
            min read.1.size (store.memory.limit - address) := rfl
        dsimp only
        split
        · next short =>
            have same : file.readValues (asked store.memory left address) = read := by
              by_cases few : read.1.size < min left blockSlots
              · have more := Nat.add_sub_cancel' (le_asked store.memory left address)
                rw [← more, OpenFile.readValues_add, if_pos few]
              · rw [count] at short
                rw [asked_of_short (by omega)]
            rw [same]
        · next full =>
            rw [count] at full
            have many : ¬ read.1.size < min left blockSlots := by omega
            have size : read.1.size = min left blockSlots := by omega
            have room : read.1.size ≤ store.memory.limit - address := by omega
            have fewer : left - min left blockSlots < left := by
              simp only [blockSlots]
              omega
            let others := left - min left blockSlots
            let behind := address + min left blockSlots
            have limit := Memory.limit_writeRange store.memory address read.1
            have rest : asked (store.writeRange address read.1).2.memory others behind =
                asked store.memory others behind := by
              rw [asked, asked, ← limit]
              rfl
            have parts : asked store.memory left address =
                min left blockSlots + asked store.memory others behind :=
              asked_of_room (by omega)
            let more := read.2.readValues (asked store.memory others behind)
            have whole : file.readValues (asked store.memory left address) =
                (read.1 ++ more.1, more.2) := by
              rw [parts, OpenFile.readValues_add, if_neg many]
            have stored := store.writeRange_append room more.1
            rw [size] at stored
            rw [ih _ fewer, rest, whole]
            dsimp only
            rw [stored]

/-- A block is written as if it were one piece. -/
theorem writeBlocks_eq (left address : Nat) (memory : Memory) (file : OpenFile) :
    writeBlocks left address memory file =
      (memory.covered address left,
        (memory.readRange address left).toList.foldl
          (fun file value => (file.writeValue value).2) file) := by
  induction left using Nat.strongRecOn generalizing address file with
  | ind left ih =>
      rw [writeBlocks]
      by_cases none : left = 0
      · subst none
        rw [if_pos rfl, Memory.toList_readRange, Memory.covered, Nat.zero_min]
        rfl
      · rw [if_neg none]
        dsimp only
        rw [← Array.foldl_toList, Memory.size_readRange]
        split
        · next short =>
            have same : memory.covered address (min left blockSlots) =
                memory.covered address left := by
              simp only [Memory.covered] at short ⊢
              omega
            rw [same, Memory.toList_readRange, Memory.toList_readRange, same]
        · next full =>
            have room : min left blockSlots ≤ memory.limit - address := by
              simp only [Memory.covered] at full
              omega
            have fewer : left - min left blockSlots < left := by
              simp only [blockSlots]
              omega
            have whole : min left blockSlots + (left - min left blockSlots) = left := by omega
            have count := memory.covered_add room (left - min left blockSlots)
            have values := memory.toList_readRange_add room (left - min left blockSlots)
            rw [whole] at count values
            rw [ih _ fewer, count, values, List.foldl_append]

end FileFunctions
end EffectHost

import EffectHost.Preset.State
import EffectHost.Proofs.Number.Single

/-!
# States and their bytes

The binary form of a state is a count, a record of two words for each slider, and the data.
Bytes are read as a state exactly when all the records that the count promises are there.  What
was written is read again with the values rounded to single precision, and what was read is
written again as it was, unless a value in it is no number: many words stand for such a value,
and only one of them is written.
-/

namespace EffectHost

open Bytes Number

namespace Bytes

/-- Four bytes or more begin with a word. -/
theorem exists_ofWord_append {bytes : List UInt8} (long : 4 ≤ bytes.length) :
    ∃ word rest, bytes = ofWord word ++ rest := by
  match bytes, long with
  | b0 :: b1 :: b2 :: b3 :: rest, _ =>
      rcases byteOf_toWord b0 b1 b2 b3 with ⟨first, second, third, fourth⟩
      exact ⟨toWord b0 b1 b2 b3, rest, by simp [ofWord, first, second, third, fourth]⟩

end Bytes

namespace EffectState

/-! ## Records -/

/-- A slider as it stands in the binary form of a state. -/
structure SliderRecord where
  slot : UInt32
  word : UInt32

namespace SliderRecord

def bytes (entry : SliderRecord) : List UInt8 :=
  ofWord entry.slot ++ ofWord entry.word

/-- The slider that a record is read as. -/
def slider (entry : SliderRecord) : SliderValue :=
  ⟨entry.slot, widen entry.word⟩

/-- The record that a slider is written as. -/
def ofSlider (entry : SliderValue) : SliderRecord :=
  ⟨entry.slot, narrow entry.value⟩

@[simp] theorem length_bytes (entry : SliderRecord) : entry.bytes.length = 8 := rfl

theorem length_flatMap_bytes (records : List SliderRecord) :
    (records.flatMap bytes).length = 8 * records.length := by
  induction records with
  | nil => rfl
  | cons entry others ih =>
      rw [List.flatMap_cons, List.length_append, ih, length_bytes, List.length_cons]
      omega

end SliderRecord

/-- Enough bytes begin with any number of records. -/
theorem exists_records (count : Nat) {bytes : List UInt8} (long : 8 * count ≤ bytes.length) :
    ∃ (records : List SliderRecord) (rest : List UInt8),
      records.length = count ∧ bytes = records.flatMap SliderRecord.bytes ++ rest := by
  induction count generalizing bytes with
  | zero => exact ⟨[], bytes, rfl, rfl⟩
  | succ count ih =>
      have one : 4 ≤ bytes.length := by omega
      rcases exists_ofWord_append one with ⟨slot, behind, rfl⟩
      rw [List.length_append, length_ofWord] at long
      have two : 4 ≤ behind.length := by omega
      rcases exists_ofWord_append two with ⟨word, rest, rfl⟩
      rw [List.length_append, length_ofWord] at long
      have others : 8 * count ≤ rest.length := by omega
      rcases ih others with ⟨records, last, length, rfl⟩
      refine ⟨⟨slot, word⟩ :: records, last, by rw [List.length_cons, length], ?_⟩
      simp [SliderRecord.bytes]

/-- Records are read one after another, and the bytes behind them are left. -/
theorem takeSliders?_records (records : List SliderRecord) (rest : List UInt8) :
    takeSliders? records.length (records.flatMap SliderRecord.bytes ++ rest) =
      some (records.map SliderRecord.slider, rest) := by
  induction records with
  | nil => rfl
  | cons entry others ih =>
      simp [takeSliders?, SliderRecord.bytes, SliderRecord.slider, ih]

/-! ## The whole form -/

theorem toList_toBytes (state : EffectState) :
    state.toBytes.data.toList = ofWord (UInt32.ofNat state.sliders.length) ++
      ((state.sliders.map SliderRecord.ofSlider).flatMap SliderRecord.bytes ++
        state.data.data.toList) := by
  have records : state.sliders.flatMap sliderBytes =
      (state.sliders.map SliderRecord.ofSlider).flatMap SliderRecord.bytes := by
    rw [List.flatMap_map]
    rfl
  simp [toBytes, records]

/-- Bytes with as many records as they promise are read record by record. -/
theorem ofBytes?_of_records {bytes : ByteArray} {count : UInt32} {records : List SliderRecord}
    {rest : List UInt8} (length : records.length = count.toNat)
    (made : bytes.data.toList =
      ofWord count ++ (records.flatMap SliderRecord.bytes ++ rest)) :
    ofBytes? bytes = some ⟨records.map SliderRecord.slider, pack rest⟩ := by
  have size : bytes.size = 4 + (8 * count.toNat + rest.length) := by
    have counted := congrArg List.length made
    rw [List.length_append, List.length_append, length_ofWord,
      SliderRecord.length_flatMap_bytes, length] at counted
    exact counted
  have enough : ¬ bytes.size < 4 + 8 * count.toNat := by omega
  have taken := takeSliders?_records records rest
  rw [length] at taken
  rw [ofBytes?, made, takeWord?_ofWord_append, Option.bind_eq_bind, Option.bind_some]
  dsimp only
  rw [if_neg enough, taken]
  rfl

/-- Bytes that are not too short for their count are made of records. -/
theorem exists_records_of_le {bytes : ByteArray} {count : UInt32}
    (first : wordAt? bytes 0 = some count) (long : 4 + 8 * count.toNat ≤ bytes.size) :
    ∃ (records : List SliderRecord) (rest : List UInt8), records.length = count.toNat ∧
      bytes.data.toList = ofWord count ++ (records.flatMap SliderRecord.bytes ++ rest) := by
  have length : bytes.data.toList.length = bytes.size := rfl
  have one : 4 ≤ bytes.data.toList.length := by omega
  rcases exists_ofWord_append one with ⟨word, behind, made⟩
  have same : word = count := by
    rw [wordAt?_eq_takeWord?, List.drop_zero, made, takeWord?_ofWord_append] at first
    exact Option.some.inj first
  subst same
  rw [made, List.length_append, length_ofWord] at length
  have others : 8 * word.toNat ≤ behind.length := by omega
  rcases exists_records word.toNat others with ⟨records, rest, counted, rfl⟩
  exact ⟨records, rest, counted, made⟩

/-- Bytes that are read hold the records that they promise. -/
theorem long_of_ofBytes? {bytes : ByteArray} {state : EffectState}
    (read : ofBytes? bytes = some state) :
    ∃ count : UInt32, wordAt? bytes 0 = some count ∧ 4 + 8 * count.toNat ≤ bytes.size := by
  rw [ofBytes?, Option.bind_eq_bind, Option.bind_eq_some_iff] at read
  rcases read with ⟨⟨count, behind⟩, first, enough⟩
  refine ⟨count, ?_, ?_⟩
  · rw [wordAt?_eq_takeWord?, List.drop_zero, first]
    rfl
  · apply Nat.le_of_not_lt
    intro short
    rw [if_pos short] at enough
    cases enough

/-- The word of the value of a record stands at its place. -/
theorem wordAt?_value {bytes : ByteArray} {count : UInt32} {records : List SliderRecord}
    {rest : List UInt8}
    (made : bytes.data.toList =
      ofWord count ++ (records.flatMap SliderRecord.bytes ++ rest))
    {position : Nat} (inside : position < records.length) :
    wordAt? bytes (8 + 8 * position) = some records[position].word := by
  let entry := records[position]
  have split : records = records.take position ++ entry :: records.drop (position + 1) := by
    rw [← List.drop_eq_getElem_cons inside, List.take_append_drop]
  have front : (ofWord count ++ (records.take position).flatMap SliderRecord.bytes ++
      ofWord entry.slot).length = 8 + 8 * position := by
    rw [List.length_append, List.length_append, SliderRecord.length_flatMap_bytes,
      List.length_take, length_ofWord, length_ofWord]
    omega
  have parted : bytes.data.toList =
      (ofWord count ++ (records.take position).flatMap SliderRecord.bytes ++
        ofWord entry.slot) ++ (ofWord entry.word ++
          ((records.drop (position + 1)).flatMap SliderRecord.bytes ++ rest)) := by
    rw [made]
    conv => lhs; rw [split]
    simp [SliderRecord.bytes]
  rw [wordAt?_eq_takeWord?, parted, ← front, List.drop_left, takeWord?_ofWord_append]
  rfl

/-- A slider with its value rounded to single precision. -/
def rounded (entry : SliderValue) : SliderValue :=
  { entry with value := roundToSingle entry.value }

/-- What was written is read again, rounded. -/
theorem ofBytes?_toBytes {state : EffectState} (few : state.sliders.length < 2 ^ 32) :
    ofBytes? state.toBytes = some { state with sliders := state.sliders.map rounded } := by
  have length : (state.sliders.map SliderRecord.ofSlider).length =
      (UInt32.ofNat state.sliders.length).toNat := by
    rw [List.length_map, UInt32.toNat_ofNat']
    exact (Nat.mod_eq_of_lt few).symm
  rw [ofBytes?_of_records length state.toList_toBytes, List.map_map]
  rfl

/-- What was read is written again, if all values in it are numbers. -/
theorem toBytes_of_ofBytes? {bytes : ByteArray} {state : EffectState}
    (read : ofBytes? bytes = some state)
    (numbers : ∀ position < state.sliders.length, ∀ word,
      wordAt? bytes (8 + 8 * position) = some word → Format.single.unpack word.toNat ≠ .nan) :
    state.toBytes = bytes := by
  rcases long_of_ofBytes? read with ⟨count, first, long⟩
  rcases exists_records_of_le first long with ⟨records, rest, length, made⟩
  rw [ofBytes?_of_records length made, Option.some.injEq] at read
  subst read
  have written : (records.map SliderRecord.slider).map SliderRecord.ofSlider = records := by
    rw [List.map_map]
    apply List.ext_getElem
    · rw [List.length_map]
    · intro position _ inside
      have number := numbers position (by rwa [List.length_map]) _ (wordAt?_value made inside)
      rw [List.getElem_map, Function.comp_apply, SliderRecord.ofSlider, SliderRecord.slider,
        narrow_widen number]
  apply ByteArray.ext
  apply Array.ext'
  rw [toList_toBytes, written, made, List.length_map, length, UInt32.ofNat_toNat]
  rfl

/-- States and their bytes determine each other.  Bytes are read exactly when they hold all the
records of their count, whose end is far from the end of the address space; what was written is
read again, rounded; what was read is written again if its values are numbers. -/
theorem state_bytes_round_trip :
    (∀ bytes : ByteArray, (ofBytes? bytes).isSome = true ↔
      4 ≤ bytes.size ∧
        ∃ count, wordAt? bytes 0 = some count ∧ 4 + 8 * count.toNat ≤ bytes.size) ∧
    (∀ (bytes : ByteArray) (count : UInt32), wordAt? bytes 0 = some count →
      4 + 8 * count.toNat < 2 ^ 64) ∧
    (∀ state : EffectState, state.sliders.length < 2 ^ 32 →
      ofBytes? state.toBytes = some { state with sliders := state.sliders.map rounded }) ∧
    ∀ (bytes : ByteArray) (state : EffectState), ofBytes? bytes = some state →
      (∀ position < state.sliders.length, ∀ word,
        wordAt? bytes (8 + 8 * position) = some word →
          Format.single.unpack word.toNat ≠ .nan) →
      state.toBytes = bytes := by
  refine ⟨?_, ?_, fun _ few => ofBytes?_toBytes few, fun _ _ => toBytes_of_ofBytes?⟩
  · intro bytes
    constructor
    · intro accepted
      rcases Option.isSome_iff_exists.mp accepted with ⟨state, read⟩
      rcases long_of_ofBytes? read with ⟨count, first, long⟩
      exact ⟨by omega, count, first, long⟩
    · rintro ⟨_, count, first, long⟩
      rcases exists_records_of_le first long with ⟨records, rest, length, made⟩
      rw [ofBytes?_of_records length made]
      rfl
  · intro _ count _
    have size := count.toNat_lt
    omega

/-- Two values for one slot, of which single precision does not have the first. -/
theorem state_bytes_round_trip_repeated :
    let state : EffectState := ⟨[⟨2, 0.1⟩, ⟨2, 0.5⟩], pack [7, 0]⟩
    let again : EffectState := ⟨[⟨2, roundToSingle 0.1⟩, ⟨2, 0.5⟩], pack [7, 0]⟩
    state.sliders.length < 2 ^ 32 ∧ ofBytes? state.toBytes = some again ∧
      again.toBytes = state.toBytes ∧ (ofBytes? state.toBytes).isSome = true := by
  intro state again
  rcases state_bytes_round_trip with ⟨accepted, _, written, read⟩
  have few : state.sliders.length < 2 ^ 32 := by decide
  have half : roundToSingle 0.5 = 0.5 := by decide +kernel
  have same : ({ state with sliders := state.sliders.map rounded } : EffectState) = again := by
    simp [state, again, rounded, half]
  have decoded := (written state few).trans (congrArg some same)
  have words : wordAt? state.toBytes 8 = some 0x3DCCCCCD ∧
      wordAt? state.toBytes 16 = some 0x3F000000 := by
    decide +kernel
  refine ⟨few, decoded, read _ again decoded ?_, (accepted _).mpr ?_⟩
  · intro position inside word found
    match position, inside with
    | 0, _ =>
        rw [words.1] at found
        cases found
        decide
    | 1, _ =>
        rw [words.2] at found
        cases found
        decide
  · exact ⟨by decide +kernel, 2, by decide +kernel, by decide +kernel⟩

end EffectState
end EffectHost

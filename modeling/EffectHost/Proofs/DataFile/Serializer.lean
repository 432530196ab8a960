import EffectHost.DataFile.Handle
import EffectHost.Proofs.Number.Single
import EffectHost.Proofs.Text.Utf8

/-!
# What the serializer gives back

While a state is saved the serializer holds the bytes that were written so far, and while
it is restored the bytes that are left to read.  What was written is read again in the same
order: a value rounded to single precision, and a text as it was, unless it has so many
bytes that their number cannot be written.
-/

namespace EffectHost

open Bytes Number Text

namespace Bytes

theorem pushWord_pack (bytes : List UInt8) (word : UInt32) :
    pushWord (pack bytes) word = pack (bytes ++ ofWord word) := by
  apply ByteArray.ext
  apply Array.ext'
  simp

theorem pack_append (bytes : List UInt8) (more : ByteArray) :
    pack bytes ++ more = pack (bytes ++ more.data.toList) := by
  apply ByteArray.ext
  apply Array.ext'
  simp

/-- The bytes of a text behind their number. -/
def ofText (text : String) : List UInt8 :=
  ofWord (UInt32.ofNat (Utf8.encode text).size) ++ (Utf8.encode text).data.toList

end Bytes

namespace ByteStream

variable {stream : ByteStream}

theorem wordAt?_of_rest {word : UInt32} {rest : List UInt8}
    (left : stream.bytes.data.toList.drop stream.position = ofWord word ++ rest) :
    wordAt? stream.bytes stream.position = some word := by
  rw [wordAt?_eq_takeWord?, left, takeWord?_ofWord_append]
  rfl

/-- A word is read as the value that it stands for. -/
theorem readValue?_of_rest {word : UInt32} {rest : List UInt8}
    (left : stream.bytes.data.toList.drop stream.position = ofWord word ++ rest) :
    stream.readValue? = some (widen word, { stream with position := stream.position + 4 }) := by
  rw [readValue?, wordAt?_of_rest left]
  rfl

/-- A text is read as it was written. -/
theorem readString?_of_rest {text : String} {rest : List UInt8}
    (small : (Utf8.encode text).size < 2 ^ 32)
    (left : stream.bytes.data.toList.drop stream.position = Bytes.ofText text ++ rest) :
    stream.readString? = some (text,
      { stream with position := stream.position + (Bytes.ofText text).length }) := by
  have size : (UInt32.ofNat (Utf8.encode text).size).toNat = (Utf8.encode text).size :=
    Nat.mod_eq_of_lt small
  have length : (Bytes.ofText text).length = 4 + (Utf8.encode text).size := by
    rw [Bytes.ofText, List.length_append, length_ofWord]
    rfl
  have inside : stream.position + 4 + (Utf8.encode text).size ≤ stream.bytes.size := by
    have counted := congrArg List.length left
    rw [List.length_drop, List.length_append, length] at counted
    have total : stream.bytes.data.toList.length = stream.bytes.size := rfl
    omega
  have behind : stream.bytes.data.toList.drop (stream.position + 4) =
      (Utf8.encode text).data.toList ++ rest := by
    rw [← List.drop_drop, left, Bytes.ofText, List.append_assoc]
    exact List.drop_left' (length_ofWord _)
  have taken : stream.bytes.extract (stream.position + 4)
      (stream.position + 4 + (Utf8.encode text).size) = Utf8.encode text := by
    apply ByteArray.ext
    apply Array.ext'
    rw [ByteArray.data_extract, Array.toList_extract, List.extract_eq_take_drop, behind,
      Nat.add_sub_cancel_left]
    exact List.take_left
  rw [Bytes.ofText, List.append_assoc] at left
  rw [readString?, wordAt?_of_rest left, length, Option.bind_eq_bind, Option.bind_some]
  dsimp only
  rw [size, if_pos inside, taken, Utf8.decode_encode, Nat.add_assoc]

end ByteStream

namespace Serializer

/-- A serializer that bytes have been written to. -/
def written (bytes : List UInt8) : Serializer :=
  .start .writing (pack bytes)

/-- A serializer has bytes left to read. -/
structure Reads (serializer : Serializer) (rest : List UInt8) : Prop where
  mode : serializer.mode = .reading
  rest : serializer.stream.bytes.data.toList.drop serializer.stream.position = rest

theorem reads_start (data : ByteArray) : (start .reading data).Reads data.data.toList :=
  ⟨rfl, rfl⟩

end Serializer

namespace OpenFile

open Serializer

theorem writeValue_written (bytes : List UInt8) (value : Float) :
    (serializer (written bytes)).writeValue value =
      (true, serializer (written (bytes ++ ofWord (narrow value)))) := by
  rw [written, written, ← pushWord_pack]
  rfl

theorem writeString_written (bytes : List UInt8) (text : String) :
    (serializer (written bytes)).writeString text =
      (true, serializer (written (bytes ++ Bytes.ofText text))) := by
  rw [written, written, Bytes.ofText, ← List.append_assoc, ← pack_append, ← pushWord_pack]
  rfl

variable {state : Serializer} {rest : List UInt8}

theorem readValue_of_reads {word : UInt32} (reads : state.Reads (ofWord word ++ rest)) :
    ∃ next, (serializer state).readValue = (some (widen word), serializer next) ∧
      next.Reads rest := by
  refine ⟨{ state with stream := { state.stream with position := state.stream.position + 4 } },
    ?_, reads.mode, ?_⟩
  · rw [readValue, if_pos reads.mode, ByteStream.readValue?_of_rest reads.rest]
    rfl
  · dsimp only
    rw [← List.drop_drop, reads.rest]
    exact List.drop_left' (length_ofWord word)

theorem readString_of_reads {text : String} (small : (Utf8.encode text).size < 2 ^ 32)
    (reads : state.Reads (Bytes.ofText text ++ rest)) :
    ∃ next, (serializer state).readString = (some text, serializer next) ∧
      next.Reads rest := by
  refine ⟨{ state with stream := { state.stream with
      position := state.stream.position + (Bytes.ofText text).length } }, ?_, reads.mode, ?_⟩
  · rw [readString, if_pos reads.mode, ByteStream.readString?_of_rest small reads.rest]
    rfl
  · dsimp only
    rw [← List.drop_drop, reads.rest]
    exact List.drop_left

/-- Values that were written one after another are read one after another. -/
theorem readEach_of_reads (words : List UInt32) (done : Array Float) :
    ∀ {state : Serializer}, state.Reads (words.flatMap ofWord ++ rest) →
      ∃ next, readEach words.length done (serializer state) =
        (done ++ (words.map widen).toArray, serializer next) ∧ next.Reads rest := by
  induction words generalizing done with
  | nil => exact fun reads => ⟨_, by simp [readEach], reads⟩
  | cons word others ih =>
      intro state reads
      rw [List.flatMap_cons, List.append_assoc] at reads
      rcases readValue_of_reads reads with ⟨next, read, left⟩
      rcases ih (done.push (widen word)) left with ⟨last, more, behind⟩
      refine ⟨last, ?_, behind⟩
      rw [List.length_cons, readEach, read]
      dsimp only
      rw [more]
      simp

end OpenFile
end EffectHost

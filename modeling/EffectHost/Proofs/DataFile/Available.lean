import EffectHost.Proofs.DataFile.Reading
import Mathlib.Data.List.Basic
import Mathlib.Tactic.NormNum

/-!
# Values left to read

A file tells how many values are left, each kind in its own way: whole words behind the
position, tokens of the line that was begun and of those behind it, samples.  In all of them a
reading that gives a value leaves one less, and a reading gives none only where none is left.
So the number that a file tells is that of the readings that will give a value, whatever was
read before.
-/

namespace EffectHost

open Bytes

/-! ## One reading -/

namespace ByteStream

/-- A value is read as long as a whole word is left. -/
theorem readValue?_cases (stream : ByteStream) :
    (∃ value next, stream.readValue? = some (value, next) ∧
      stream.available = next.available + 1) ∨
    stream.readValue? = none ∧ stream.available = 0 := by
  by_cases inside : stream.position + 4 ≤ stream.bytes.size
  · left
    have found : ∃ word, wordAt? stream.bytes stream.position = some word :=
      ⟨_, dif_pos inside⟩
    rcases found with ⟨word, found⟩
    refine ⟨Number.widen word, { stream with position := stream.position + 4 }, ?_, ?_⟩
    · rw [readValue?, found]
      rfl
    · simp only [available]
      omega
  · right
    constructor
    · rw [readValue?, wordAt?, dif_neg inside]
      rfl
    · rw [available]
      omega

end ByteStream

namespace TextStream

/-- The tokens that are left. -/
def remaining (stream : TextStream) : List (List Char) :=
  stream.pending ++ stream.unread.flatMap tokens

theorem available_eq_length (stream : TextStream) :
    stream.available = stream.remaining.length := by
  have counted : ∀ (lines : List (List Char)) (total : Nat),
      lines.foldl (fun total line => total + (tokens line).length) total =
        total + (lines.flatMap tokens).length := by
    intro lines
    induction lines with
    | nil => exact fun total => rfl
    | cons line others ih =>
        intro total
        rw [List.foldl_cons, ih, List.flatMap_cons, List.length_append, Nat.add_assoc]
  rw [available, counted, remaining, List.length_append]

/-- The first token of some lines is the first of all their tokens. -/
theorem firstToken?_eq_some {lines unread : List (List Char)} {token : List Char}
    {pending : List (List Char)} (found : firstToken? lines = some (token, pending, unread)) :
    lines.flatMap tokens = token :: (pending ++ unread.flatMap tokens) := by
  induction lines with
  | nil => cases found
  | cons line others ih =>
      rw [firstToken?] at found
      rw [List.flatMap_cons]
      split at found
      · next _ _ parted =>
          cases found
          rw [parted, List.cons_append]
      · next empty => rw [empty, List.nil_append, ih found]

theorem firstToken?_eq_none {lines : List (List Char)} (absent : firstToken? lines = none) :
    lines.flatMap tokens = [] := by
  induction lines with
  | nil => rfl
  | cons line others ih =>
      rw [firstToken?] at absent
      split at absent
      · cases absent
      · next empty => rw [List.flatMap_cons, empty, List.nil_append, ih absent]

/-- The next token is the first one that is left. -/
theorem nextToken_cases (stream : TextStream) :
    (∃ token next, stream.nextToken = (some token, next) ∧
      stream.remaining = token :: next.remaining) ∨
    ∃ next, stream.nextToken = (none, next) ∧ stream.remaining = [] := by
  rcases stream with ⟨lines, unread, pending⟩
  cases pending with
  | cons token others => exact .inl ⟨token, _, rfl, rfl⟩
  | nil =>
      cases found : firstToken? unread with
      | some first =>
          rcases first with ⟨token, begun, behind⟩
          refine .inl ⟨token, ⟨lines, behind, begun⟩, ?_, firstToken?_eq_some found⟩
          simp only [nextToken, found]
      | none =>
          refine .inr ⟨⟨lines, [], []⟩, ?_, firstToken?_eq_none found⟩
          simp only [nextToken, found]

end TextStream

namespace OpenFile

/-- Reading from a byte stream leaves a file of the same kind. -/
theorem isWriting_readBytes {α : Type} {stream : ByteStream} {wrap : ByteStream → OpenFile}
    {result : Option (α × ByteStream)} {writing : Bool}
    (same : ∀ stream, (wrap stream).isWriting = writing) :
    (readBytes stream wrap result).2.isWriting = writing := by
  cases result with
  | none => exact same stream
  | some done => exact same done.2

/-- Reading does not make a file one that is written to, or the other way round. -/
theorem isWriting_readValue (file : OpenFile) : file.readValue.2.isWriting = file.isWriting := by
  cases file with
  | raw stream => exact isWriting_readBytes fun _ => rfl
  | text stream | audio stream => rfl
  | serializer state =>
      rw [readValue]
      split
      · exact isWriting_readBytes fun _ => rfl
      · rfl

/-- A byte stream counts down, whatever kind of file reads from it. -/
theorem readBytes_cases {wrap : ByteStream → OpenFile}
    (told : ∀ stream, (wrap stream).available = stream.available) (stream : ByteStream) :
    let reading := readBytes stream wrap stream.readValue?
    (∃ value next, reading = (some value, next) ∧
      (wrap stream).available = next.available + 1) ∨
    ∃ next, reading = (none, next) ∧ (wrap stream).available = 0 := by
  intro reading
  rcases stream.readValue?_cases with ⟨value, next, read, left⟩ | ⟨read, left⟩
  · refine .inl ⟨value, wrap next, congrArg (readBytes stream wrap) read, ?_⟩
    rw [told, told, left]
    rfl
  · refine .inr ⟨wrap stream, congrArg (readBytes stream wrap) read, ?_⟩
    rw [told, left]
    rfl

/-- A reading gives a value and leaves one less, or there was none left. -/
theorem readValue_cases {file : OpenFile} (reads : file.isWriting = false) :
    (∃ value next, file.readValue = (some value, next) ∧
      file.available = next.available + 1) ∨
    ∃ next, file.readValue = (none, next) ∧ file.available = 0 := by
  cases file with
  | raw stream => exact readBytes_cases (fun _ => rfl) stream
  | text stream =>
      rcases stream.nextToken_cases with ⟨token, next, read, left⟩ | ⟨next, read, left⟩
      · refine .inl ⟨(Number.numberPrefix token).1, .text next, ?_, ?_⟩
        · rw [readValue, TextStream.readValue, read]
          rfl
        · rw [available, available, TextStream.available_eq_length, left,
            TextStream.available_eq_length]
          rfl
      · refine .inr ⟨.text next, ?_, ?_⟩
        · rw [readValue, TextStream.readValue, read]
          rfl
        · rw [available, TextStream.available_eq_length, left]
          rfl
  | audio stream =>
      by_cases inside : stream.position < stream.samples.size
      · let next : AudioStream := { stream with position := stream.position + 1 }
        refine .inl ⟨stream.samples[stream.position], .audio next, ?_, ?_⟩
        · rw [readValue, AudioStream.readValues_one inside]
          rfl
        · simp only [available, AudioStream.available, next]
          omega
      · have ended := Nat.le_of_not_lt inside
        refine .inr ⟨.audio stream, ?_, ?_⟩
        · rw [readValue, AudioStream.readValues_nothing (.inr ended)]
          rfl
        · simp only [available, AudioStream.available]
          omega
  | serializer state =>
      rcases state with ⟨mode, stream⟩
      cases mode with
      | writing => cases reads
      | idle => exact .inr ⟨_, rfl, rfl⟩
      | reading =>
          let wrap : ByteStream → OpenFile := fun stream => .serializer ⟨.reading, stream⟩
          have told : ∀ stream, (wrap stream).available = stream.available := fun _ => rfl
          exact readBytes_cases told stream

/-! ## Readings in a row -/

/-- Read `count` times, whether or not there is anything left. -/
def readTimes : Nat → OpenFile → List (Option Float) × OpenFile
  | 0, file => ([], file)
  | count + 1, file =>
    let first := file.readValue
    let others := readTimes count first.2
    (first.1 :: others.1, others.2)

theorem readTimes_succ {file next : OpenFile} {read : Option Float}
    (first : file.readValue = (read, next)) (count : Nat) :
    readTimes (count + 1) file = (read :: (readTimes count next).1, (readTimes count next).2) := by
  rw [readTimes, first]

theorem exists_available {file : OpenFile} (reads : file.isWriting = false) :
    ∃ count : Nat, file.available = count := by
  cases file with
  | raw stream | text stream | audio stream => exact ⟨_, rfl⟩
  | serializer state =>
      rcases state with ⟨mode, stream⟩
      cases mode with
      | writing => cases reads
      | idle => exact ⟨0, rfl⟩
      | reading => exact ⟨_, rfl⟩

/-- As many readings give a value as the file has told, and the one behind them gives none. -/
theorem exists_values {file : OpenFile} (reads : file.isWriting = false) :
    ∃ values : List Float, file.available = values.length ∧
      (readTimes (values.length + 1) file).1 = values.map some ++ [none] := by
  rcases exists_available reads with ⟨count, told⟩
  induction count generalizing file with
  | zero =>
      rcases readValue_cases reads with ⟨value, next, read, left⟩ | ⟨next, read, left⟩
      · have onward : next.isWriting = false := by rw [← reads, ← isWriting_readValue file, read]
        rcases exists_available onward with ⟨others, behind⟩
        omega
      · refine ⟨[], left, ?_⟩
        rw [List.length_nil, readTimes_succ read]
        rfl
  | succ count ih =>
      rcases readValue_cases reads with ⟨value, next, read, left⟩ | ⟨next, read, left⟩
      · have onward : next.isWriting = false := by rw [← reads, ← isWriting_readValue file, read]
        rcases ih onward (by omega) with ⟨values, number, given⟩
        refine ⟨value :: values, ?_, ?_⟩
        · rw [List.length_cons]
          omega
        · rw [List.length_cons, readTimes_succ read, given]
          rfl
      · omega

/-! ## Buffers -/

/-- A buffer gets the values that readings in a row give, until it is full or one of them gives
none. -/
theorem fillEach_eq {file : OpenFile} {values : List Float}
    (given : (readTimes (values.length + 1) file).1 = values.map some ++ [none])
    (buffer : List Float) :
    fillEach buffer file = (min values.length buffer.length,
      values.take buffer.length ++ buffer.drop values.length,
      (readTimes (min buffer.length (values.length + 1)) file).2) := by
  induction buffer generalizing values file with
  | nil => simp [fillEach, readTimes]
  | cons slot slots ih =>
      rcases read : file.readValue with ⟨read?, next⟩
      rw [readTimes_succ read] at given
      cases values with
      | nil =>
          have nothing : read? = none := (List.cons.inj given).1
          subst nothing
          have one : min (slots.length + 1) (0 + 1) = 0 + 1 := by omega
          rw [fillEach, read, List.length_cons, List.length_nil, one, readTimes_succ read]
          simp [readTimes]
      | cons value others =>
          rcases List.cons.inj given with ⟨first, behind⟩
          subst first
          have more : min (slots.length + 1) (others.length + 1 + 1) =
              min slots.length (others.length + 1) + 1 := by omega
          rw [fillEach, read]
          dsimp only
          rw [ih behind, List.length_cons, List.length_cons, more, readTimes_succ read]
          simp

/-- Slots are filled by the values that are read at once. -/
theorem fillEach_eq_readValues (buffer : List Float) (file : OpenFile) :
    let done := file.readValues buffer.length
    fillEach buffer file =
      (done.1.size, done.1.toList ++ buffer.drop done.1.size, done.2) := by
  induction buffer generalizing file with
  | nil => simp [fillEach]
  | cons slot slots ih =>
      dsimp only
      rw [fillEach, List.length_cons, readValues_succ]
      rcases file.readValue with ⟨read?, next⟩
      cases read? with
      | none => simp
      | some value =>
          dsimp only
          rw [ih]
          simp [Nat.add_comm 1]

/-- It makes no difference that samples are copied at once. -/
theorem readInto_eq_fillEach (file : OpenFile) (buffer : List Float) :
    file.readInto buffer = fillEach buffer file := by
  cases file with
  | audio stream =>
      rw [fillEach_eq_readValues]
      rfl
  | _ => rfl

end OpenFile

/-! ## Any readings before -/

/-- What can be done with a file that is read from. -/
inductive ReadAction where
  | value
  | values (buffer : List Float)
  | string
  | rewind

namespace OpenFile

/-- Carry out an action. -/
def actReading (file : OpenFile) : ReadAction → OpenFile
  | .value => file.readValue.2
  | .values buffer => (file.readInto buffer).2.2
  | .string => file.readString.2
  | .rewind => file.rewind

/-- Carry out actions one after another. -/
def afterReading (file : OpenFile) (actions : List ReadAction) : OpenFile :=
  actions.foldl actReading file

theorem isWriting_fillEach (buffer : List Float) (file : OpenFile) :
    (fillEach buffer file).2.2.isWriting = file.isWriting := by
  induction buffer generalizing file with
  | nil => rfl
  | cons slot slots ih =>
      have same := isWriting_readValue file
      rw [fillEach]
      rcases read : file.readValue with ⟨read?, next⟩
      rw [read] at same
      cases read? with
      | none => exact same
      | some value => exact (ih next).trans same

/-- No action makes a file one that is written to. -/
theorem isWriting_actReading (file : OpenFile) (action : ReadAction) :
    (file.actReading action).isWriting = file.isWriting := by
  cases action with
  | value => exact isWriting_readValue file
  | values buffer =>
      rw [actReading, readInto_eq_fillEach]
      exact isWriting_fillEach buffer file
  | string =>
      cases file with
      | raw stream => exact isWriting_readBytes fun _ => rfl
      | text stream | audio stream => rfl
      | serializer state =>
          rw [actReading, readString]
          split
          · exact isWriting_readBytes fun _ => rfl
          · rfl
  | rewind =>
      cases file with
      | raw stream | text stream | audio stream => rfl
      | serializer state =>
          rw [actReading, rewind]
          split <;> rfl

theorem isWriting_afterReading (file : OpenFile) (actions : List ReadAction) :
    (file.afterReading actions).isWriting = file.isWriting := by
  induction actions generalizing file with
  | nil => rfl
  | cons action others ih => exact (ih _).trans (isWriting_actReading file action)

/-- Whatever was read from a file that is not written to, it then tells how many values are left:
so many readings in a row give a value, and the next one gives none.  A buffer gets these values
as far as they go and it has slots, and its other slots keep what they held.  It leaves the file as
that many readings do, and one more if there were not enough of them. -/
theorem available_tells_readings {file : OpenFile} (reads : file.isWriting = false)
    (actions : List ReadAction) :
    let reached := file.afterReading actions
    ∃ values : List Float, reached.available = values.length ∧
      (readTimes (values.length + 1) reached).1 = values.map some ++ [none] ∧
      ∀ buffer : List Float, reached.readInto buffer =
        (min values.length buffer.length,
          values.take buffer.length ++ buffer.drop values.length,
          (readTimes (min buffer.length (values.length + 1)) reached).2) := by
  intro reached
  have still : reached.isWriting = false := (isWriting_afterReading file actions).trans reads
  rcases exists_values still with ⟨values, number, given⟩
  refine ⟨values, number, given, fun buffer => ?_⟩
  rw [readInto_eq_fillEach, fillEach_eq given]

/-- A value, a line and a value are read, so that a token of a begun line and one behind an empty
line are left.  A buffer of four slots keeps its last two. -/
theorem available_tells_readings_text :
    let file : OpenFile := .text (TextStream.ofText "1, 2\n7 / note\n3 4\n\n5")
    let reached := file.afterReading [.value, .string, .value]
    file.isWriting = false ∧ reached.available = 2 ∧ ∃ first second : Float,
      (readTimes 3 reached).1 = [some first, some second, none] ∧
      reached.readInto [9.0, 9.0, 9.0, 9.0] =
        (2, [first, second, 9.0, 9.0], (readTimes 3 reached).2) := by
  intro file reached
  have two : reached.available = 2 := by decide +kernel
  have reads : file.isWriting = false := rfl
  rcases available_tells_readings reads [.value, .string, .value] with
    ⟨values, number, given, buffers⟩
  have length : values.length = 2 := by exact_mod_cast number.symm.trans two
  rcases List.length_eq_two.mp length with ⟨first, second, rfl⟩
  exact ⟨reads, two, first, second, given, buffers [9.0, 9.0, 9.0, 9.0]⟩

end OpenFile
end EffectHost

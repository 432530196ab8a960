import EffectHost.DataFile.Handle

/-!
# Reading several values

Values are read one after another until there are none left.  An audio stream copies its
samples at once, which makes no difference.  So reading can stop anywhere and go on later, and
whatever is read in two goes could have been read in one, unless there was nothing left in the
first.
-/

namespace EffectHost
namespace OpenFile

/-- Values that were read before stand in front. -/
theorem readEach_eq (count : Nat) (done : Array Float) (file : OpenFile) :
    readEach count done file =
      (done ++ (readEach count #[] file).1, (readEach count #[] file).2) := by
  induction count generalizing done file with
  | zero => simp [readEach]
  | succ count ih =>
      rw [readEach, readEach]
      cases file.readValue with
      | mk read next =>
          cases read with
          | none => simp
          | some value =>
              dsimp only
              rw [ih (done.push value), ih (#[].push value)]
              simp

end OpenFile

namespace AudioStream

/-- Nothing is read if nothing is asked for or left. -/
theorem readValues_nothing {stream : AudioStream} {count : Nat}
    (nothing : count = 0 ∨ stream.samples.size ≤ stream.position) :
    stream.readValues count = (#[], stream) := by
  have none : stream.samples.extract stream.position (stream.position + count) = #[] := by
    apply Array.eq_empty_of_size_eq_zero
    rw [Array.size_extract]
    omega
  rw [readValues, none]
  rfl

/-- The next sample stands in front of those behind it. -/
theorem readValues_next {stream : AudioStream} (inside : stream.position < stream.samples.size)
    (count : Nat) :
    let next : AudioStream := { stream with position := stream.position + 1 }
    stream.readValues (count + 1) =
      (#[stream.samples[stream.position]] ++ (next.readValues count).1,
        (next.readValues count).2) := by
  have parts : stream.samples.extract stream.position (stream.position + (count + 1)) =
      #[stream.samples[stream.position]] ++
        stream.samples.extract (stream.position + 1) (stream.position + 1 + count) := by
    have long : stream.position < stream.samples.toList.length := inside
    apply Array.ext'
    simp only [Array.toList_extract, Array.toList_append, List.extract_eq_take_drop,
      Nat.add_sub_cancel_left]
    rw [List.drop_eq_getElem_cons long, List.take_succ_cons]
    rfl
  intro next
  rw [readValues, readValues, parts]
  simp only [Array.size_append, List.size_toArray, List.length_singleton, next, Nat.add_assoc]

theorem readValues_one {stream : AudioStream} (inside : stream.position < stream.samples.size) :
    stream.readValues 1 =
      (#[stream.samples[stream.position]], { stream with position := stream.position + 1 }) := by
  rw [readValues_next inside 0, readValues_nothing (.inl rfl)]
  rfl

end AudioStream

namespace OpenFile

/-- Samples are read one by one. -/
theorem readEach_audio (count : Nat) (stream : AudioStream) :
    readEach count #[] (.audio stream) =
      ((stream.readValues count).1, .audio (stream.readValues count).2) := by
  induction count generalizing stream with
  | zero =>
      rw [AudioStream.readValues_nothing (.inl rfl)]
      rfl
  | succ count ih =>
      rw [readEach, readValue]
      by_cases inside : stream.position < stream.samples.size
      · rw [AudioStream.readValues_one inside, AudioStream.readValues_next inside count]
        exact (readEach_eq count _ _).trans (by rw [ih]; rfl)
      · have ended : stream.samples.size ≤ stream.position := Nat.le_of_not_lt inside
        rw [AudioStream.readValues_nothing (.inr ended), AudioStream.readValues_nothing (.inr ended)]
        rfl

theorem readValues_eq_readEach (file : OpenFile) (count : Nat) :
    file.readValues count = readEach count #[] file := by
  cases file with
  | audio stream => exact (readEach_audio count stream).symm
  | _ => rfl

@[simp] theorem readValues_zero (file : OpenFile) : file.readValues 0 = (#[], file) := by
  rw [readValues_eq_readEach, readEach]

/-- The first value is read before the others. -/
theorem readValues_succ (file : OpenFile) (count : Nat) :
    file.readValues (count + 1) =
      match file.readValue with
      | (some value, next) =>
        (#[value] ++ (next.readValues count).1, (next.readValues count).2)
      | (none, next) => (#[], next) := by
  simp only [readValues_eq_readEach, readEach]
  cases file.readValue with
  | mk read next =>
      cases read with
      | none => rfl
      | some value => exact readEach_eq count _ next

theorem size_readValues_le (file : OpenFile) (count : Nat) :
    (file.readValues count).1.size ≤ count := by
  induction count generalizing file with
  | zero => simp
  | succ count ih =>
      rw [readValues_succ]
      cases file.readValue with
      | mk read next =>
          cases read with
          | none => simp
          | some value =>
              have fewer := ih next
              simp only [Array.size_append, List.size_toArray, List.length_singleton]
              omega

/-- Reading goes on where it has stopped, unless there is nothing left. -/
theorem readValues_add (file : OpenFile) (first others : Nat) :
    file.readValues (first + others) =
      if (file.readValues first).1.size < first then file.readValues first
      else
        ((file.readValues first).1 ++ ((file.readValues first).2.readValues others).1,
          ((file.readValues first).2.readValues others).2) := by
  induction first generalizing file with
  | zero => simp
  | succ first ih =>
      rw [Nat.add_right_comm, readValues_succ, readValues_succ]
      cases file.readValue with
      | mk read next =>
          cases read with
          | none => simp
          | some value =>
              have size : (#[value] ++ (next.readValues first).1).size < first + 1 ↔
                  (next.readValues first).1.size < first := by
                simp only [Array.size_append, List.size_toArray, List.length_singleton]
                omega
              dsimp only
              rw [ih]
              by_cases short : (next.readValues first).1.size < first
              · rw [if_pos short, if_pos (size.mpr short)]
              · rw [if_neg short, if_neg (mt size.mp short)]
                simp

end OpenFile
end EffectHost

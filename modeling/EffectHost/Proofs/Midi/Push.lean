import EffectHost.Proofs.Midi.Record

/-!
# Pushing as a whole and in pieces

A push appends one record or nothing.  An event whose message comes in pieces is
written under a head that still says zero, and every piece meets its own test of the
limits.  The tests are monotone: the whole message fits exactly when every piece did
when its turn came.  So both ways of pushing accept the same events and leave the same
log, and a log of fixed capacity is within it at every moment in between.
-/

namespace EffectHost
namespace MidiLog

open Bytes MidiEvent

/-! ## Room -/

theorem hasRoom_iff (log : MidiLog) (extra : Nat) :
    log.hasRoom extra = true ↔ log.extensible = true ∨ log.size + extra ≤ log.capacity := by
  rw [hasRoom, Bool.or_eq_true, decide_eq_true_eq]

/-- What has room leaves room for less. -/
theorem hasRoom_of_le {log : MidiLog} {less more : Nat} (le : less ≤ more)
    (room : log.hasRoom more = true) : log.hasRoom less = true := by
  rw [hasRoom_iff] at room ⊢
  rcases room with extensible | fits
  · exact Or.inl extensible
  · exact Or.inr (by omega)

@[simp] theorem size_appendHead (log : MidiLog) (bus offset : UInt32) (size : Nat) :
    (log.appendHead bus offset size).size = log.size + headSize := by
  simp only [MidiLog.size, appendHead, size_pushWord, headSize]

@[simp] theorem size_appendMessage (log : MidiLog) (message : ByteArray) :
    (log.appendMessage message).size = log.size + message.size := by
  simp only [MidiLog.size, appendMessage, ByteArray.size_append]

@[simp] theorem limits_appendHead (log : MidiLog) (bus offset : UInt32) (size : Nat) :
    (log.appendHead bus offset size).extensible = log.extensible ∧
      (log.appendHead bus offset size).capacity = log.capacity := by
  simp only [appendHead, and_self]

@[simp] theorem limits_appendMessage (log : MidiLog) (message : ByteArray) :
    (log.appendMessage message).extensible = log.extensible ∧
      (log.appendMessage message).capacity = log.capacity := by
  simp only [appendMessage, and_self]

theorem hasRoom_appendHead (log : MidiLog) (bus offset : UInt32) (size extra : Nat) :
    (log.appendHead bus offset size).hasRoom extra = log.hasRoom (headSize + extra) := by
  simp only [hasRoom, size_appendHead, limits_appendHead, Nat.add_assoc]

theorem hasRoom_appendMessage (log : MidiLog) (message : ByteArray) (extra : Nat) :
    (log.appendMessage message).hasRoom extra = log.hasRoom (message.size + extra) := by
  simp only [hasRoom, size_appendMessage, limits_appendMessage, Nat.add_assoc]

theorem appendMessage_append (log : MidiLog) (first second : ByteArray) :
    (log.appendMessage first).appendMessage second = log.appendMessage (first ++ second) := by
  simp only [appendMessage, ByteArray.append_assoc]

theorem appendMessage_empty (log : MidiLog) : log.appendMessage ByteArray.empty = log := by
  rw [appendMessage, ByteArray.append_empty]

/-! ## Pushing as a whole -/

/-- The test that an event passes to be logged. -/
def accepts (log : MidiLog) (event : MidiEvent) : Bool :=
  event.isValid && log.hasRoom event.recordSize

/-- The log with the record of an event behind it. -/
def append (log : MidiLog) (event : MidiEvent) : MidiLog :=
  (log.appendHead event.bus event.offset event.message.size).appendMessage event.message

@[simp] theorem limits_append (log : MidiLog) (event : MidiEvent) :
    (log.append event).extensible = log.extensible ∧
      (log.append event).capacity = log.capacity := by
  simp only [append, limits_appendMessage, limits_appendHead, and_self]

theorem push_of_accepts {log : MidiLog} {event : MidiEvent}
    (accepted : log.accepts event = true) : log.push event = (true, log.append event) :=
  if_pos accepted

theorem push_of_not_accepts {log : MidiLog} {event : MidiEvent}
    (refused : log.accepts event = false) : log.push event = (false, log) := by
  apply if_neg
  intro accepted
  exact Bool.false_ne_true (refused.symm.trans accepted)

/-- A push answers with the test. -/
theorem push_fst (log : MidiLog) (event : MidiEvent) :
    (log.push event).1 = log.accepts event := by
  cases accepted : log.accepts event with
  | true => rw [push_of_accepts accepted]
  | false => rw [push_of_not_accepts accepted]

theorem toList_append (log : MidiLog) (event : MidiEvent) :
    (log.append event).bytes.data.toList = log.bytes.data.toList ++ event.record := by
  simp only [append, appendMessage, appendHead, ByteArray.data_append, Array.toList_append,
    toList_pushWord, record, List.append_assoc]

/-! ## Pushing in pieces -/

/-- The message that pieces make up. -/
def joined (pieces : List ByteArray) : ByteArray :=
  pieces.foldr (· ++ ·) ByteArray.empty

/-- Behind a piece that did not fit nothing is appended. -/
theorem extendAll_of_failed {pending : Pending} (failed : pending.failed = true)
    (log : MidiLog) (pieces : List ByteArray) :
    log.extendAll pending pieces = (pending, log) := by
  induction pieces with
  | nil => rfl
  | cons piece others ih =>
      have same : log.extend pending piece = (false, pending, log) := if_pos failed
      rw [extendAll, List.foldl_cons, same]
      exact ih

theorem extendAll_cons (log : MidiLog) (pending : Pending) (piece : ByteArray)
    (others : List ByteArray) :
    log.extendAll pending (piece :: others) =
      (log.extend pending piece).2.2.extendAll (log.extend pending piece).2.1 others := rfl

/-- Pieces that fit together are appended as one message. -/
theorem extendAll_of_fits {log : MidiLog} {pending : Pending} {pieces : List ByteArray}
    (live : pending.failed = false)
    (short : pending.size + (joined pieces).size ≤ maxMidiMessage)
    (room : log.hasRoom (joined pieces).size = true) :
    log.extendAll pending pieces =
      ({ pending with size := pending.size + (joined pieces).size },
        log.appendMessage (joined pieces)) := by
  induction pieces generalizing log pending with
  | nil =>
      change (pending, log) = (pending, log.appendMessage ByteArray.empty)
      rw [appendMessage_empty]
  | cons piece others ih =>
      change pending.size + (piece ++ joined others).size ≤ maxMidiMessage at short
      change log.hasRoom (piece ++ joined others).size = true at room
      rw [ByteArray.size_append] at short room
      have pieceFits :
          (pending.size + piece.size ≤ maxMidiMessage && log.hasRoom piece.size) = true := by
        rw [Bool.and_eq_true, decide_eq_true_eq]
        exact ⟨by omega, hasRoom_of_le (Nat.le_add_right _ _) room⟩
      have extended : log.extend pending piece =
          (true, { pending with size := pending.size + piece.size },
            log.appendMessage piece) := by
        rw [extend, if_neg (by rw [live]; exact Bool.false_ne_true), if_pos pieceFits]
      have later : (log.appendMessage piece).extendAll
          { pending with size := pending.size + piece.size } others =
          ({ pending with size := pending.size + piece.size + (joined others).size },
            (log.appendMessage piece).appendMessage (joined others)) := by
        apply ih
        · exact live
        · simp only
          omega
        · rw [hasRoom_appendMessage]
          exact room
      rw [extendAll_cons, extended]
      change (log.appendMessage piece).extendAll _ others =
        ({ pending with size := pending.size + (piece ++ joined others).size },
          log.appendMessage (piece ++ joined others))
      rw [later, appendMessage_append, ByteArray.size_append, Nat.add_assoc]

/-- Whatever happens to the pieces, only bytes behind the log are touched, and the
event remembers where it began. -/
theorem extendAll_appends (log : MidiLog) (pending : Pending) (pieces : List ByteArray) :
    (log.extendAll pending pieces).1.start = pending.start ∧
      ∃ more, (log.extendAll pending pieces).2 = log.appendMessage more := by
  induction pieces generalizing log pending with
  | nil => exact ⟨rfl, ByteArray.empty, (appendMessage_empty log).symm⟩
  | cons piece others ih =>
      rw [extendAll_cons]
      have step : (log.extend pending piece).2.1.start = pending.start ∧
          ∃ more, (log.extend pending piece).2.2 = log.appendMessage more := by
        unfold extend
        split
        · exact ⟨rfl, ByteArray.empty, (appendMessage_empty log).symm⟩
        · split
          · exact ⟨rfl, piece, rfl⟩
          · exact ⟨rfl, ByteArray.empty, (appendMessage_empty log).symm⟩
      rcases step with ⟨sameStart, first, appended⟩
      rcases ih (log.extend pending piece).2.2 (log.extend pending piece).2.1 with
        ⟨laterStart, second, later⟩
      refine ⟨laterStart.trans sameStart, first ++ second, ?_⟩
      rw [later, appended, appendMessage_append]

/-- An event of which a piece does not fit has failed when all pieces are through. -/
theorem extendAll_of_not_fits {log : MidiLog} {pending : Pending} {pieces : List ByteArray}
    (started : pending.size ≤ maxMidiMessage) (here : log.hasRoom 0 = true)
    (excess : ¬(pending.size + (joined pieces).size ≤ maxMidiMessage ∧
      log.hasRoom (joined pieces).size = true)) :
    (log.extendAll pending pieces).1.failed = true := by
  induction pieces generalizing log pending with
  | nil => exact absurd ⟨started, here⟩ excess
  | cons piece others ih =>
      change ¬(pending.size + (piece ++ joined others).size ≤ maxMidiMessage ∧
        log.hasRoom (piece ++ joined others).size = true) at excess
      rw [ByteArray.size_append] at excess
      rw [extendAll_cons]
      unfold extend
      split
      · next failed =>
          rw [extendAll_of_failed failed]
          exact failed
      · split
        · next fits =>
            rw [Bool.and_eq_true, decide_eq_true_eq] at fits
            apply ih fits.1
            · rw [hasRoom_appendMessage]
              exact fits.2
            · rw [hasRoom_appendMessage]
              intro restFits
              have restShort := restFits.1
              simp only at restShort
              exact excess ⟨by omega, restFits.2⟩
        · rw [extendAll_of_failed rfl]

/-- An event that failed is taken back as a whole. -/
theorem finish_of_failed {log : MidiLog} {pending : Pending} {more : ByteArray}
    (failed : pending.failed = true) (start : pending.start = log.size) :
    (log.appendMessage more).finish pending = (false, log) := by
  rw [finish, if_pos failed, start]
  change (false, { log with bytes := (log.bytes ++ more).extract 0 log.bytes.size }) =
    (false, log)
  rw [ByteArray.extract_append_size_left, ByteArray.extract_zero_size]

/-- The head of a record is a piece of bytes like any other. -/
theorem appendHead_eq_appendMessage (log : MidiLog) (bus offset : UInt32) (size : Nat) :
    ∃ head, log.appendHead bus offset size = log.appendMessage head := by
  refine ⟨(ofWord bus ++ ofWord offset ++ ofWord (UInt32.ofNat size)).toByteArray, ?_⟩
  have same : pushWord (pushWord (pushWord log.bytes bus) offset) (UInt32.ofNat size) =
      log.bytes ++
        (ofWord bus ++ ofWord offset ++ ofWord (UInt32.ofNat size)).toByteArray := by
    apply ByteArray.ext
    apply Array.toList_inj.mp
    simp only [toList_pushWord, ByteArray.data_append, Array.toList_append,
      List.data_toByteArray, List.append_assoc]
  rw [appendHead, appendMessage, same]

/-- Finishing an event whose pieces all fitted writes its size into the head, which
makes the bytes behind the log the event's record. -/
theorem finish_of_live (log : MidiLog) (event : MidiEvent) :
    ((log.appendHead event.bus event.offset 0).appendMessage event.message).finish
        { start := log.size, size := event.message.size } = (true, log.append event) := by
  have written :
      setWord ((log.appendHead event.bus event.offset 0).appendMessage event.message).bytes
        (log.size + 8) (UInt32.ofNat event.message.size) = (log.append event).bytes := by
    have position : log.size + 8 =
        (log.bytes.data.toList ++ ofWord event.bus ++ ofWord event.offset).length := by
      simp only [List.length_append, length_ofWord, Array.length_toList]
      rfl
    have split :
        ((log.appendHead event.bus event.offset 0).appendMessage
          event.message).bytes.data.toList =
        (log.bytes.data.toList ++ ofWord event.bus ++ ofWord event.offset) ++
          ofWord (UInt32.ofNat 0) ++ event.message.data.toList := by
      simp only [appendMessage, appendHead, ByteArray.data_append, Array.toList_append,
        toList_pushWord]
    apply ByteArray.ext
    apply Array.toList_inj.mp
    rw [position, toList_setWord split, toList_append, record]
    simp only [List.append_assoc]
  rw [finish, if_neg Bool.false_ne_true, written]
  rfl

/-- A push in pieces is the push of the message that the pieces make up: it answers the
same and leaves the same log. -/
theorem pushPieces_eq_push (log : MidiLog) (bus offset : UInt32)
    (pieces : List ByteArray) :
    log.pushPieces bus offset pieces = log.push ⟨bus, offset, joined pieces⟩ := by
  rw [pushPieces, openPieces]
  by_cases begins : (bus.toNat < midiBuses && log.hasRoom headSize) = true
  · have begun : log.begin bus offset =
        ({ start := log.size }, log.appendHead bus offset 0) := if_pos begins
    rw [begun]
    rw [Bool.and_eq_true, decide_eq_true_eq] at begins
    have room (extra : Nat) : (log.appendHead bus offset 0).hasRoom extra =
        log.hasRoom (headSize + extra) := hasRoom_appendHead log bus offset 0 extra
    by_cases fits : 0 + (joined pieces).size ≤ maxMidiMessage ∧
        (log.appendHead bus offset 0).hasRoom (joined pieces).size = true
    · have accepted : log.accepts ⟨bus, offset, joined pieces⟩ = true := by
        rw [accepts, Bool.and_eq_true, isValid_iff]
        have roomy := fits.2
        rw [room] at roomy
        exact ⟨⟨begins.1, by simpa using fits.1⟩, roomy⟩
      rw [extendAll_of_fits rfl fits.1 fits.2, push_of_accepts accepted, Nat.zero_add]
      exact finish_of_live log ⟨bus, offset, joined pieces⟩
    · have refused : log.accepts ⟨bus, offset, joined pieces⟩ = false := by
        apply Bool.eq_false_iff.mpr
        intro accepted
        rw [accepts, Bool.and_eq_true, isValid_iff] at accepted
        apply fits
        rw [room, Nat.zero_add]
        exact ⟨accepted.1.2, accepted.2⟩
      have failed : ((log.appendHead bus offset 0).extendAll { start := log.size }
          pieces).1.failed = true := by
        apply extendAll_of_not_fits (Nat.zero_le _) _ fits
        rw [room]
        exact begins.2
      rcases extendAll_appends (log.appendHead bus offset 0) { start := log.size } pieces with
        ⟨start, more, appended⟩
      rcases appendHead_eq_appendMessage log bus offset 0 with ⟨head, headed⟩
      rw [push_of_not_accepts refused, appended, headed, appendMessage_append]
      rw [headed] at failed start
      exact finish_of_failed failed start
  · have begun : log.begin bus offset = ({ start := log.size, failed := true }, log) :=
      if_neg begins
    have refused : log.accepts ⟨bus, offset, joined pieces⟩ = false := by
      apply Bool.eq_false_iff.mpr
      intro accepted
      rw [accepts, Bool.and_eq_true, isValid_iff] at accepted
      apply begins
      rw [Bool.and_eq_true, decide_eq_true_eq]
      exact ⟨accepted.1.1, hasRoom_of_le (Nat.le_add_right _ _) accepted.2⟩
    rw [begun, extendAll_of_failed rfl, push_of_not_accepts refused]
    have whole : (log.appendMessage ByteArray.empty).finish
        { start := log.size, failed := true } = (false, log) := finish_of_failed rfl rfl
    rw [appendMessage_empty] at whole
    exact whole

/-! ## Capacity -/

/-- A log that cannot be extended is within its capacity. -/
def WithinCapacity (log : MidiLog) : Prop :=
  log.extensible = true ∨ log.size ≤ log.capacity

theorem withinCapacity_append {log : MidiLog} {event : MidiEvent}
    (accepted : log.accepts event = true) : (log.append event).WithinCapacity := by
  rw [accepts, Bool.and_eq_true, hasRoom_iff] at accepted
  rw [WithinCapacity, (limits_append log event).1, (limits_append log event).2]
  rcases accepted.2 with extensible | fits
  · exact Or.inl extensible
  · right
    rw [append, size_appendMessage, size_appendHead, Nat.add_assoc]
    exact fits

theorem withinCapacity_begin {log : MidiLog} (within : log.WithinCapacity)
    (bus offset : UInt32) : (log.begin bus offset).2.WithinCapacity := by
  unfold MidiLog.begin
  split
  · next begins =>
      rw [Bool.and_eq_true, hasRoom_iff] at begins
      simp only [WithinCapacity, limits_appendHead, size_appendHead]
      exact begins.2
  · exact within

theorem withinCapacity_extend {log : MidiLog} (within : log.WithinCapacity)
    (pending : Pending) (piece : ByteArray) :
    (log.extend pending piece).2.2.WithinCapacity := by
  unfold extend
  split
  · exact within
  · split
    · next fits =>
        rw [Bool.and_eq_true, hasRoom_iff] at fits
        simp only [WithinCapacity, limits_appendMessage, size_appendMessage]
        exact fits.2
    · exact within

/-- The capacity holds also in the middle of an event. -/
theorem withinCapacity_openPieces {log : MidiLog} (within : log.WithinCapacity)
    (bus offset : UInt32) (pieces : List ByteArray) :
    (log.openPieces bus offset pieces).2.WithinCapacity := by
  have extended (begun : MidiLog) (pending : Pending) (begunWithin : begun.WithinCapacity) :
      (begun.extendAll pending pieces).2.WithinCapacity := by
    induction pieces generalizing begun pending with
    | nil => exact begunWithin
    | cons piece others ih =>
        rw [extendAll_cons]
        exact ih _ _ (withinCapacity_extend begunWithin pending piece)
  exact extended _ _ (withinCapacity_begin within bus offset)

end MidiLog
end EffectHost

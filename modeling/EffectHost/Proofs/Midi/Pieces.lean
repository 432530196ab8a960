import EffectHost.Proofs.Midi.Push

/-!
# What is told about pieces

Whoever pushes an event in pieces is told after each of them whether it fits.  The answer is
that of a push of the message as far as it has come, since opening an event with some pieces
and finishing it there is such a push.  An event that has failed once stays failed, and is
taken back whatever other pieces follow.
-/

namespace EffectHost
namespace MidiLog

open MidiEvent

/-- More pieces go on from where the first ones have led. -/
theorem openPieces_append (log : MidiLog) (bus offset : UInt32)
    (before behind : List ByteArray) :
    log.openPieces bus offset (before ++ behind) =
      let opened := log.openPieces bus offset before
      opened.2.extendAll opened.1 behind := by
  simp only [openPieces, extendAll, List.foldl_append]

/-- A piece is refused exactly if the event has failed afterwards. -/
theorem extend_fst (log : MidiLog) (pending : Pending) (piece : ByteArray) :
    (log.extend pending piece).1 = !(log.extend pending piece).2.1.failed := by
  unfold extend
  split
  · next failed => rw [failed, Bool.not_true]
  · next live =>
      split
      · rw [Bool.eq_false_iff.mpr live, Bool.not_false]
      · rfl

/-- An event is taken back exactly if it has failed. -/
theorem finish_fst (log : MidiLog) (pending : Pending) :
    (log.finish pending).1 = !pending.failed := by
  unfold finish
  split
  · next failed => rw [failed, Bool.not_true]
  · next live => rw [Bool.eq_false_iff.mpr live, Bool.not_false]

/-- A piece is told what a push of the message up to its end would be told. -/
theorem extend_openPieces_fst (log : MidiLog) (bus offset : UInt32)
    (before : List ByteArray) (piece : ByteArray) :
    let opened := log.openPieces bus offset before
    (opened.2.extend opened.1 piece).1 =
      (log.push ⟨bus, offset, joined (before ++ [piece])⟩).1 := by
  rw [← pushPieces_eq_push, pushPieces, finish_fst, openPieces_append]
  exact extend_fst _ _ piece

/-- Behind a piece that does not fit, the event has failed for good. -/
theorem failed_openPieces {log : MidiLog} {bus offset : UInt32} {before : List ByteArray}
    {piece : ByteArray}
    (refused : ((log.openPieces bus offset before).2.extend
      (log.openPieces bus offset before).1 piece).1 = false) (behind : List ByteArray) :
    (log.openPieces bus offset (before ++ piece :: behind)).1.failed = true := by
  rw [extend_fst, Bool.not_eq_false'] at refused
  rw [openPieces_append]
  dsimp only
  rw [extendAll_cons, extendAll_of_failed refused]
  exact refused

theorem accepts_iff (log : MidiLog) (event : MidiEvent) :
    log.accepts event = true ↔ event.bus.toNat < 16 ∧ event.message.size ≤ Number.twoTo 24 ∧
      (log.extensible = true ∨ log.size + 12 + event.message.size ≤ log.capacity) := by
  rw [accepts, Bool.and_eq_true, isValid_iff, hasRoom_iff, recordSize, headSize,
    ← Nat.add_assoc, and_assoc]
  rfl

/-- A push in pieces and the push of the message that they make up answer the same and leave
the same log with the same cursors, and if that answer is no, they leave the log as it was.
Each piece is told what a push of the message up to its end would be told.  If one of them is
refused, for whichever limit, the log ends up as it was, whatever pieces come behind. -/
theorem pieces_make_up_one_push (log : MidiLog) (bus offset : UInt32)
    (pieces : List ByteArray) :
    let whole := log.push ⟨bus, offset, joined pieces⟩
    let inPieces := log.pushPieces bus offset pieces
    inPieces = whole ∧
      (whole.1 = true ↔ bus.toNat < 16 ∧ (joined pieces).size ≤ Number.twoTo 24 ∧
        (log.extensible = true ∨ log.size + 12 + (joined pieces).size ≤ log.capacity)) ∧
      (whole.1 = false → whole.2 = log) ∧
      ∀ (before : List ByteArray) (piece : ByteArray) (behind : List ByteArray),
        pieces = before ++ piece :: behind →
        let opened := log.openPieces bus offset before
        let fits := (opened.2.extend opened.1 piece).1
        fits = (log.push ⟨bus, offset, joined (before ++ [piece])⟩).1 ∧
          (fits = false → inPieces = (false, log)) := by
  intro whole inPieces
  have same : inPieces = whole := pushPieces_eq_push log bus offset pieces
  have unchanged : whole.1 = false → whole = (false, log) := by
    intro refused
    exact push_of_not_accepts ((push_fst log _).symm.trans refused)
  refine ⟨same, ?_, fun refused => congrArg Prod.snd (unchanged refused), ?_⟩
  · rw [push_fst]
    exact accepts_iff log ⟨bus, offset, joined pieces⟩
  · intro before piece behind parted
    refine ⟨extend_openPieces_fst log bus offset before piece, fun refused => ?_⟩
    have failed := failed_openPieces refused behind
    rw [← parted] at failed
    rw [same]
    apply unchanged
    rw [← same]
    change (log.pushPieces bus offset pieces).1 = false
    rw [pushPieces, finish_fst, failed, Bool.not_true]

end MidiLog
end EffectHost

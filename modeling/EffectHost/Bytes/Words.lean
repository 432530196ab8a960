import EffectHost.Number.Power

/-!
# Four byte words

Every binary format of this library stores its words with the least significant
byte first.  Bytes and words are related through their values, so that the facts
about them are facts of arithmetic.
-/

namespace EffectHost
namespace Bytes

open Number

/-- The byte of a word at a position, counted from the least significant one. -/
@[inline] def byteOf (word : UInt32) (position : Nat) : UInt8 :=
  UInt8.ofNat (word.toNat / twoTo (8 * position))

/-- The word of four bytes. -/
def toWord (b0 b1 b2 b3 : UInt8) : UInt32 :=
  UInt32.ofNat (b0.toNat + 256 * b1.toNat + 65536 * b2.toNat + 16777216 * b3.toNat)

/-- Four bytes hold a word without loss. -/
@[simp] theorem toWord_byteOf (word : UInt32) :
    toWord (byteOf word 0) (byteOf word 1) (byteOf word 2) (byteOf word 3) = word := by
  have bound := word.toNat_lt
  apply UInt32.toNat.inj
  simp only [toWord, byteOf, twoTo, UInt8.toNat_ofNat', UInt32.toNat_ofNat', Nat.reduceMul,
    Nat.reduceShiftLeft]
  omega

/-- A word determines the four bytes that make it up. -/
theorem byteOf_toWord (b0 b1 b2 b3 : UInt8) :
    byteOf (toWord b0 b1 b2 b3) 0 = b0 ∧ byteOf (toWord b0 b1 b2 b3) 1 = b1 ∧
      byteOf (toWord b0 b1 b2 b3) 2 = b2 ∧ byteOf (toWord b0 b1 b2 b3) 3 = b3 := by
  have h0 := b0.toNat_lt
  have h1 := b1.toNat_lt
  have h2 := b2.toNat_lt
  have h3 := b3.toNat_lt
  refine ⟨?_, ?_, ?_, ?_⟩ <;> apply UInt8.toNat.inj <;>
    simp only [toWord, byteOf, twoTo, UInt8.toNat_ofNat', UInt32.toNat_ofNat', Nat.reduceMul,
      Nat.reduceShiftLeft] <;> omega

/-- The four bytes of a word. -/
def ofWord (word : UInt32) : List UInt8 :=
  [byteOf word 0, byteOf word 1, byteOf word 2, byteOf word 3]

@[simp] theorem length_ofWord (word : UInt32) : (ofWord word).length = 4 := rfl

/-- The word in front of a byte list, and the bytes behind it. -/
def takeWord? : List UInt8 → Option (UInt32 × List UInt8)
  | b0 :: b1 :: b2 :: b3 :: rest => some (toWord b0 b1 b2 b3, rest)
  | _ => none

@[simp] theorem takeWord?_ofWord_append (word : UInt32) (rest : List UInt8) :
    takeWord? (ofWord word ++ rest) = some (word, rest) := by
  simp [ofWord, takeWord?]

/-- The word that begins at a position. -/
def wordAt? (bytes : ByteArray) (position : Nat) : Option UInt32 :=
  if h : position + 4 ≤ bytes.size then
    some (toWord bytes[position] bytes[position + 1] bytes[position + 2] bytes[position + 3])
  else none

/-- Append a word. -/
def pushWord (bytes : ByteArray) (word : UInt32) : ByteArray :=
  (((bytes.push (byteOf word 0)).push (byteOf word 1)).push (byteOf word 2)).push
    (byteOf word 3)

/-- Write a byte over the one at a position inside the bytes. -/
def setByte (bytes : ByteArray) (position : Nat) (byte : UInt8) : ByteArray :=
  if h : position < bytes.size then bytes.set position byte h else bytes

/-- Write a word over the four bytes at a position. -/
def setWord (bytes : ByteArray) (position : Nat) (word : UInt32) : ByteArray :=
  setByte (setByte (setByte (setByte bytes position (byteOf word 0)) (position + 1)
    (byteOf word 1)) (position + 2) (byteOf word 2)) (position + 3) (byteOf word 3)

@[simp] theorem size_pushWord (bytes : ByteArray) (word : UInt32) :
    (pushWord bytes word).size = bytes.size + 4 := by
  simp [pushWord, ByteArray.size_push]

@[simp] theorem toList_pushWord (bytes : ByteArray) (word : UInt32) :
    (pushWord bytes word).data.toList = bytes.data.toList ++ ofWord word := by
  simp [pushWord, ofWord, ByteArray.data_push]

/-- The word at a position is the one in front of the bytes from there on. -/
theorem wordAt?_eq_takeWord? (bytes : ByteArray) (position : Nat) :
    wordAt? bytes position =
      (takeWord? (bytes.data.toList.drop position)).map Prod.fst := by
  unfold wordAt?
  by_cases inside : position + 4 ≤ bytes.size
  · rw [dif_pos inside]
    have long : position + 4 ≤ bytes.data.toList.length := inside
    rw [List.drop_eq_getElem_cons (by omega), List.drop_eq_getElem_cons (by omega),
      List.drop_eq_getElem_cons (by omega), List.drop_eq_getElem_cons (by omega)]
    rfl
  · rw [dif_neg inside]
    have short : (bytes.data.toList.drop position).length < 4 := by
      rw [List.length_drop, Array.length_toList]
      have size : bytes.data.size = bytes.size := rfl
      omega
    match listed : bytes.data.toList.drop position with
    | [] | [_] | [_, _] | [_, _, _] => rfl
    | _ :: _ :: _ :: _ :: _ =>
        rw [listed] at short
        simp only [List.length_cons] at short
        omega

@[simp] theorem toList_setByte (bytes : ByteArray) (position : Nat) (byte : UInt8) :
    (setByte bytes position byte).data.toList = bytes.data.toList.set position byte := by
  unfold setByte
  by_cases inside : position < bytes.size
  · rw [dif_pos inside, ByteArray.data_set, Array.toList_set]
  · rw [dif_neg inside]
    have outside : bytes.data.toList.length ≤ position := Nat.le_of_not_lt inside
    exact (List.set_eq_of_length_le outside).symm

/-- A word written over another one leaves the bytes on either side alone. -/
theorem toList_setWord {bytes : ByteArray} {before rest : List UInt8} {old : UInt32}
    (split : bytes.data.toList = before ++ ofWord old ++ rest) (word : UInt32) :
    (setWord bytes before.length word).data.toList = before ++ ofWord word ++ rest := by
  simp only [setWord, toList_setByte, split, ofWord, List.append_assoc, List.cons_append,
    List.nil_append]
  simp

/-- The byte array of a byte list. -/
def pack (bytes : List UInt8) : ByteArray :=
  ⟨bytes.toArray⟩

@[simp] theorem toList_pack (bytes : List UInt8) : (pack bytes).data.toList = bytes := rfl

end Bytes
end EffectHost

import EffectHost.Text.Utf8

/-!
# Text survives its bytes

The bytes of a text are read as the text that they came from.  Every character begins with a
byte that tells how many bytes follow and within which bounds, and the bytes by which a
character is written respect these bounds.
-/

namespace EffectHost

/-- A byte array holds the bytes that it lists. -/
theorem Bytes.toList_eq (bytes : ByteArray) : bytes.toList = bytes.data.toList := by
  have collected : ∀ (position : Nat) (done : List UInt8),
      ByteArray.toList.loop bytes position done =
        done.reverse ++ bytes.data.toList.drop position := by
    intro position done
    fun_induction ByteArray.toList.loop bytes position done with
    | case1 position done inside ih =>
        have byte : bytes.get! position = bytes.data.toList[position] :=
          getElem!_pos bytes.data position inside
        rw [ih, List.drop_eq_getElem_cons inside, byte, List.reverse_cons, List.append_assoc]
        rfl
    | case2 position done outside =>
        have length : bytes.data.toList.length ≤ position := Nat.le_of_not_lt outside
        rw [List.drop_eq_nil_of_le length, List.append_nil]
  exact collected 0 []

namespace Utf8

deriving instance DecidableEq for Lead

/-- The first of two bytes. -/
theorem lead?_two : ∀ payload : Fin 32, 2 ≤ payload.val →
    lead? (UInt8.ofNat (payload + 0xC0)) = some ⟨payload, 1, 0x80, 0xBF⟩ := by
  decide

/-- The first of three bytes. -/
theorem lead?_three : ∀ payload : Fin 16, lead? (UInt8.ofNat (payload + 0xE0)) =
    some ⟨payload, 2, if payload.val = 0 then 0xA0 else 0x80,
      if payload.val = 13 then 0x9F else 0xBF⟩ := by
  decide

/-- The first of four bytes. -/
theorem lead?_four : ∀ payload : Fin 5, lead? (UInt8.ofNat (payload + 0xF0)) =
    some ⟨payload, 3, if payload.val = 0 then 0x90 else 0x80,
      if payload.val = 4 then 0x8F else 0xBF⟩ := by
  decide

/-- A byte within the bounds adds six bits. -/
theorem follow_bits {count code bits : Nat} {low high : UInt8} {rest : List UInt8}
    (short : bits < 64) (above : low.toNat ≤ bits + 0x80) (below : bits + 0x80 ≤ high.toNat) :
    follow (count + 1) code low high (UInt8.ofNat (bits + 0x80) :: rest) =
      follow count (64 * code + bits) 0x80 0xBF rest := by
  have byte : (UInt8.ofNat (bits + 0x80)).toNat = bits + 0x80 := by
    rw [UInt8.toNat_ofNat']
    omega
  have inside : (low ≤ UInt8.ofNat (bits + 0x80) && UInt8.ofNat (bits + 0x80) ≤ high) = true := by
    simp only [UInt8.le_iff_toNat_le, byte, above, below, decide_true, Bool.and_self]
  have low : (bits + 0x80) % 64 = bits := by omega
  rw [follow, if_pos inside, byte, low]

/-- A character of several bytes is read as a whole. -/
theorem readBehind_lead {byte : UInt8} {lead : Lead} {c : Char} {bytes rest : List UInt8}
    (known : lead? byte = some lead)
    (taken : follow lead.following lead.payload lead.low lead.high bytes = (some c.toNat, rest))
    (done : List Char) : readBehind done (byte :: bytes) = readBehind (c :: done) rest := by
  have long : ¬ byte < 0x80 := by
    intro short
    have none : lead? byte = none := by
      rw [lead?, if_pos (UInt8.lt_trans short (by decide))]
    rw [none] at known
    cases known
  rw [readBehind.eq_def]
  dsimp only
  rw [if_neg long, known]
  dsimp only
  rw [taken, Option.map_some, Option.getD_some, Char.ofNat_toNat]

/-- A character is read from the bytes by which it is written. -/
theorem readBehind_utf8EncodeChar (done : List Char) (c : Char) (rest : List UInt8) :
    readBehind done (String.utf8EncodeChar c ++ rest) = readBehind (c :: done) rest := by
  have scalar : c.toNat < 0xD800 ∨ 0xDFFF < c.toNat ∧ c.toNat < 0x110000 := c.valid
  have code : c.val.toNat = c.toNat := rfl
  rw [String.utf8EncodeChar, code]
  split
  · next one =>
      have byte : (UInt8.ofNat c.toNat).toNat = c.toNat := by
        rw [UInt8.toNat_ofNat']
        omega
      have short : UInt8.ofNat c.toNat < 0x80 := by
        rw [UInt8.lt_iff_toNat_lt, byte]
        exact Nat.lt_succ_of_le one
      rw [List.singleton_append, readBehind.eq_def]
      dsimp only
      rw [if_pos short, byte, Char.ofNat_toNat]
  · split
    · next two =>
        have known := lead?_two ⟨c.toNat / 64 % 32, by omega⟩ (by simp only; omega)
        have whole : 64 * (c.toNat / 64 % 32) + c.toNat % 64 = c.toNat := by omega
        simp only [List.cons_append, List.nil_append]
        apply readBehind_lead known
        dsimp only
        rw [follow_bits (by omega) (by simp) (by simp; omega), whole]
        rfl
    · split
      · next three =>
          have known := lead?_three ⟨c.toNat / 4096 % 16, by omega⟩
          have whole : 64 * (64 * (c.toNat / 4096 % 16) + c.toNat / 64 % 64) + c.toNat % 64 =
              c.toNat := by
            omega
          simp only [List.cons_append, List.nil_append]
          apply readBehind_lead known
          dsimp only
          rw [follow_bits (by omega) (by split <;> simp <;> omega)
            (by split <;> simp <;> omega), follow_bits (by omega) (by simp)
            (by simp; omega), whole]
          rfl
      · next four =>
          have known := lead?_four ⟨c.toNat / 262144 % 8, by omega⟩
          have whole : 64 * (64 * (64 * (c.toNat / 262144 % 8) + c.toNat / 4096 % 64) +
              c.toNat / 64 % 64) + c.toNat % 64 = c.toNat := by
            omega
          simp only [List.cons_append, List.nil_append]
          apply readBehind_lead known
          dsimp only
          rw [follow_bits (by omega) (by split <;> simp <;> omega)
            (by split <;> simp <;> omega), follow_bits (by omega) (by simp)
            (by simp; omega), follow_bits (by omega) (by simp)
            (by simp; omega), whole]
          rfl

/-- A text is written character by character. -/
theorem toList_encode (text : String) :
    (encode text).data.toList = text.toList.flatMap String.utf8EncodeChar := by
  have encoded : encode text = (text.toList.flatMap String.utf8EncodeChar).toByteArray := by
    have listed := @String.toByteArray_ofList text.toList
    rw [String.ofList_toList] at listed
    exact listed
  rw [encoded, List.toList_data_toByteArray]

/-- A text is read from the bytes by which it is written. -/
theorem decode_encode (text : String) : decode (encode text) = text := by
  have read : ∀ (characters done : List Char),
      readBehind done (characters.flatMap String.utf8EncodeChar) = done.reverse ++ characters := by
    intro characters
    induction characters with
    | nil =>
        intro done
        rw [List.flatMap_nil, readBehind, List.append_nil]
    | cons c others ih =>
        intro done
        rw [List.flatMap_cons, readBehind_utf8EncodeChar, ih]
        simp
  rw [decode, Bytes.toList_eq, toList_encode, read]
  simp

end Utf8
end EffectHost

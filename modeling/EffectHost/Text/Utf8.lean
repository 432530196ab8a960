/-!
# Reading bytes as text

Text files are read as UTF-8.  A byte sequence that is not UTF-8 never fails:
each maximal piece that begins like a character but does not complete one,
and each byte that cannot begin a character, is read as one replacement
character.
-/

namespace EffectHost
namespace Utf8

/-- The character that stands for unreadable bytes. -/
def replacement : Char := '\uFFFD'

/-- How a byte sequence may begin. -/
structure Lead where
  /-- Payload bits carried by the first byte. -/
  payload : Nat
  /-- Number of continuation bytes that must follow. -/
  following : Nat
  /-- Least allowed first continuation byte. -/
  low : UInt8
  /-- Greatest allowed first continuation byte. -/
  high : UInt8

/-- The multi-byte beginnings.  The bounds on the second byte exclude long
spellings, surrogates and code points past the last one. -/
def lead? (byte : UInt8) : Option Lead :=
  let payload := byte.toNat
  if byte < 0xC2 then none
  else if byte < 0xE0 then some ⟨payload - 0xC0, 1, 0x80, 0xBF⟩
  else if byte == 0xE0 then some ⟨0, 2, 0xA0, 0xBF⟩
  else if byte == 0xED then some ⟨0xD, 2, 0x80, 0x9F⟩
  else if byte < 0xF0 then some ⟨payload - 0xE0, 2, 0x80, 0xBF⟩
  else if byte == 0xF0 then some ⟨0, 3, 0x90, 0xBF⟩
  else if byte < 0xF4 then some ⟨payload - 0xF0, 3, 0x80, 0xBF⟩
  else if byte == 0xF4 then some ⟨4, 3, 0x80, 0x8F⟩
  else none

/-- Take the continuation bytes.  The first of them lies between `low` and
`high`, every later one between 0x80 and 0xBF.  Bytes are taken as long as
they fit, so that a broken sequence is left at its first foreign byte. -/
def follow : Nat → Nat → UInt8 → UInt8 → List UInt8 → Option Nat × List UInt8
  | 0, code, _, _, bytes => (some code, bytes)
  | _ + 1, _, _, _, [] => (none, [])
  | count + 1, code, low, high, byte :: bytes =>
    if low ≤ byte && byte ≤ high then
      follow count (64 * code + byte.toNat % 64) 0x80 0xBF bytes
    else (none, byte :: bytes)

theorem follow_length_le (count code : Nat) (low high : UInt8) (bytes : List UInt8) :
    (follow count code low high bytes).2.length ≤ bytes.length := by
  induction bytes generalizing count code low high with
  | nil => cases count <;> simp [follow]
  | cons byte bytes ih =>
    cases count with
    | zero => simp [follow]
    | succ count =>
      simp only [follow]
      split
      · exact Nat.le_succ_of_le (ih _ _ _ _)
      · exact Nat.le_refl _

/-- Read the remaining bytes behind the characters already read, which are
held in reverse order. -/
def readBehind (done : List Char) (bytes : List UInt8) : List Char :=
  match bytes with
  | [] => done.reverse
  | byte :: rest =>
    if byte < 0x80 then readBehind (Char.ofNat byte.toNat :: done) rest
    else
      match lead? byte with
      | none => readBehind (replacement :: done) rest
      | some lead =>
        let taken := follow lead.following lead.payload lead.low lead.high rest
        readBehind ((taken.1.map Char.ofNat).getD replacement :: done) taken.2
termination_by bytes.length
decreasing_by
  · simp
  · simp
  · exact Nat.lt_succ_of_le (follow_length_le _ _ _ _ _)

/-- The text of a byte sequence. -/
def decode (bytes : ByteArray) : String :=
  String.ofList (readBehind [] bytes.toList)

/-- The bytes of a text. -/
def encode (text : String) : ByteArray :=
  text.toUTF8

end Utf8
end EffectHost

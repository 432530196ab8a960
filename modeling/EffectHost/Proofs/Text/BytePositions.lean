import EffectHost.Proofs.Text.Parts
import EffectHost.Proofs.Text.Utf8

/-!
# Positions in the bytes of a text

A text is held as bytes, and positions in it count bytes.  A piece can be cut out of a text only
between two boundaries of characters.  Behind a number of whole characters there is such a
boundary, and bytes that are ASCII characters stand for themselves, while no byte of any other
character is one of them.
-/

namespace EffectHost
namespace Text

variable {source : String} {front piece rest : List Char}

/-! ## Pieces between two positions -/

/-- Number of bytes of a text. -/
def width (text : List Char) : Nat :=
  (String.ofList text).utf8ByteSize

@[simp] theorem width_nil : width [] = 0 :=
  rfl

@[simp] theorem width_append (front rest : List Char) :
    width (front ++ rest) = width front + width rest := by
  rw [width, String.ofList_append, String.utf8ByteSize_append, width, width]

theorem width_singleton (c : Char) : width [c] = c.utf8Size := by
  rw [width, ← String.singleton_eq_ofList, String.utf8ByteSize_singleton]

theorem length_le_width (text : List Char) : text.length ≤ width text := by
  induction text with
  | nil => exact Nat.le_refl _
  | cons c rest ih =>
      have one := c.utf8Size_pos
      rw [← List.singleton_append, width_append, width_singleton, List.length_append,
        List.length_singleton]
      omega

/-- There are no more characters in a text than bytes. -/
theorem length_toList_le (source : String) : source.toList.length ≤ source.utf8ByteSize := by
  have size : width source.toList = source.utf8ByteSize := by rw [width, String.ofList_toList]
  exact size ▸ length_le_width source.toList

/-- The piece of a text between two byte positions.  There is none unless both are boundaries of
characters in this text, and in this order. -/
def slice? (source : String) (start stop : Nat) : Option (List Char) :=
  if valid : (⟨start⟩ : String.Pos.Raw).IsValid source ∧
      (⟨stop⟩ : String.Pos.Raw).IsValid source ∧ start ≤ stop then
    some (source.extract (source.pos _ valid.1) (source.pos _ valid.2.1)).toList
  else none

/-- Behind whole characters there is a boundary. -/
theorem isValid_width (parts : source.toList = front ++ rest) :
    (⟨width front⟩ : String.Pos.Raw).IsValid source := by
  rw [String.Pos.Raw.isValid_iff_exists_append]
  refine ⟨String.ofList front, String.ofList rest, ?_, rfl⟩
  rw [← String.ofList_append, ← parts, String.ofList_toList]

/-- The bytes of whole characters between others. -/
theorem extract_width (front piece rest : List Char) :
    (String.ofList front ++ (String.ofList piece ++ String.ofList rest)).toByteArray.extract
      (width front) (width (front ++ piece)) = (String.ofList piece).toByteArray := by
  rw [width_append, String.toByteArray_append, String.toByteArray_append]
  exact (ByteArray.extract_append_size_add' (i := 0) rfl).trans
    (ByteArray.extract_append_eq_left rfl)

/-- Whole characters can be cut out. -/
theorem slice?_eq (parts : source.toList = front ++ (piece ++ rest)) :
    slice? source (width front) (width (front ++ piece)) = some piece := by
  have start := isValid_width parts
  have behind : source.toList = (front ++ piece) ++ rest := by rw [List.append_assoc, parts]
  have stop := isValid_width behind
  have ordered : width front ≤ width (front ++ piece) := by
    rw [width_append]
    exact Nat.le_add_right _ _
  have whole : source = String.ofList front ++ (String.ofList piece ++ String.ofList rest) := by
    rw [← String.ofList_append, ← String.ofList_append, ← parts, String.ofList_toList]
  have cut : source.extract (source.pos _ start) (source.pos _ stop) = String.ofList piece := by
    rw [← String.toByteArray_inj, String.toByteArray_extract, String.offset_pos, String.offset_pos,
      whole]
    exact extract_width front piece rest
  rw [slice?, dif_pos ⟨start, stop, ordered⟩, cut, String.toList_ofList]

/-- What stands behind whole characters can be cut out. -/
theorem slice?_end (parts : source.toList = front ++ rest) :
    slice? source (width front) source.utf8ByteSize = some rest := by
  have size : source.utf8ByteSize = width (front ++ rest) := by
    rw [← parts, width, String.ofList_toList]
  have all : source.toList = front ++ (rest ++ []) := by rw [parts, List.append_nil]
  rw [size]
  exact slice?_eq all

/-! ## Single bytes -/

/-- The byte is an ASCII character of a kind. -/
def isAscii (kind : Char → Bool) (byte : UInt8) : Bool :=
  byte < 0x80 && kind (Char.ofNat byte.toNat)

/-- All characters of a kind are ASCII characters. -/
def AsciiOnly (kind : Char → Bool) : Prop :=
  ∀ c, kind c = true → c.toNat < 128

theorem asciiOnly_eq {mark : Char} (short : mark.toNat < 128) : AsciiOnly (· == mark) := by
  intro c same
  rw [beq_iff_eq.mp same]
  exact short

theorem asciiOnly_isDigit : AsciiOnly isDigit := by
  intro c digit
  have high := (toNat_of_isDigit digit).2
  omega

theorem asciiOnly_isLetter : AsciiOnly isLetter := by
  intro c letter
  simp only [isLetter, Bool.or_eq_true, Bool.and_eq_true, decide_eq_true_eq, Char.le_def,
    UInt32.le_iff_toNat_le] at letter
  change c.val.toNat < 128
  have low : 'z'.val.toNat = 122 := rfl
  have high : 'Z'.val.toNat = 90 := rfl
  omega

theorem AsciiOnly.or {one two : Char → Bool} (first : AsciiOnly one) (second : AsciiOnly two) :
    AsciiOnly fun c => one c || two c := by
  intro c either
  rcases Bool.or_eq_true_iff.mp either with left | right
  · exact first c left
  · exact second c right

/-- An ASCII character is one byte. -/
theorem encode_of_short {c : Char} (short : c.toNat < 128) :
    String.utf8EncodeChar c = [UInt8.ofNat c.toNat] := by
  have least : c.val.toNat ≤ 0x7f := Nat.le_of_lt_succ short
  rw [String.utf8EncodeChar]
  rw [if_pos least]
  rfl

/-- No byte of another character is an ASCII character. -/
theorem le_of_mem_encode {c : Char} (long : ¬ c.toNat < 128) :
    ∀ byte ∈ String.utf8EncodeChar c, 128 ≤ byte.toNat := by
  have above : ¬ c.val.toNat ≤ 0x7f := fun least => long (Nat.lt_succ_of_le least)
  rw [String.utf8EncodeChar]
  rw [if_neg above]
  split
  · simp
    omega
  · split
    · simp
      omega
    · simp
      omega

/-- Each byte of a character tells whether the character is of a kind of ASCII characters. -/
theorem isAscii_of_mem {kind : Char → Bool} (ascii : AsciiOnly kind) {c : Char} {byte : UInt8}
    (member : byte ∈ String.utf8EncodeChar c) : isAscii kind byte = kind c := by
  by_cases short : c.toNat < 128
  · rw [encode_of_short short, List.mem_singleton] at member
    have value : byte.toNat = c.toNat := by
      rw [member, UInt8.toNat_ofNat']
      omega
    have below : byte < 0x80 := UInt8.lt_iff_toNat_lt.mpr (value ▸ short)
    rw [isAscii, value, Char.ofNat_toNat, decide_eq_true below, Bool.true_and]
  · have above : ¬ byte < 0x80 := by
      rw [UInt8.lt_iff_toNat_lt, Nat.not_lt]
      exact le_of_mem_encode short byte member
    have other : kind c = false := Bool.eq_false_iff.mpr fun found => short (ascii c found)
    rw [isAscii, decide_eq_false above, Bool.false_and, other]

theorem exists_encode (c : Char) :
    ∃ byte more, String.utf8EncodeChar c = byte :: more ∧ (c.toNat < 128 → more = []) := by
  have some : String.utf8EncodeChar c ≠ [] := by
    rw [ne_eq, ← List.length_eq_zero_iff, String.length_utf8EncodeChar]
    exact Nat.ne_of_gt c.utf8Size_pos
  rcases List.exists_cons_of_ne_nil some with ⟨byte, more, encoded⟩
  refine ⟨byte, more, encoded, fun short => ?_⟩
  rw [encode_of_short short] at encoded
  exact (List.cons.inj encoded).2.symm

/-- The bytes of a text from a position on. -/
def bytesFrom (source : String) (position : Nat) : List UInt8 :=
  (Utf8.encode source).data.toList.drop position

theorem length_flatMap_encode (text : List Char) :
    (text.flatMap String.utf8EncodeChar).length = width text := by
  induction text with
  | nil => rfl
  | cons c others ih =>
      rw [List.flatMap_cons, List.length_append, ih, String.length_utf8EncodeChar,
        ← List.singleton_append, width_append, width_singleton]

theorem width_append_singleton {c : Char} (short : c.toNat < 128) (front : List Char) :
    width (front ++ [c]) = width front + 1 := by
  rw [width_append, ← length_flatMap_encode [c], List.flatMap_singleton, encode_of_short short]
  rfl

/-- Behind whole characters stand the bytes of the others. -/
theorem bytesFrom_eq (parts : source.toList = front ++ rest) :
    bytesFrom source (width front) = rest.flatMap String.utf8EncodeChar := by
  rw [bytesFrom, Utf8.toList_encode, parts, List.flatMap_append, ← length_flatMap_encode,
    List.drop_left]

/-- The position behind the bytes of a kind that stand at a position. -/
def skip (source : String) (kind : UInt8 → Bool) (position : Nat) : Nat :=
  position + ((bytesFrom source position).takeWhile kind).length

/-- Where bytes and characters are of like kinds, whole characters are skipped. -/
theorem skip_eq {kind : UInt8 → Bool} {kind' : Char → Bool}
    (alike : ∀ c, ∀ byte ∈ String.utf8EncodeChar c, kind byte = kind' c)
    (parts : source.toList = front ++ rest) :
    skip source kind (width front) = width (front ++ rest.takeWhile kind') := by
  have taken : (rest.flatMap String.utf8EncodeChar).takeWhile kind =
      (rest.takeWhile kind').flatMap String.utf8EncodeChar := by
    clear parts
    induction rest with
    | nil => rfl
    | cons c others ih =>
        rw [List.flatMap_cons]
        cases found : kind' c with
        | true =>
            have all : ∀ byte ∈ String.utf8EncodeChar c, kind byte = true :=
              fun byte member => (alike c byte member).trans found
            rw [List.takeWhile_append_of_pos all, ih, List.takeWhile_cons_of_pos found,
              List.flatMap_cons]
        | false =>
            rcases exists_encode c with ⟨byte, more, encoded, _⟩
            have first : kind byte = false :=
              (alike c byte (encoded ▸ List.mem_cons_self)).trans found
            rw [encoded, List.cons_append, List.takeWhile_cons_of_neg (by simp [first]),
              List.takeWhile_cons_of_neg (by simp [found])]
            rfl
  rw [skip, bytesFrom_eq parts, taken, length_flatMap_encode, width_append]

/-! ## Words -/

/-- The byte position at which a word stands first in a text. -/
def find? (word : List Char) : List Char → Option Nat
  | [] => if word.isPrefixOf [] then some 0 else none
  | c :: rest =>
    if word.isPrefixOf (c :: rest) then some 0
    else (find? word rest).map (width [c] + ·)

/-- A word is found where it stands first. -/
theorem find?_of_first {word content rest : List Char}
    (first : ∀ back, back <:+ content → back ≠ [] → ¬ word <+: back ++ (word ++ rest)) :
    find? word (content ++ (word ++ rest)) = some (width content) := by
  induction content with
  | nil =>
      have here : word.isPrefixOf (word ++ rest) = true :=
        List.isPrefixOf_iff_prefix.mpr (List.prefix_append _ _)
      rw [List.nil_append]
      cases shape : word ++ rest with
      | nil | cons => rw [find?, if_pos (shape ▸ here), width_nil]
  | cons c content ih =>
      have notHere : ¬ word.isPrefixOf (c :: (content ++ (word ++ rest))) = true := by
        rw [List.isPrefixOf_iff_prefix]
        exact first _ List.suffix_rfl (List.cons_ne_nil _ _)
      have later := ih fun back inside => first back (inside.trans (List.suffix_cons c content))
      rw [List.cons_append, find?, if_neg notHere, later, Option.map_some, ← width_append,
        List.singleton_append]

/-- A word that stands nowhere is not found. -/
theorem find?_of_absent {word text : List Char} (absent : ¬ word <:+: text) :
    find? word text = none := by
  induction text with
  | nil =>
      have notHere : ¬ word.isPrefixOf [] = true := by
        rw [List.isPrefixOf_iff_prefix]
        exact fun begins => absent begins.isInfix
      rw [find?, if_neg notHere]
  | cons c rest ih =>
      have notHere : ¬ word.isPrefixOf (c :: rest) = true := by
        rw [List.isPrefixOf_iff_prefix]
        exact fun begins => absent begins.isInfix
      have later := ih fun found => absent (found.trans (List.suffix_cons c rest).isInfix)
      rw [find?, if_neg notHere, later, Option.map_none]

end Text
end EffectHost

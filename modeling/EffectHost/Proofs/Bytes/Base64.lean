import EffectHost.Bytes.Base64

/-!
# Base64 is read back

Three bytes are written as four symbols and come back from them.  Where one or two bytes are
left at the end, the symbols that are missing from their group are made up with padding, and
the bits that the last symbol has too many are zero, as the reader demands.
-/

namespace EffectHost
namespace Base64

/-! ## Writing group by group -/

theorem toList_encodeOnto : ∀ (bytes : List UInt8) (done : Array UInt8),
    (encodeOnto done bytes).toList = done.toList ++ encode bytes
  | [], done => by simp [encode, encodeOnto]
  | [_], done => by simp [encode, encodeOnto]
  | [_, _], done => by simp [encode, encodeOnto]
  | _ :: _ :: _ :: rest, done => by
      rw [encode, encodeOnto, encodeOnto, toList_encodeOnto rest, toList_encodeOnto rest]
      simp

@[simp] theorem encode_nil : encode [] = [] := rfl

/-- Three bytes fill a group. -/
theorem encode_three (x y z : UInt8) (rest : List UInt8) :
    encode (x :: y :: z :: rest) =
      symbol (x.toNat / 4) :: symbol (16 * (x.toNat % 4) + y.toNat / 16) ::
        symbol (4 * (y.toNat % 16) + z.toNat / 64) :: symbol (z.toNat % 64) :: encode rest := by
  rw [encode, encodeOnto, toList_encodeOnto]
  rfl

/-- The group of two bytes ends in one padding sign. -/
theorem encode_two (x y : UInt8) :
    encode [x, y] =
      [symbol (x.toNat / 4), symbol (16 * (x.toNat % 4) + y.toNat / 16),
        symbol (4 * (y.toNat % 16)), padding] :=
  rfl

/-- The group of one byte ends in two padding signs. -/
theorem encode_one (x : UInt8) :
    encode [x] = [symbol (x.toNat / 4), symbol (16 * (x.toNat % 4)), padding, padding] :=
  rfl

/-- A whole number of groups is written. -/
theorem length_encode_mod : ∀ bytes : List UInt8, (encode bytes).length % 4 = 0
  | [] => rfl
  | [x] => by simp [encode_one]
  | [x, y] => by simp [encode_two]
  | x :: y :: z :: rest => by
      have groups := length_encode_mod rest
      rw [encode_three]
      simp only [List.length_cons]
      omega

/-- The bytes that are written: the symbols and the padding sign. -/
def Written (byte : UInt8) : Prop :=
  byte = padding ∨ ∃ value : Fin 64, byte = symbol value

theorem written_symbol {value : Nat} (small : value < 64) : Written (symbol value) :=
  .inr ⟨⟨value, small⟩, rfl⟩

theorem written_of_mem_encode : ∀ {bytes : List UInt8}, ∀ byte ∈ encode bytes, Written byte
  | [], byte, member => by simp at member
  | [x], byte, member => by
      have bound := x.toNat_lt
      simp only [encode_one, List.mem_cons, List.not_mem_nil, or_false] at member
      rcases member with rfl | rfl | rfl | rfl
      · exact written_symbol (by omega)
      · exact written_symbol (by omega)
      · exact .inl rfl
      · exact .inl rfl
  | [x, y], byte, member => by
      have bound := x.toNat_lt
      have bound' := y.toNat_lt
      simp only [encode_two, List.mem_cons, List.not_mem_nil, or_false] at member
      rcases member with rfl | rfl | rfl | rfl
      · exact written_symbol (by omega)
      · exact written_symbol (by omega)
      · exact written_symbol (by omega)
      · exact .inl rfl
  | x :: y :: z :: rest, byte, member => by
      have bound := x.toNat_lt
      have bound' := y.toNat_lt
      have bound'' := z.toNat_lt
      simp only [encode_three, List.mem_cons] at member
      rcases member with rfl | rfl | rfl | rfl | behind
      · exact written_symbol (by omega)
      · exact written_symbol (by omega)
      · exact written_symbol (by omega)
      · exact written_symbol (by omega)
      · exact written_of_mem_encode byte behind

/-! ## Reading group by group -/

theorem value?_symbol_of_lt {value : Nat} (small : value < 64) :
    value? (symbol value) = some value :=
  value?_symbol ⟨value, small⟩

theorem symbolAt_symbol {value : Nat} (small : value < 64) (offset : Nat) :
    symbolAt (symbol value) offset = .ok value := by
  rw [symbolAt, value?_symbol_of_lt small]

theorem symbol_ne_padding {value : Nat} (small : value < 64) :
    (symbol value == padding) = false := by
  have other : ∀ value : Fin 64, (symbol value == padding) = false := by decide
  exact other ⟨value, small⟩

/-- A symbol in the last group is remembered. -/
theorem Tail.read_symbol {value : Nat} (small : value < 64) {tail : Tail}
    (unpadded : tail.firstPadding = none) (start offset : Nat) :
    tail.read start (symbol value) offset =
      .ok { tail with values := tail.values ++ [value], last := symbol value } := by
  rw [Tail.read, symbol_ne_padding small, if_neg Bool.false_ne_true, unpadded]
  dsimp only
  rw [symbolAt_symbol small]
  rfl

/-- Padding is passed over. -/
theorem Tail.read_padding {start offset : Nat} (behind : start + 2 ≤ offset) (tail : Tail) :
    tail.read start padding offset =
      .ok { tail with firstPadding := some (tail.firstPadding.getD offset) } := by
  rw [Tail.read, if_pos (by decide), if_neg (by omega)]

/-- The bytes in a full last group. -/
theorem decodeTail_full {a b c d : Nat} (a_lt : a < 64) (b_lt : b < 64) (c_lt : c < 64)
    (d_lt : d < 64) (start : Nat) :
    decodeTail start [symbol a, symbol b, symbol c, symbol d] = .ok (quadBytes a b c d) := by
  simp only [decodeTail, List.isEmpty_cons, Bool.false_eq_true, if_false, List.zipIdx_cons,
    List.zipIdx_nil, List.foldlM_cons, List.foldlM_nil, bind, Except.bind,
    Tail.read_symbol a_lt, Tail.read_symbol b_lt, Tail.read_symbol c_lt, Tail.read_symbol d_lt]
  rfl

/-- The bytes in a last group with one padding sign. -/
theorem decodeTail_two {a b c : Nat} (a_lt : a < 64) (b_lt : b < 64) (c_lt : c < 64)
    (rounded : c % 4 = 0) (start : Nat) :
    decodeTail start [symbol a, symbol b, symbol c, padding] =
      .ok ((quadBytes a b c 0).take 2) := by
  have behind : start + 2 ≤ start + 1 + 1 + 1 := by omega
  simp only [decodeTail, List.isEmpty_cons, Bool.false_eq_true, if_false, List.zipIdx_cons,
    List.zipIdx_nil, List.foldlM_cons, List.foldlM_nil, bind, Except.bind,
    Tail.read_symbol a_lt, Tail.read_symbol b_lt, Tail.read_symbol c_lt,
    Tail.read_padding behind]
  simp [Tail.bytes, rounded, pure, Except.pure]

/-- The bytes in a last group with two padding signs. -/
theorem decodeTail_one {a b : Nat} (a_lt : a < 64) (b_lt : b < 64)
    (rounded : b % 16 = 0) (start : Nat) :
    decodeTail start [symbol a, symbol b, padding, padding] =
      .ok ((quadBytes a b 0 0).take 1) := by
  have first : start + 2 ≤ start + 1 + 1 := by omega
  have second : start + 2 ≤ start + 1 + 1 + 1 := by omega
  simp only [decodeTail, List.isEmpty_cons, Bool.false_eq_true, if_false, List.zipIdx_cons,
    List.zipIdx_nil, List.foldlM_cons, List.foldlM_nil, bind, Except.bind,
    Tail.read_symbol a_lt, Tail.read_symbol b_lt, Tail.read_padding first,
    Tail.read_padding second]
  simp [Tail.bytes, rounded, pure, Except.pure]

/-- The symbols of three bytes hold their bits. -/
theorem quadBytes_split (x y z : UInt8) :
    quadBytes (x.toNat / 4) (16 * (x.toNat % 4) + y.toNat / 16)
      (4 * (y.toNat % 16) + z.toNat / 64) (z.toNat % 64) = [x, y, z] := by
  have first : 4 * (x.toNat / 4) + (16 * (x.toNat % 4) + y.toNat / 16) / 16 = x.toNat := by
    have bound := y.toNat_lt
    omega
  have second : 16 * ((16 * (x.toNat % 4) + y.toNat / 16) % 16) +
      (4 * (y.toNat % 16) + z.toNat / 64) / 4 = y.toNat := by
    have bound := y.toNat_lt
    have bound' := z.toNat_lt
    omega
  have third : 64 * ((4 * (y.toNat % 16) + z.toNat / 64) % 4) + z.toNat % 64 = z.toNat := by
    have bound := z.toNat_lt
    omega
  rw [quadBytes, first, second, third, UInt8.ofNat_toNat, UInt8.ofNat_toNat, UInt8.ofNat_toNat]

/-- At most four bytes are the last group. -/
theorem decodeOnto_last {last : List UInt8} (short : last.length ≤ 4) (done : Array UInt8)
    (offset : Nat) :
    decodeOnto done offset last =
      (decodeTail offset last).map (fun bytes : List UInt8 => done ++ bytes) := by
  rw [decodeOnto]
  · cases decodeTail offset last <;> rfl
  · rintro s0 s1 s2 s3 s4 rest rfl
    simp only [List.length_cons] at short
    omega

/-- A group of four symbols is read, be it the last or not. -/
theorem decodeOnto_group {a b c d : Nat} (a_lt : a < 64) (b_lt : b < 64) (c_lt : c < 64)
    (d_lt : d < 64) (done : Array UInt8) (offset : Nat) (rest : List UInt8) :
    decodeOnto done offset (symbol a :: symbol b :: symbol c :: symbol d :: rest) =
      decodeOnto (done ++ quadBytes a b c d) (offset + 4) rest := by
  cases rest with
  | nil =>
      rw [decodeOnto_last (by simp), decodeOnto_last (by simp),
        decodeTail_full a_lt b_lt c_lt d_lt, decodeTail, if_pos (by rfl)]
      simp [Except.map]
  | cons next rest =>
      rw [decodeOnto, symbolAt_symbol a_lt, symbolAt_symbol b_lt, symbolAt_symbol c_lt,
        symbolAt_symbol d_lt]
      rfl

/-- What has been written is read, behind bytes that have been read already. -/
theorem decodeOnto_encode : ∀ (bytes : List UInt8) (done : Array UInt8) (offset : Nat),
    decodeOnto done offset (encode bytes) = .ok (done ++ bytes)
  | [], done, offset => rfl
  | [x], done, offset => by
      have bound := x.toNat_lt
      have whole := congrArg (List.take 1) (quadBytes_split x 0 0)
      rw [encode_one, decodeOnto_last (by simp), decodeTail_one (by omega) (by omega) (by omega)]
      exact congrArg (fun read : List UInt8 => Except.ok (done ++ read)) whole
  | [x, y], done, offset => by
      have bound := x.toNat_lt
      have bound' := y.toNat_lt
      have whole := congrArg (List.take 2) (quadBytes_split x y 0)
      rw [encode_two, decodeOnto_last (by simp),
        decodeTail_two (by omega) (by omega) (by omega) (by omega)]
      exact congrArg (fun read : List UInt8 => Except.ok (done ++ read)) whole
  | x :: y :: z :: rest, done, offset => by
      have bound := x.toNat_lt
      have bound' := y.toNat_lt
      have bound'' := z.toNat_lt
      rw [encode_three, decodeOnto_group (by omega) (by omega) (by omega) (by omega),
        quadBytes_split, decodeOnto_encode rest]
      simp

/-- Every byte list is read from its symbols. -/
theorem decode_encode (bytes : List UInt8) : decode (encode bytes) = .ok bytes := by
  have groups : checkLone (encode bytes) = .ok () := by
    simp only [checkLone, length_encode_mod]
  rw [decode, groups, decodeOnto_encode]
  simp [bind, Except.bind]

end Base64
end EffectHost

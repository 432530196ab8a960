/-!
# Base64

Binary data is written in preset banks with the standard alphabet and padding.
Reading is indifferent to padding: equals signs at the end may be there, may be
incomplete and may be missing.  Bits that pad the last symbol must be zero, so that
no two texts differ in their symbols alone and still hold the same bytes.
-/

namespace EffectHost
namespace Base64

/-- The symbol of a number below sixty-four. -/
def symbol (value : Nat) : UInt8 :=
  if value < 26 then UInt8.ofNat (65 + value)
  else if value < 52 then UInt8.ofNat (97 + (value - 26))
  else if value < 62 then UInt8.ofNat (48 + (value - 52))
  else if value == 62 then 43
  else 47

/-- The number that a symbol stands for. -/
def value? (byte : UInt8) : Option Nat :=
  let code := byte.toNat
  if 65 ≤ code && code ≤ 90 then some (code - 65)
  else if 97 ≤ code && code ≤ 122 then some (code - 97 + 26)
  else if 48 ≤ code && code ≤ 57 then some (code - 48 + 52)
  else if code == 43 then some 62
  else if code == 47 then some 63
  else none

theorem value?_symbol : ∀ value : Fin 64, value? (symbol value) = some value.val := by
  decide

/-- The equals sign. -/
def padding : UInt8 := 61

/-- Why a text is no Base64. -/
inductive Fault where
  /-- A byte that does not belong where it stands. -/
  | badSymbol (byte : UInt8) (offset : Nat)
  /-- The last symbol carries bits past the last byte. -/
  | badLastSymbol (byte : UInt8) (offset : Nat)
  /-- One symbol alone at the end. -/
  | badLength (length : Nat)
deriving DecidableEq, Repr

/-- The fault in words. -/
def Fault.message : Fault → String
  | .badSymbol byte offset =>
    "Invalid symbol " ++ toString byte.toNat ++ ", offset " ++ toString offset ++ "."
  | .badLastSymbol byte offset =>
    "Invalid last symbol " ++ toString byte.toNat ++ ", offset " ++ toString offset ++ "."
  | .badLength length => "Invalid input length: " ++ toString length

/-- The three bytes of four symbol values. -/
def quadBytes (a b c d : Nat) : List UInt8 :=
  [UInt8.ofNat (4 * a + b / 16), UInt8.ofNat (16 * (b % 16) + c / 4),
    UInt8.ofNat (64 * (c % 4) + d)]

/-- The symbols of a byte list, behind those already written. -/
def encodeOnto (done : Array UInt8) : List UInt8 → Array UInt8
  | b0 :: b1 :: b2 :: rest =>
    let x := b0.toNat
    let y := b1.toNat
    let z := b2.toNat
    encodeOnto ((((done.push (symbol (x / 4))).push (symbol (16 * (x % 4) + y / 16))).push
      (symbol (4 * (y % 16) + z / 64))).push (symbol (z % 64))) rest
  | [b0, b1] =>
    let x := b0.toNat
    let y := b1.toNat
    (((done.push (symbol (x / 4))).push (symbol (16 * (x % 4) + y / 16))).push
      (symbol (4 * (y % 16)))).push padding
  | [b0] =>
    let x := b0.toNat
    (((done.push (symbol (x / 4))).push (symbol (16 * (x % 4)))).push padding).push padding
  | [] => done

/-- The symbols of a byte list. -/
def encode (bytes : List UInt8) : List UInt8 :=
  (encodeOnto #[] bytes).toList

/-- The value of the symbol at an offset. -/
def symbolAt (byte : UInt8) (offset : Nat) : Except Fault Nat :=
  match value? byte with
  | some value => .ok value
  | none => .error (.badSymbol byte offset)

/-- What has been read of the last group. -/
structure Tail where
  /-- Values of the symbols read, in order. -/
  values : List Nat := []
  /-- Offset of the first padding sign. -/
  firstPadding : Option Nat := none
  /-- The last symbol that was read. -/
  last : UInt8 := 0

/-- Read one byte of the last group.  Padding stands behind at least two symbols, and
nothing but padding stands behind it. -/
def Tail.read (start : Nat) (tail : Tail) (byte : UInt8) (offset : Nat) :
    Except Fault Tail :=
  if byte == padding then
    if offset < start + 2 then .error (.badSymbol padding offset)
    else .ok { tail with firstPadding := some (tail.firstPadding.getD offset) }
  else
    match tail.firstPadding with
    | some first => .error (.badSymbol padding first)
    | none => do
      let value ← symbolAt byte offset
      .ok { tail with values := tail.values ++ [value], last := byte }

/-- The bytes of the symbols in the last group, whose first symbol stands at `start`. -/
def Tail.bytes (start : Nat) (tail : Tail) : Except Fault (List UInt8) :=
  let badLast : Fault := .badLastSymbol tail.last (start + tail.values.length - 1)
  match tail.values with
  | [a, b] => if b % 16 == 0 then .ok ((quadBytes a b 0 0).take 1) else .error badLast
  | [a, b, c] => if c % 4 == 0 then .ok ((quadBytes a b c 0).take 2) else .error badLast
  | [a, b, c, d] => .ok (quadBytes a b c d)
  | _ => .error (.badLength (start + tail.values.length))

/-- Read the last group, of at most four bytes. -/
def decodeTail (start : Nat) (bytes : List UInt8) : Except Fault (List UInt8) :=
  if bytes.isEmpty then .ok []
  else do
    let tail ← (bytes.zipIdx start).foldlM
      (fun (tail : Tail) entry => tail.read start entry.1 entry.2) {}
    tail.bytes start

/-- Read the groups from an offset, behind the bytes already read.  Every group but the
last consists of four symbols. -/
def decodeOnto (done : Array UInt8) (offset : Nat) :
    List UInt8 → Except Fault (Array UInt8)
  | s0 :: s1 :: s2 :: s3 :: s4 :: rest => do
    let a ← symbolAt s0 offset
    let b ← symbolAt s1 (offset + 1)
    let c ← symbolAt s2 (offset + 2)
    let d ← symbolAt s3 (offset + 3)
    decodeOnto (done ++ quadBytes a b c d) (offset + 4) (s4 :: rest)
  | last => do
    let bytes ← decodeTail offset last
    .ok (done ++ bytes)

/-- The byte that is looked at before all others: the single one of an incomplete last
group. -/
def checkLone (symbols : List UInt8) : Except Fault Unit :=
  match symbols.length % 4, symbols.getLast? with
  | 1, some byte =>
    if byte == padding || (value? byte).isSome then .ok ()
    else .error (.badSymbol byte (symbols.length - 1))
  | _, _ => .ok ()

/-- The bytes that a text holds. -/
def decode (symbols : List UInt8) : Except Fault (List UInt8) := do
  checkLone symbols
  let bytes ← decodeOnto #[] 0 symbols
  .ok bytes.toList

end Base64
end EffectHost

import EffectHost.Text.Blank
import EffectHost.Number.Binary

/-!
# Decimal numerals

A numeral is an optional sign, digits with an optional point among them or at
either end, and an optional exponent.  `Numeral.scan` reads the longest numeral at
the beginning of a text; `numberPrefix` is the lenient reading of header fields and
data files, and `number?` the strict reading of a whole word, which also knows the
names of the values that are not finite.
-/

namespace EffectHost
namespace Number

open Text

/-- The parts of a numeral. -/
structure Numeral where
  negative : Bool
  /-- Digits in front of the point. -/
  whole : List Char
  /-- Digits behind the point. -/
  fraction : List Char
  /-- The power of ten written behind the digits. -/
  exponent : Int
deriving DecidableEq, Repr

/-- `digits * 10 ^ exponent` as the nearest double.  Beyond four hundred places
above or below the point the answer does not depend on the exponent. -/
def nearestFloat (digits : Nat) (digitCount : Nat) (exponent : Int) : Float :=
  if digits == 0 then 0.0
  else if 400 < exponent + digitCount then ofReading (.infinite false)
  else if exponent + digitCount < -400 then 0.0
  else if 0 ≤ exponent then Float.ofScientific digits false exponent.toNat
  else Float.ofScientific digits true (-exponent).toNat

namespace Numeral

/-- The value of a numeral. -/
def value (numeral : Numeral) : Float :=
  let digits := (numeral.whole ++ numeral.fraction).dropWhile (· == '0')
  let magnitude := nearestFloat (digitsValue digits) digits.length
    (numeral.exponent - numeral.fraction.length)
  if numeral.negative then -magnitude else magnitude

/-- An optional sign: whether it is a minus, and what follows. -/
def scanSign : List Char → Bool × List Char
  | '-' :: rest => (true, rest)
  | '+' :: rest => (false, rest)
  | text => (false, text)

/-- A point and the digits behind it, both optional. -/
def scanFraction : List Char → List Char × List Char
  | '.' :: rest => (rest.takeWhile isDigit, rest.dropWhile isDigit)
  | text => ([], text)

/-- An exponent, which is taken only if a digit follows its mark and sign. -/
def scanExponent (text : List Char) : Int × List Char :=
  match text with
  | mark :: behind =>
    if mark == 'e' || mark == 'E' then
      let sign := scanSign behind
      let digits := sign.2.takeWhile isDigit
      if digits.isEmpty then (0, text)
      else
        let size : Int := digitsValue digits
        (if sign.1 then -size else size, sign.2.dropWhile isDigit)
    else (0, text)
  | [] => (0, text)

/-- The longest numeral at the beginning of the text, and what follows it. -/
def scan (text : List Char) : Option (Numeral × List Char) :=
  let sign := scanSign text
  let whole := sign.2.takeWhile isDigit
  let fraction := scanFraction (sign.2.dropWhile isDigit)
  if whole.isEmpty && fraction.1.isEmpty then none
  else
    let exponent := scanExponent fraction.2
    some (⟨sign.1, whole, fraction.1, exponent.1⟩, exponent.2)

end Numeral

/-- The value of the longest numeral in front, and the rest of the text.  A text
that begins with no numeral counts as zero and is left whole. -/
def numberPrefix (text : List Char) : Float × List Char :=
  match Numeral.scan text with
  | some (numeral, rest) => (numeral.value, rest)
  | none => (0.0, text)

/-- The words for the values that are not finite, in any case of their letters. -/
def specialValue? (word : List Char) : Option Float :=
  let name := String.ofList (word.map Char.toLower)
  if name == "inf" || name == "infinity" then some (ofReading (.infinite false))
  else if name == "nan" then some (ofReading .nan)
  else none

/-- The number that a whole word spells. -/
def number? (word : List Char) : Option Float :=
  let sign := Numeral.scanSign word
  match specialValue? sign.2 with
  | some value => some (if sign.1 then -value else value)
  | none =>
    match Numeral.scan word with
    | some (numeral, []) => some numeral.value
    | _ => none

end Number
end EffectHost

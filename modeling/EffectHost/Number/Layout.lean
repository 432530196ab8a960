import EffectHost.Number.Shortest

/-!
# The text of a number

Numbers are written with their shortest digits.  Reports and preset banks write
them positionally, whatever their size.  JSON text keeps a point in every number
and changes to an exponent for very large and very small ones.
-/

namespace EffectHost
namespace Number

/-- `count` zeros. -/
def zeros (count : Nat) : List Char :=
  List.replicate count '0'

namespace Decimal

/-- The digits themselves. -/
def digitChars (number : Decimal) : List Char :=
  Nat.toDigits 10 number.digits

/-- Number of digits in front of the point; zero or less if the point comes
first. -/
def point (number : Decimal) : Int :=
  number.digitChars.length + number.exponent

/-- Digits with a point and no exponent; a whole number has no point. -/
def positional (number : Decimal) : List Char :=
  let digits := number.digitChars
  if 0 ≤ number.exponent then digits ++ zeros number.exponent.toNat
  else if 0 < number.point then
    digits.take number.point.toNat ++ '.' :: digits.drop number.point.toNat
  else '0' :: '.' :: (zeros (-number.point).toNat ++ digits)

/-- One digit, a point if more follow, and an exponent that always has a sign. -/
def scientific (number : Decimal) : List Char :=
  let power := number.point - 1
  let sign := if power < 0 then '-' else '+'
  let mark := 'e' :: sign :: Nat.toDigits 10 power.natAbs
  match number.digitChars with
  | first :: second :: more => first :: '.' :: second :: (more ++ mark)
  | digits => digits ++ mark

/-- Positional for `10 ^ -5` up to but excluding `10 ^ 16`, with `.0` behind a whole
number; scientific elsewhere. -/
def json (number : Decimal) : List Char :=
  if -5 < number.point && number.point ≤ 16 then
    if 0 ≤ number.exponent then number.positional ++ ['.', '0'] else number.positional
  else number.scientific

end Decimal

/-- A minus sign where one is due. -/
def signed (negative : Bool) (digits : List Char) : List Char :=
  if negative then '-' :: digits else digits

/-- The text of a value in reports, warnings and preset data. -/
def plainText (value : Float) : String :=
  String.ofList <|
    match reading value with
    | .nan => "NaN".toList
    | .infinite negative => signed negative "inf".toList
    | .finite negative mantissa exponent =>
      signed negative <|
        if mantissa == 0 then ['0'] else (shortest .up mantissa exponent).positional

/-- The text of a value in JSON, which has no word for the values that are not
finite. -/
def jsonText (value : Float) : String :=
  match reading value with
  | .nan | .infinite _ => "null"
  | .finite negative mantissa exponent =>
    String.ofList <| signed negative <|
      if mantissa == 0 then "0.0".toList else (shortest .even mantissa exponent).json

end Number
end EffectHost

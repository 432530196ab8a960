import EffectHost.Text.CaseTable

/-!
# Small letters

Names of files and of script variables are compared without regard to case.
Variable names fold the ASCII letters only.  File names fold every letter that
has a case; of the two small forms of the capital sigma, the one for the end of
a word is taken where a letter stands before it and none behind.
-/

namespace EffectHost
namespace Text

/-- Fold the ASCII letters. -/
def asciiLower (text : String) : String :=
  String.ofList (text.toList.map Char.toLower)

/-- Equality up to the case of ASCII letters. -/
def sameAscii (first second : String) : Bool :=
  asciiLower first == asciiLower second

/-- Membership in a table of code point ranges. -/
def inRanges (ranges : List (Nat × Nat)) (c : Char) : Bool :=
  ranges.any (fun range => range.1 ≤ c.toNat && c.toNat ≤ range.2)

/-- The nearest character that is not passed over is a letter with a case. -/
def reachesCased (text : List Char) : Bool :=
  match text.dropWhile (inRanges passedOverRanges) with
  | [] => false
  | c :: _ => inRanges casedRanges c

/-- The small form of one character, apart from the capital sigma. -/
def smallForm (c : Char) : List Char :=
  if c.toNat < 0x80 then [c.toLower]
  else if c.toNat == 0x130 then ['i', Char.ofNat 0x307]
  else
    match capitalRuns.findSome? (fun run => run.small? c.toNat) with
    | some code => [Char.ofNat code]
    | none => [c]

/-- The small form of a text whose part before the cursor is given in reverse. -/
def lowerBehind (before : List Char) : List Char → List Char
  | [] => []
  | c :: rest =>
    let small :=
      if c.toNat == 0x3A3 then
        if reachesCased before && !reachesCased rest then [Char.ofNat 0x3C2]
        else [Char.ofNat 0x3C3]
      else smallForm c
    small ++ lowerBehind (c :: before) rest

/-- Fold every letter that has a case. -/
def lower (text : String) : String :=
  String.ofList (lowerBehind [] text.toList)

end Text
end EffectHost

import EffectHost.Text.Blank

/-!
# Lines of a script

A script is cut into lines at each line feed.  Nothing follows the last line feed,
and blanks at the end of a line, a carriage return among them, do not belong to it.
-/

namespace EffectHost

/-- One line of a script. -/
structure Line where
  /-- Position in the file, counted from zero. -/
  number : Nat
  text : List Char
deriving DecidableEq, Repr

namespace Line

/-- The line opens a section. -/
def isMarker (line : Line) : Bool :=
  line.text.head? == some '@'

/-- The pieces of a text in front of each line feed, and the piece behind the last
one unless it is empty. -/
def pieces (text : List Char) : List (List Char) :=
  let parts := text.splitOn '\n'
  if parts.getLast? == some [] then parts.dropLast else parts

/-- The numbered lines of a text. -/
def ofText (text : String) : List Line :=
  (pieces text.toList).mapIdx fun number piece => ⟨number, Text.trimEnd piece⟩

/-- Lines written out, each with a line feed behind it. -/
def join (lines : List Line) : String :=
  String.ofList (lines.flatMap fun line => line.text ++ ['\n'])

end Line
end EffectHost

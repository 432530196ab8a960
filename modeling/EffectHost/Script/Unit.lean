import EffectHost.Failure
import EffectHost.Script.Header
import EffectHost.Script.Line
import EffectHost.Text.Utf8

/-!
# Script units

One script file, split into its header and sections.  A line that begins with an
at-sign opens the section whose kind is the first word behind the sign; the lines up
to the next such line are its body, and those in front of the first are the header.
The first marker of a file that names no kind, or a kind named before, makes the file
unusable.
-/

namespace EffectHost

open Text Number

/-- A parsed script file. -/
structure ScriptUnit where
  /-- The file it was read from, if any. -/
  path : Option String := none
  header : Header := {}
  /-- The sections in file order, at most one of a kind. -/
  sections : List Section := []

namespace ScriptUnit

/-- The section of a kind. -/
def section? (unit : ScriptUnit) (kind : SectionKind) : Option Section :=
  unit.sections.find? (fun entry => entry.kind == kind)

/-- The unit has a section of a kind. -/
def has (unit : ScriptUnit) (kind : SectionKind) : Bool :=
  (unit.section? kind).isSome

/-- The folder of the unit's file. -/
def folder? (unit : ScriptUnit) : Option String :=
  unit.path.bind Path.parent?

/-- The lines in front of the first marker, and each marker with its body. -/
def splitAtMarkers (lines : List Line) : List Line × List (Line × List Line) :=
  lines.foldr (fun line parts =>
    if line.isMarker then ([], (line, parts.1) :: parts.2)
    else (line :: parts.1, parts.2)) ([], [])

/-- A positive size in a marker; anything else asks for nothing. -/
def dimension (word? : Option (List Char)) : Nat :=
  match word?.bind number? with
  | some size => toNatural32 size
  | none => 0

/-- The words behind the at-sign of a marker. -/
def markerWords (marker : Line) : List (List Char) :=
  words (marker.text.drop 1)

/-- The section that a marker opens. -/
def openSection (marker : Line) (body : List Line) : Except Failure Section :=
  let parts := markerWords marker
  let tag := String.ofList (parts.head?.getD [])
  match SectionKind.ofTag? tag with
  | none => .error (.malformed (marker.number + 1) ("invalid section: @" ++ tag))
  | some kind =>
    let size (position : Nat) : Nat :=
      if kind == .gfx then dimension parts[position]? else 0
    .ok ⟨kind, marker.number + 1, Line.join body, size 1, size 2⟩

/-- Add a section behind those before it, unless its kind is taken. -/
def store (sections : List Section) (entry : Section) : Except Failure (List Section) :=
  if sections.any (fun other => other.kind == entry.kind) then
    .error (.malformed entry.lineOffset ("duplicate @" ++ entry.kind.tag ++ " section"))
  else .ok (sections ++ [entry])

/-- The sections opened by the markers. -/
def readSections (blocks : List (Line × List Line)) : Except Failure (List Section) :=
  blocks.foldlM (fun sections block => do
    let entry ← openSection block.1 block.2
    store sections entry) []

/-- Read a script. -/
def parse (text : String) : Except Failure ScriptUnit := do
  let parts := splitAtMarkers (Line.ofText text)
  let sections ← readSections parts.2
  let hasSample := sections.any (fun entry => entry.kind == .sample)
  .ok { header := (Header.parse (Line.join parts.1)).withStandardPins hasSample
        sections := sections }

/-- Read the script at a path. -/
def load (disk : Disk) (path : String) : Except Failure ScriptUnit :=
  match disk.read path with
  | .error fault => .error (.unreadable path fault)
  | .ok bytes => (parse (Utf8.decode bytes)).map fun unit => { unit with path := some path }

end ScriptUnit
end EffectHost

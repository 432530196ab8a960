/-!
# Sections

A script is a header followed by sections.  Each section has a kind, and a script
has at most one section of a kind.
-/

namespace EffectHost

/-- What a section is for. -/
inductive SectionKind where
  | init
  | slider
  | block
  | sample
  | gfx
  | serialize
deriving DecidableEq, Repr

namespace SectionKind

/-- The word behind the at-sign of a section marker. -/
def tag : SectionKind → String
  | .init => "init"
  | .slider => "slider"
  | .block => "block"
  | .sample => "sample"
  | .gfx => "gfx"
  | .serialize => "serialize"

/-- Every kind, in the order in which sections are listed. -/
def all : List SectionKind :=
  [.init, .slider, .block, .sample, .gfx, .serialize]

/-- The kinds of which an effect runs one section, taken from the first unit that
has it, in the order in which they are compiled. -/
def single : List SectionKind :=
  [.slider, .block, .sample, .gfx, .serialize]

/-- The kind that a marker names. -/
def ofTag? (word : String) : Option SectionKind :=
  all.find? (fun kind => kind.tag == word)

theorem mem_all (kind : SectionKind) : kind ∈ all := by
  cases kind <;> decide

theorem ofTag?_tag (kind : SectionKind) : ofTag? kind.tag = some kind := by
  cases kind <;> decide

end SectionKind

/-- The body of a section. -/
structure Section where
  kind : SectionKind
  /-- Number of the first body line in its file, counted from zero. -/
  lineOffset : Nat
  text : String
  /-- Requested size of the drawing surface; zero where nothing is requested. -/
  width : Nat
  height : Nat
deriving DecidableEq, Repr

end EffectHost

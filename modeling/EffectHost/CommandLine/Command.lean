import EffectHost.CommandLine.Options
import EffectHost.Number.Power
import EffectHost.Text.Blank

/-!
# Commands

The program describes a script, lists the presets of a bank, or sends an audio file
through a script.
-/

namespace EffectHost

/-- Frames in a block of a rendering unless the user asks for another number. -/
def standardRenderBlock : Nat := 512

/-- An audio file to send through a script. -/
structure RenderJob where
  script : String
  input : String
  output : String
  blockSize : Nat := standardRenderBlock
  /-- Assignments to sliders, as the user wrote them. -/
  assignments : List String := []
deriving DecidableEq, Repr

/-- What the user wants. -/
inductive Command where
  | idle
  | info (script : String) (ignoreImports : Bool)
  | bank (path : String) (asJson : Bool)
  | render (job : RenderJob)
deriving DecidableEq, Repr

namespace Command

def verboseOption : CommandOption := { name := "verbose", letter? := some 'v' }
def noImportsOption : CommandOption := { name := "no-imports" }
def jsonOption : CommandOption := { name := "json" }
def blockSizeOption : CommandOption :=
  { name := "block-size", letter? := some 'b', takesValue := true }
def sliderOption : CommandOption :=
  { name := "slider", letter? := some 's', takesValue := true, repeats := true }

/-- The words of a command if there are exactly so many and none is empty. -/
def paths? (line : OptionWords) (count : Nat) : Option (List String) :=
  if line.words.length = count && line.words.all (fun word => !word.isEmpty) then
    some line.words
  else none

/-- The words behind `info`. -/
def info? (words : List String) : Option Command := do
  let line ← OptionWords.ofWords? [verboseOption, noImportsOption] words
  match ← paths? line 1 with
  | [script] => some (.info script (line.has noImportsOption))
  | _ => none

/-- The words behind `bank`. -/
def bank? (words : List String) : Option Command := do
  let line ← OptionWords.ofWords? [verboseOption, jsonOption] words
  match ← paths? line 1 with
  | [path] => some (.bank path (line.has jsonOption))
  | _ => none

/-- The block size among the options of a rendering. -/
def blockSize? (line : OptionWords) : Option Nat :=
  match line.values blockSizeOption with
  | [] => some standardRenderBlock
  | text :: _ => Text.boundedNat? (Number.twoTo 64) text.toList

/-- The words behind `render`. -/
def render? (words : List String) : Option Command := do
  let line ← OptionWords.ofWords? [verboseOption, blockSizeOption, sliderOption] words
  let blockSize ← blockSize? line
  match ← paths? line 3 with
  | [script, input, output] =>
    some (.render ⟨script, input, output, blockSize, line.values sliderOption⟩)
  | _ => none

/-- The words behind options that come before the name of a command. -/
def afterName? (name : String) (words : List String) : Option Command :=
  match name with
  | "info" => info? words
  | "bank" => bank? words
  | "render" => render? words
  | _ => none

/-- A word in front of the name of a command, or the name. -/
def isName (word : String) : Bool :=
  !OptionWords.looksLikeOption word

/-- Understand a command line.  There is none for words that cannot be understood. -/
def ofWords? (words : List String) : Option Command := do
  let lead ← OptionWords.ofWords? [verboseOption] (words.takeWhile fun word => !isName word)
  match words.dropWhile fun word => !isName word with
  | [] => if lead.words.isEmpty then some .idle else none
  | name :: rest =>
    if (words.takeWhile fun word => !isName word).contains "--" then none
    else afterName? name rest

end Command
end EffectHost

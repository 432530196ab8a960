import EffectHost.Bytes.Base64
import EffectHost.Failure
import EffectHost.Preset.Bank
import EffectHost.Text.Utf8

/-!
# Reading a preset bank

The text of a bank is cut into tokens at blanks; a token that begins with a quote runs
to the next quote of its kind and may hold blanks.  Behind the opening token and the
name come blocks, each closed by a lone `>`.  Blocks that are no presets are passed
over as a whole, with the blocks inside them, and so are tokens between blocks.
-/

namespace EffectHost

open Text Number

/-- Why a text is no bank. -/
inductive BankFault where
  | missingHeader
  | unnamedPreset
  | badData (preset : String) (fault : Base64.Fault)
deriving DecidableEq, Repr

/-- The fault in words. -/
def BankFault.message : BankFault → String
  | .missingHeader => "missing library header"
  | .unnamedPreset => "unnamed preset"
  | .badData preset fault => "preset '" ++ preset ++ "': " ++ fault.message

namespace Bank

/-- The three quotes. -/
def isQuote (c : Char) : Bool :=
  c == '"' || c == '\'' || c == '`'

theorem length_dropWhile_le (keep : Char → Bool) (text : List Char) :
    (text.dropWhile keep).length ≤ text.length :=
  (List.dropWhile_suffix keep).length_le

/-- The tokens of a text, behind those already found, which are in reverse. -/
def tokensBehind (done : List (List Char)) (text : List Char) : List (List Char) :=
  match text with
  | [] => done.reverse
  | c :: rest =>
    if isBlank c then tokensBehind done rest
    else if isQuote c then
      tokensBehind (rest.takeWhile (· != c) :: done) ((rest.dropWhile (· != c)).drop 1)
    else
      tokensBehind ((c :: rest.takeWhile (!isBlank ·)) :: done)
        (rest.dropWhile (!isBlank ·))
termination_by text.length
decreasing_by
  · simp
  · have := length_dropWhile_le (· != c) rest
    simp only [List.length_drop, List.length_cons]
    omega
  · exact Nat.lt_succ_of_le (length_dropWhile_le _ _)

/-- The tokens of a text. -/
def tokens (text : List Char) : List (List Char) :=
  tokensBehind [] text

/-- The token opens a block. -/
def isOpening (token : List Char) : Bool :=
  token.head? == some '<'

/-- The token that closes a block. -/
def closing : List Char := ['>']

/-- The token that opens a preset. -/
def presetOpening : List Char := "<PRESET".toList

/-- What follows the end of a block, inside which `depth` further blocks are open. -/
def skipBlock : Nat → List (List Char) → List (List Char)
  | _, [] => []
  | depth, token :: rest =>
    if isOpening token then skipBlock (depth + 1) rest
    else if token == closing then
      match depth with
      | 0 => rest
      | depth + 1 => skipBlock depth rest
    else skipBlock depth rest

theorem length_skipBlock_le (depth : Nat) (rest : List (List Char)) :
    (skipBlock depth rest).length ≤ rest.length := by
  induction rest generalizing depth with
  | nil => simp [skipBlock]
  | cons token rest ih =>
    simp only [skipBlock]
    split
    · exact Nat.le_succ_of_le (ih _)
    · split
      · cases depth with
        | zero => exact Nat.le_succ _
        | succ depth => exact Nat.le_succ_of_le (ih _)
      · exact Nat.le_succ_of_le (ih _)

/-- The sliders spelled by the words of a preset.  A word that is no number leaves its
slot out, and so does the word for an absent slider. -/
def slidersOfWords (slots : List (List Char)) : List SliderValue :=
  (slots.take sliderSlots).zipIdx.filterMap fun entry =>
    if entry.1 == Preset.absentWord.toList then none
    else (number? entry.1).map fun value => ⟨UInt32.ofNat entry.2, value⟩

/-- The state in the block of a preset. -/
def stateOfBlob (blob : List UInt8) : EffectState :=
  let text := Utf8.decode (Bytes.pack (blob.takeWhile (· != 0)))
  { sliders := slidersOfWords (words text.toList)
    data := Bytes.pack ((blob.dropWhile (· != 0)).drop 1) }

/-- The preset of a name whose block consists of the given chunks. -/
def presetOfChunks (name : List Char) (chunks : List (List Char)) :
    Except BankFault Preset :=
  let title := String.ofList name
  match Base64.decode (Utf8.encode (String.ofList chunks.flatten)).data.toList with
  | .ok blob => .ok ⟨title, stateOfBlob blob⟩
  | .error fault => .error (.badData title fault)

/-- The presets among the tokens behind the name of the bank, after those already
read, which are in reverse. -/
def presetsBehind (done : List Preset) (text : List (List Char)) :
    Except BankFault (List Preset) :=
  match text with
  | [] => .ok done.reverse
  | token :: rest =>
    if token == closing then .ok done.reverse
    else if token == presetOpening then
      match rest with
      | [] => .error .unnamedPreset
      | name :: body =>
        match presetOfChunks name (body.takeWhile (· != closing)) with
        | .error fault => .error fault
        | .ok preset =>
          presetsBehind (preset :: done) ((body.dropWhile (· != closing)).drop 1)
    else if isOpening token then presetsBehind done (skipBlock 0 rest)
    else presetsBehind done rest
termination_by text.length
decreasing_by
  · have := (List.dropWhile_suffix (l := body) (· != closing)).length_le
    simp only [List.length_drop, List.length_cons]
    omega
  · exact Nat.lt_succ_of_le (length_skipBlock_le _ _)
  · simp

/-- Read the text of a bank.  Line breaks count as blanks inside quotes, too. -/
def parse (text : String) : Except BankFault Bank :=
  let flat := text.toList.map fun c => if c == '\r' || c == '\n' then ' ' else c
  match tokens flat with
  | [] => .error .missingHeader
  | header :: rest =>
    if isOpening header then
      (presetsBehind [] (rest.drop 1)).map fun presets =>
        ⟨String.ofList (rest.head?.getD []), presets⟩
    else .error .missingHeader

/-- Read the bank at a path. -/
def load (disk : Disk) (path : String) : Except Failure Bank :=
  match disk.read path with
  | .error fault => .error (.unreadable path fault)
  | .ok bytes =>
    match parse (Utf8.decode bytes) with
    | .ok bank => .ok bank
    | .error fault => .error (.badBank fault.message)

end Bank
end EffectHost

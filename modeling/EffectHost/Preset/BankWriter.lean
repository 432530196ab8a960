import EffectHost.Bytes.Base64
import EffectHost.Preset.Bank
import EffectHost.Text.Utf8

/-!
# Writing a preset bank

Names stand between quotes of a kind that does not occur in them, as long as there is
one.  The Base64 of a preset is broken into lines of equal width.
-/

namespace EffectHost
namespace Bank

/-- Width of the lines of Base64. -/
def lineWidth : Nat := 128

/-- A name between quotes. -/
def quoted (name : String) : String :=
  let quote := (['`', '"', '\''].find? (fun quote => !name.toList.contains quote)).getD '`'
  String.ofList (quote :: name.toList ++ [quote])

/-- The block of a preset. -/
def blob (state : EffectState) : List UInt8 :=
  (Utf8.encode (String.intercalate " " (Preset.slotWords state))).data.toList ++
    0 :: state.data.data.toList

/-- A list cut into pieces of `width + 1` elements, of which the last may be shorter. -/
def cut (width : Nat) (symbols : List Char) : List (List Char) :=
  match symbols with
  | [] => []
  | first :: rest => (first :: rest.take width) :: cut width (rest.drop width)
termination_by symbols.length
decreasing_by simp only [List.length_drop, List.length_cons]; omega

/-- The lines of a preset. -/
def presetLines (preset : Preset) : List String :=
  let symbols := (Base64.encode (blob preset.state)).map fun byte => Char.ofNat byte.toNat
  ("  <PRESET " ++ quoted preset.name) ::
    (cut (lineWidth - 1) symbols).map (fun line => "    " ++ String.ofList line) ++ ["  >"]

/-- The text of a bank. -/
def toText (bank : Bank) : String :=
  let lines := ("<REAPER_PRESET_LIBRARY " ++ quoted bank.name) ::
    bank.presets.flatMap presetLines ++ [">"]
  String.join (lines.map (· ++ "\n"))

end Bank
end EffectHost

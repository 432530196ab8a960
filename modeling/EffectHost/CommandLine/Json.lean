import EffectHost.Number.Layout

/-!
# JSON

Values as JSON knows them, and their text with one item in a line.  Lists and objects
without items stand in one line.
-/

namespace EffectHost

/-- A JSON value.  The items of an object are written in the given order. -/
inductive JsonValue where
  | null
  | bool (value : Bool)
  | natural (value : Nat)
  | number (value : Float)
  | text (value : String)
  | list (items : List JsonValue)
  | object (items : List (String × JsonValue))

namespace JsonValue

/-- A list of texts. -/
def texts (values : List String) : JsonValue :=
  .list (values.map .text)

/-- A value, or null if there is none. -/
def optional (encode : α → JsonValue) : Option α → JsonValue
  | some value => encode value
  | none => .null

/-- The last hexadecimal digit of a number. -/
def hexDigit (value : Nat) : Char :=
  "0123456789abcdef".toList.getD (value % 16) '0'

/-- How a character stands inside quotes. -/
def escaped (c : Char) : List Char :=
  match c with
  | '"' => ['\\', '"']
  | '\\' => ['\\', '\\']
  | '\n' => ['\\', 'n']
  | '\r' => ['\\', 'r']
  | '\t' => ['\\', 't']
  | '\x08' => ['\\', 'b']
  | '\x0C' => ['\\', 'f']
  | other =>
    if other.toNat < 32 then
      ['\\', 'u', '0', '0', hexDigit (other.toNat / 16), hexDigit other.toNat]
    else [other]

/-- A text in quotes. -/
def quoted (value : String) : String :=
  String.ofList ('"' :: value.toList.flatMap escaped ++ ['"'])

/-- A new line at a depth. -/
def newLine (depth : Nat) : String :=
  "\n" ++ String.ofList (List.replicate (2 * depth) ' ')

/-- Items between a pair of brackets, each in a line of its own. -/
def bracketed (opening closing : String) (depth : Nat) (items : List String) : String :=
  if items.isEmpty then opening ++ closing
  else
    opening ++ String.intercalate "," (items.map (newLine (depth + 1) ++ ·)) ++
      newLine depth ++ closing

mutual

/-- The text of a value at a depth. -/
def write (depth : Nat) : JsonValue → String
  | .null => "null"
  | .bool value => if value then "true" else "false"
  | .natural value => toString value
  | .number value => Number.jsonText value
  | .text value => quoted value
  | .list items => bracketed "[" "]" depth (writeItems (depth + 1) items)
  | .object items => bracketed "\x7b" "\x7d" depth (writeFields (depth + 1) items)
termination_by structural value => value

/-- The texts of values at a depth. -/
def writeItems (depth : Nat) : List JsonValue → List String
  | [] => []
  | item :: rest => write depth item :: writeItems depth rest
termination_by structural items => items

/-- The texts of named values at a depth. -/
def writeFields (depth : Nat) : List (String × JsonValue) → List String
  | [] => []
  | (name, value) :: rest => (quoted name ++ ": " ++ write depth value) :: writeFields depth rest
termination_by structural items => items

end

/-- The text of a value. -/
def pretty (value : JsonValue) : String :=
  write 0 value

end JsonValue
end EffectHost

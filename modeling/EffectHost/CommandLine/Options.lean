/-!
# Options on a command line

A command line is a sequence of words.  A word that begins with a minus names options,
either one by its long name behind two of them, or several by their letters behind one;
a single minus is an ordinary word, and behind a double minus every word is.  The value
of an option follows its name, with or without an equals sign, or is the next word, which
then must not look like an option itself.
-/

namespace EffectHost

/-- An option that a command knows. -/
structure CommandOption where
  name : String
  letter? : Option Char := none
  takesValue : Bool := false
  /-- The option may be given more than once. -/
  repeats : Bool := false
deriving DecidableEq, Repr

/-- The words of a command line, told apart. -/
structure OptionWords where
  /-- The options with their values, in order; an option that takes none has an empty
  one. -/
  options : List (CommandOption × String) := []
  words : List String := []
deriving DecidableEq, Repr

namespace OptionWords

/-- Put an option in front. -/
def consOption (option : CommandOption) (value : String) (rest : OptionWords) : OptionWords :=
  { rest with options := (option, value) :: rest.options }

/-- Put a word in front. -/
def consWord (word : String) (rest : OptionWords) : OptionWords :=
  { rest with words := word :: rest.words }

/-- Options found in one word, and the one that still waits for its value. -/
structure Found where
  options : List (CommandOption × String) := []
  waiting? : Option CommandOption := none

/-- Read option letters. -/
def ofLetters? (known : List CommandOption) : List Char → Option Found
  | [] => some {}
  | letter :: rest => do
    let option ← known.find? fun option => option.letter? == some letter
    if option.takesValue then
      match rest with
      | [] => some { waiting? := some option }
      | '=' :: value => some { options := [(option, String.ofList value)] }
      | value => some { options := [(option, String.ofList value)] }
    else
      let found ← ofLetters? known rest
      some { found with options := (option, "") :: found.options }

/-- Read the long name of an option. -/
def ofName? (known : List CommandOption) (text : List Char) : Option Found := do
  let name := text.takeWhile (· != '=')
  let option ← known.find? fun option => option.name.toList == name
  match text.drop name.length, option.takesValue with
  | [], true => some { waiting? := some option }
  | [], false => some { options := [(option, "")] }
  | _ :: value, true => some { options := [(option, String.ofList value)] }
  | _ :: _, false => none

/-- The word looks like an option. -/
def looksLikeOption (word : String) : Bool :=
  match word.toList with
  | '-' :: _ :: _ => true
  | _ => false

/-- Read words while `waiting?` may wait for its value.  Words that cannot be understood
give none. -/
def read? (known : List CommandOption) : Option CommandOption → List String →
    Option OptionWords
  | none, [] => some {}
  | some _, [] => none
  | some option, word :: rest =>
    if looksLikeOption word then none
    else (read? known none rest).map (consOption option word)
  | none, word :: rest =>
    match word.toList with
    | ['-', '-'] => some { words := rest }
    | '-' :: '-' :: text => do
      let found ← ofName? known text
      let others ← read? known found.waiting? rest
      some { others with options := found.options ++ others.options }
    | '-' :: letter :: letters => do
      let found ← ofLetters? known (letter :: letters)
      let others ← read? known found.waiting? rest
      some { others with options := found.options ++ others.options }
    | _ => (read? known none rest).map (consWord word)

/-- How often an option was given. -/
def count (line : OptionWords) (option : CommandOption) : Nat :=
  (line.options.filter fun given => given.1 == option).length

/-- Tell the words of a command line apart.  Only options that repeat may be given
more than once. -/
def ofWords? (known : List CommandOption) (words : List String) : Option OptionWords := do
  let line ← read? known none words
  if known.all fun option => option.repeats || line.count option ≤ 1 then some line else none

/-- The option was given. -/
def has (line : OptionWords) (option : CommandOption) : Bool :=
  0 < line.count option

/-- The values that an option was given, in order. -/
def values (line : OptionWords) (option : CommandOption) : List String :=
  (line.options.filter fun given => given.1 == option).map Prod.snd

end OptionWords
end EffectHost

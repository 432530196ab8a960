import EffectHost.Number.Numeral

/-!
# Tokens of script code

Code is cut into numbers, quoted texts, names and symbols.  Blanks and comments stand
between tokens and are dropped.  Only line feeds count lines, also inside comments and
quoted texts; a token has the number of the line on which it begins.
-/

namespace EffectHost
namespace Code

open Text Number

/-- The symbols of the language. -/
inductive Symbol where
  | equal
  | unequal
  | atMost
  | atLeast
  | plus
  | minus
  | times
  | over
  | becomes
  | openParen
  | closeParen
  | openBracket
  | closeBracket
  | comma
  | semicolon
  | below
  | above
deriving DecidableEq, Repr

namespace Symbol

/-- How a symbol is written. -/
def text : Symbol → String
  | .equal => "=="
  | .unequal => "!="
  | .atMost => "<="
  | .atLeast => ">="
  | .plus => "+"
  | .minus => "-"
  | .times => "*"
  | .over => "/"
  | .becomes => "="
  | .openParen => "("
  | .closeParen => ")"
  | .openBracket => "["
  | .closeBracket => "]"
  | .comma => ","
  | .semicolon => ";"
  | .below => "<"
  | .above => ">"

/-- The longest symbol in front of a text, and what follows it. -/
def scan? : List Char → Option (Symbol × List Char)
  | '=' :: '=' :: rest => some (.equal, rest)
  | '!' :: '=' :: rest => some (.unequal, rest)
  | '<' :: '=' :: rest => some (.atMost, rest)
  | '>' :: '=' :: rest => some (.atLeast, rest)
  | '+' :: rest => some (.plus, rest)
  | '-' :: rest => some (.minus, rest)
  | '*' :: rest => some (.times, rest)
  | '/' :: rest => some (.over, rest)
  | '=' :: rest => some (.becomes, rest)
  | '(' :: rest => some (.openParen, rest)
  | ')' :: rest => some (.closeParen, rest)
  | '[' :: rest => some (.openBracket, rest)
  | ']' :: rest => some (.closeBracket, rest)
  | ',' :: rest => some (.comma, rest)
  | ';' :: rest => some (.semicolon, rest)
  | '<' :: rest => some (.below, rest)
  | '>' :: rest => some (.above, rest)
  | _ => none

theorem length_lt_of_scan? {text : List Char} {found : Symbol × List Char}
    (scanned : scan? text = some found) : found.2.length < text.length := by
  unfold scan? at scanned
  split at scanned <;> first
    | (cases scanned; simp only [List.length_cons]; omega)
    | cases scanned

end Symbol

/-- What a token is. -/
inductive Lexeme where
  | number (value : Float)
  | text (content : String)
  | name (name : String)
  | symbol (symbol : Symbol)

/-- A token and the line on which it begins, counted from zero. -/
structure Token where
  lexeme : Lexeme
  line : Nat

/-- Why code cannot be read. -/
inductive Cause where
  | unterminatedComment
  | unterminatedText
  | badNumber (digits : String)
  | badCharacter (c : Char)
  | expected (symbol : Symbol)
  | unexpected (symbol : Symbol)
  | endOfCode
  | badTarget
deriving DecidableEq, Repr

/-- The cause in words. -/
def Cause.message : Cause → String
  | .unterminatedComment => "unterminated comment"
  | .unterminatedText => "unterminated string"
  | .badNumber digits => "bad number '" ++ digits ++ "'"
  | .badCharacter c => "unexpected character '" ++ c.toString ++ "'"
  | .expected symbol => "expected '" ++ symbol.text ++ "'"
  | .unexpected symbol => "unexpected '" ++ symbol.text ++ "'"
  | .endOfCode => "unexpected end of code"
  | .badTarget => "invalid assignment target"

/-- A cause and the line where it was found, counted from the first line of the
code. -/
structure Fault where
  line : Nat
  cause : Cause
deriving DecidableEq, Repr

/-- The blanks of the language, which are all ASCII.  A line feed is one, too. -/
def isSpace (c : Char) : Bool :=
  c == ' ' || c == '\t' || c == '\n' || c == '\x0C' || c == '\r'

/-- A character that may begin a name. -/
def isNameStart (c : Char) : Bool :=
  isLetter c || c == '_'

/-- A character that may stand in a name. -/
def isNamePart (c : Char) : Bool :=
  isLetter c || isDigit c || c == '_' || c == '.'

/-- A character that may stand in a number. -/
def isNumberPart (c : Char) : Bool :=
  isDigit c || c == '.'

/-- A number begins here: a digit, or a point with a digit behind it. -/
def startsNumber : List Char → Bool
  | '.' :: c :: _ => isDigit c
  | c :: _ => isDigit c
  | [] => false

/-- The number of line feeds in a text. -/
def lineFeeds (text : List Char) : Nat :=
  text.count '\n'

/-- The line on which a comment ends, and what follows it. -/
def skipComment? (line : Nat) : List Char → Option (Nat × List Char)
  | '*' :: '/' :: rest => some (line, rest)
  | c :: rest => skipComment? (if c == '\n' then line + 1 else line) rest
  | [] => none

theorem length_le_of_skipComment? {line : Nat} {text : List Char}
    {found : Nat × List Char} (skipped : skipComment? line text = some found) :
    found.2.length ≤ text.length := by
  fun_induction skipComment? line text with
  | case1 => cases skipped; simp only [List.length_cons]; omega
  | case2 line c rest _ ih => exact Nat.le_succ_of_le (ih skipped)
  | case3 => cases skipped

theorem length_splitFirst?_lt {mark : Char} {text : List Char}
    {parts : List Char × List Char} (split : splitFirst? mark text = some parts) :
    parts.2.length < text.length := by
  unfold splitFirst? at split
  have shorter := (List.dropWhile_suffix (l := text) (· != mark)).length_le
  split at split
  next => cases split
  next c behind dropped =>
    cases split
    rw [dropped] at shorter
    exact shorter

theorem length_dropWhile_le (keep : Char → Bool) (text : List Char) :
    (text.dropWhile keep).length ≤ text.length :=
  (List.dropWhile_suffix keep).length_le

namespace Token

/-- The tokens of a text that begins on the given line, behind the tokens already
found, which are in reverse. -/
def scanBehind (done : List Token) (line : Nat) (text : List Char) :
    Except Fault (List Token) :=
  match text with
  | [] => .ok done.reverse
  | c :: rest =>
    if c == '\n' then scanBehind done (line + 1) rest
    else if isSpace c then scanBehind done line rest
    else if c == '/' && rest.head? == some '/' then
      scanBehind done line (rest.dropWhile (· != '\n'))
    else if c == '/' && rest.head? == some '*' then
      match _skipped : skipComment? line (rest.drop 1) with
      | some (last, behind) => scanBehind done last behind
      | none => .error ⟨line, .unterminatedComment⟩
    else if startsNumber (c :: rest) then
      let digits := c :: rest.takeWhile isNumberPart
      match number? digits with
      | some value =>
        scanBehind (⟨.number value, line⟩ :: done) line (rest.dropWhile isNumberPart)
      | none => .error ⟨line, .badNumber (String.ofList digits)⟩
    else if isNameStart c then
      let name := c :: rest.takeWhile isNamePart
      scanBehind (⟨.name (String.ofList name), line⟩ :: done) line (rest.dropWhile isNamePart)
    else if c == '"' then
      match _closed : splitFirst? '"' rest with
      | some (content, behind) =>
        scanBehind (⟨.text (String.ofList content), line⟩ :: done)
          (line + lineFeeds content) behind
      | none => .error ⟨line, .unterminatedText⟩
    else
      match _found : Symbol.scan? (c :: rest) with
      | some (symbol, behind) => scanBehind (⟨.symbol symbol, line⟩ :: done) line behind
      | none => .error ⟨line, .badCharacter c⟩
termination_by text.length
decreasing_by
  · simp
  · simp
  · exact Nat.lt_succ_of_le (length_dropWhile_le _ _)
  · have shorter := length_le_of_skipComment? _skipped
    simp only [List.length_drop, List.length_cons] at *
    omega
  · exact Nat.lt_succ_of_le (length_dropWhile_le _ _)
  · exact Nat.lt_succ_of_le (length_dropWhile_le _ _)
  · exact Nat.lt_succ_of_lt (length_splitFirst?_lt _closed)
  · exact Symbol.length_lt_of_scan? _found

/-- The tokens of a text. -/
def scan (text : String) : Except Fault (List Token) :=
  scanBehind [] 0 text.toList

end Token
end Code
end EffectHost

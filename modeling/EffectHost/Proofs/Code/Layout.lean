import EffectHost.Proofs.Code.Grammar
import EffectHost.Proofs.Number.PlainText
import EffectHost.Proofs.Text.Parts

/-!
# The layout of code

Lexemes are laid out as a text by writing each of them out and putting blanks and comments
wherever they are wanted.  Only behind a division sign no comment may begin at once, since its
first slash would turn the sign into the beginning of a comment.

The scanner takes the longest lexeme.  A text is cut at the right places because the character
behind a lexeme never extends it: blanks and comments extend nothing else, and the grammar never
puts two lexemes side by side of which the first could run on into the second.
-/

namespace EffectHost
namespace Code

open Text Number

/-! ## Numbers and names -/

/-- A decimal number without sign and exponent: digits, and possibly a point among them or at
one of their ends. -/
structure DecimalLiteral where
  whole : List Char
  /-- What stands behind the point, if there is one. -/
  fraction? : Option (List Char)
  digits : ∀ c ∈ whole ++ fraction?.getD [], isDigit c = true
  someDigit : whole ++ fraction?.getD [] ≠ []

namespace DecimalLiteral

/-- How the number is written. -/
def text (literal : DecimalLiteral) : List Char :=
  match literal.fraction? with
  | none => literal.whole
  | some fraction => literal.whole ++ '.' :: fraction

/-- The double that the number denotes. -/
def value (literal : DecimalLiteral) : Float :=
  Numeral.value ⟨false, literal.whole, literal.fraction?.getD [], 0⟩

variable (literal : DecimalLiteral)

theorem isDigit_whole : ∀ c ∈ literal.whole, isDigit c = true :=
  fun c member => literal.digits c (List.mem_append_left _ member)

theorem isDigit_fraction : ∀ c ∈ literal.fraction?.getD [], isDigit c = true :=
  fun c member => literal.digits c (List.mem_append_right _ member)

theorem scanFraction_text :
    Numeral.scanFraction (literal.text.dropWhile isDigit) = (literal.fraction?.getD [], []) := by
  rw [text]
  cases shape : literal.fraction? with
  | none =>
      rw [List.dropWhile_eq_nil_iff.mpr literal.isDigit_whole]
      rfl
  | some fraction =>
      have digits : ∀ c ∈ fraction, isDigit c = true := by
        have each := literal.isDigit_fraction
        rw [shape] at each
        exact each
      rw [List.dropWhile_append_of_pos literal.isDigit_whole]
      show (fraction.takeWhile isDigit, fraction.dropWhile isDigit) = _
      rw [List.takeWhile_eq_self_iff.mpr digits, List.dropWhile_eq_nil_iff.mpr digits]
      rfl

theorem takeWhile_text : literal.text.takeWhile isDigit = literal.whole := by
  rw [text]
  split
  · exact List.takeWhile_eq_self_iff.mpr literal.isDigit_whole
  · rw [List.takeWhile_append_of_pos literal.isDigit_whole]
    exact List.append_nil _

/-- A number begins with a digit, or with a point and a digit. -/
theorem text_cases : (∃ c rest, literal.text = c :: rest ∧ isDigit c = true) ∨
    ∃ c rest, literal.text = '.' :: c :: rest ∧ isDigit c = true := by
  have digits := literal.digits
  have nonempty := literal.someDigit
  rw [text]
  cases shape : literal.whole with
  | cons c rest =>
      rw [shape] at digits
      refine .inl ⟨c, ?_⟩
      split
      · exact ⟨rest, rfl, digits c List.mem_cons_self⟩
      · exact ⟨_, rfl, digits c List.mem_cons_self⟩
  | nil =>
      rw [shape] at digits nonempty
      cases behind : literal.fraction? with
      | none =>
          rw [behind] at nonempty
          exact absurd rfl nonempty
      | some fraction =>
          rw [behind] at digits nonempty
          rcases List.exists_cons_of_ne_nil nonempty with ⟨c, rest, rfl⟩
          exact .inr ⟨c, rest, rfl, digits c List.mem_cons_self⟩

theorem scanSign_text : Numeral.scanSign literal.text = (false, literal.text) := by
  rcases literal.text_cases with ⟨c, rest, shape, digit⟩ | ⟨c, rest, shape, _⟩
  · rw [shape]
    exact scanSign_signed digit false rest
  · rw [shape]
    rfl

theorem specialValue?_text : specialValue? literal.text = none := by
  rcases literal.text_cases with ⟨c, rest, shape, digit⟩ | ⟨c, rest, shape, _⟩
  · rw [shape]
    exact specialValue?_of_digit digit rest
  · rw [shape]
    exact specialValue?_of_first (by decide) (by decide) _

/-- A number is read as what it denotes. -/
theorem number?_text : number? literal.text = some literal.value := by
  have scanned : Numeral.scan literal.text =
      some (⟨false, literal.whole, literal.fraction?.getD [], 0⟩, []) := by
    rw [Numeral.scan, literal.scanSign_text]
    dsimp only
    rw [literal.takeWhile_text, literal.scanFraction_text, if_neg]
    · rfl
    · have nonempty := literal.someDigit
      rw [ne_eq, List.append_eq_nil_iff] at nonempty
      simpa using nonempty
  rw [number?, literal.scanSign_text]
  dsimp only
  rw [literal.specialValue?_text, scanned]
  rfl

end DecimalLiteral

/-- A name that can be written in code. -/
def isName (name : String) : Bool :=
  match name.toList with
  | first :: rest => isNameStart first && rest.all isNamePart
  | [] => false

/-! ## Laid out lexemes -/

/-- How a lexeme is written. -/
inductive Spells : Lexeme → List Char → Prop where
  | number (literal : DecimalLiteral) : Spells (.number literal.value) literal.text
  | name {name : String} (named : isName name = true) : Spells (.name name) name.toList
  | symbol (symbol : Symbol) : Spells (.symbol symbol) symbol.text.toList

/-- The text consists of the lexemes in order, and of blanks and comments. -/
inductive LaysOut : List Lexeme → List Char → Prop where
  | nothing : LaysOut [] []
  | blank {c : Char} {lexemes : List Lexeme} {rest : List Char} (space : isSpace c = true)
      (behind : LaysOut lexemes rest) : LaysOut lexemes (c :: rest)
  /-- A comment up to the end of the line, which may be the end of the text. -/
  | lineComment {content rest : List Char} {lexemes : List Lexeme} (single : '\n' ∉ content)
      (ends : rest = [] ∨ ∃ more, rest = '\n' :: more) (behind : LaysOut lexemes rest) :
      LaysOut lexemes ('/' :: '/' :: (content ++ rest))
  | blockComment {content rest : List Char} {lexemes : List Lexeme}
      (inside : ¬ ['*', '/'] <:+: content) (behind : LaysOut lexemes rest) :
      LaysOut lexemes ('/' :: '*' :: (content ++ '*' :: '/' :: rest))
  /-- A lexeme.  No comment begins right behind a division sign. -/
  | lexeme {lexeme : Lexeme} {word rest : List Char} {lexemes : List Lexeme}
      (spelled : Spells lexeme word)
      (apart : lexeme = .symbol .over → ∀ more, rest ≠ '/' :: more)
      (behind : LaysOut lexemes rest) : LaysOut (lexeme :: lexemes) (word ++ rest)

/-- The character would make a lexeme in front of it longer, or something else of it. -/
def Lexeme.extendedBy : Lexeme → Char → Bool
  | .number _, c => isNumberPart c
  | .name _, c => isNamePart c
  | .symbol .over, c => c == '/' || c == '*'
  | .symbol .becomes, c | .symbol .below, c | .symbol .above, c => c == '='
  | .symbol _, _ | .text _, _ => false

theorem Spells.ne_nil {lexeme : Lexeme} {word : List Char} (spelled : Spells lexeme word) :
    word ≠ [] := by
  cases spelled with
  | number literal =>
      rcases literal.text_cases with ⟨c, rest, shape, _⟩ | ⟨c, rest, shape, _⟩ <;>
        exact shape ▸ List.cons_ne_nil _ _
  | @name name named =>
      intro empty
      rw [isName, empty] at named
      cases named
  | symbol symbol => cases symbol <;> decide

/-- The second lexeme may follow the first one at once. -/
def MayTouch (first second : Lexeme) : Prop :=
  ∀ c word, Spells second (c :: word) → first.extendedBy c = false

theorem mem_spaces {c : Char} (space : isSpace c = true) :
    c ∈ [' ', '\t', '\n', '\x0C', '\r'] := by
  simpa [isSpace, or_assoc] using space

/-- Blanks extend nothing. -/
theorem extendedBy_space (lexeme : Lexeme) {c : Char} (space : isSpace c = true) :
    lexeme.extendedBy c = false := by
  have each : ∀ c ∈ [' ', '\t', '\n', '\x0C', '\r'], isNumberPart c = false ∧
      isNamePart c = false ∧ (c == '/' || c == '*') = false ∧ (c == '=') = false :=
    List.all_iff_forall_prop.mp (by decide)
  rcases each c (mem_spaces space) with ⟨number, name, slash, equal⟩
  cases lexeme with
  | number => exact number
  | name => exact name
  | text => rfl
  | symbol symbol => cases symbol <;> first | rfl | exact slash | exact equal

/-- A slash extends nothing but a division sign. -/
theorem extendedBy_slash {lexeme : Lexeme} (other : lexeme ≠ .symbol .over) :
    lexeme.extendedBy '/' = false := by
  cases lexeme with
  | number | name | text => rfl
  | symbol symbol => cases symbol <;> first | rfl | exact absurd rfl other

/-- What is laid out behind a lexeme does not extend it. -/
theorem LaysOut.not_extended {lexeme : Lexeme} {lexemes : List Lexeme} {c : Char}
    {rest : List Char} (laid : LaysOut lexemes (c :: rest))
    (touching : ∀ next ∈ lexemes.head?, MayTouch lexeme next)
    (apart : lexeme = .symbol .over → ∀ more, c :: rest ≠ '/' :: more) :
    lexeme.extendedBy c = false := by
  have slash (same : c = '/') : lexeme.extendedBy c = false := by
    rw [same]
    apply extendedBy_slash
    intro divides
    exact apart divides rest (same ▸ rfl)
  generalize shape : c :: rest = text at laid
  cases laid with
  | nothing => cases shape
  | blank space _ =>
      cases shape
      exact extendedBy_space lexeme space
  | lineComment _ _ _ => exact slash (List.cons.inj shape).1
  | blockComment _ _ => exact slash (List.cons.inj shape).1
  | @lexeme next word more _ spelled _ _ =>
      cases word with
      | nil => exact absurd spelled.ne_nil (not_not.mpr rfl)
      | cons first word =>
          cases shape
          exact touching next rfl c word spelled

/-! ## Line feeds -/

theorem lineFeeds_append (front back : List Char) :
    lineFeeds (front ++ back) = lineFeeds front + lineFeeds back :=
  List.count_append

theorem lineFeeds_lineFeed (text : List Char) : lineFeeds ('\n' :: text) = lineFeeds text + 1 :=
  List.count_cons_self

theorem lineFeeds_eq_zero {text : List Char} (single : '\n' ∉ text) : lineFeeds text = 0 :=
  List.count_eq_zero.mpr single

/-! ## The steps of the scanner -/

section Steps

variable (done : List Token) (line : Nat) {rest : List Char}

theorem scanBehind_blank {c : Char} (space : isSpace c = true) :
    Token.scanBehind done line (c :: rest) =
      Token.scanBehind done (line + lineFeeds [c]) rest := by
  rw [Token.scanBehind, if_pos space]
  split
  · next feed =>
      cases beq_iff_eq.mp feed
      rfl
  · next other =>
      have single : '\n' ∉ [c] := by
        rw [List.mem_singleton]
        rintro rfl
        exact other rfl
      rw [lineFeeds_eq_zero single, Nat.add_zero]

theorem dropWhile_lineComment {content : List Char} (single : '\n' ∉ content)
    (ends : rest = [] ∨ ∃ more, rest = '\n' :: more) :
    (content ++ rest).dropWhile (· != '\n') = rest := by
  rw [List.dropWhile_append_of_pos (bne_of_not_mem single)]
  rcases ends with rfl | ⟨more, rfl⟩ <;> rfl

theorem scanBehind_lineComment {content : List Char} (single : '\n' ∉ content)
    (ends : rest = [] ∨ ∃ more, rest = '\n' :: more) :
    Token.scanBehind done line ('/' :: '/' :: (content ++ rest)) =
      Token.scanBehind done line rest := by
  have opens : ('/' == '/' && ('/' :: (content ++ rest)).head? == some '/') = true := rfl
  have slash : ('/' :: (content ++ rest)).dropWhile (· != '\n') =
      (content ++ rest).dropWhile (· != '\n') := rfl
  rw [Token.scanBehind, if_neg (by decide), if_neg (by decide), if_pos opens, slash,
    dropWhile_lineComment single ends]

/-- A comment ends where it is closed first. -/
theorem skipComment?_content {content : List Char} (inside : ¬ ['*', '/'] <:+: content) :
    skipComment? line (content ++ '*' :: '/' :: rest) = some (line + lineFeeds content, rest) := by
  induction content generalizing line with
  | nil => rfl
  | cons c content ih =>
      have shorter : ¬ ['*', '/'] <:+: content :=
        fun found => inside (found.trans (List.suffix_cons c content).isInfix)
      have goesOn : ∀ behind, c = '*' → content ++ '*' :: '/' :: rest = '/' :: behind → False := by
        rintro behind rfl shape
        cases content with
        | nil => cases shape
        | cons second content =>
            cases shape
            exact inside ⟨[], content, rfl⟩
      have counted : (if c == '\n' then line + 1 else line) + lineFeeds content =
          line + lineFeeds (c :: content) := by
        unfold lineFeeds
        rw [List.count_cons]
        split <;> omega
      rw [List.cons_append, skipComment?, ih _ shorter, counted]
      exact goesOn

theorem scanBehind_blockComment {content : List Char} (inside : ¬ ['*', '/'] <:+: content) :
    Token.scanBehind done line ('/' :: '*' :: (content ++ '*' :: '/' :: rest)) =
      Token.scanBehind done (line + lineFeeds content) rest := by
  have skipped := @skipComment?_content line rest content inside
  have other : ¬ ('/' == '/' && ('*' :: (content ++ '*' :: '/' :: rest)).head? == some '/') = true :=
    Bool.false_ne_true
  have opens : ('/' == '/' && ('*' :: (content ++ '*' :: '/' :: rest)).head? == some '*') = true :=
    rfl
  rw [Token.scanBehind, if_neg (by decide), if_neg (by decide), if_neg other, if_pos opens]
  split
  · next found =>
      rw [List.drop_one, List.tail_cons, skipped] at found
      cases found
      rfl
  · next missing =>
      rw [List.drop_one, List.tail_cons, skipped] at missing
      cases missing

theorem takeWhile_append_of_ends {keep : Char → Bool} {word : List Char}
    (all : ∀ c ∈ word, keep c = true) (ends : ∀ c ∈ rest.head?, keep c = false) :
    (word ++ rest).takeWhile keep = word ∧ (word ++ rest).dropWhile keep = rest := by
  rw [List.takeWhile_append_of_pos all, List.dropWhile_append_of_pos all]
  cases rest with
  | nil => exact ⟨List.append_nil _, rfl⟩
  | cons c rest =>
      have stops : ¬ keep c = true := by
        rw [ends c rfl]
        exact Bool.false_ne_true
      rw [List.takeWhile_cons_of_neg stops, List.dropWhile_cons_of_neg stops, List.append_nil]
      exact ⟨rfl, rfl⟩

/-- A character that is neither blank nor a slash begins a lexeme. -/
structure Solid (c : Char) : Prop where
  unspaced : isSpace c = false
  ne_slash : c ≠ '/'

theorem Solid.ne_lineFeed {c : Char} (solid : Solid c) : ¬ (c == '\n') = true := by
  rw [beq_iff_eq]
  rintro rfl
  cases solid.unspaced

theorem Solid.not_space {c : Char} (solid : Solid c) : ¬ isSpace c = true := by
  rw [solid.unspaced]
  exact Bool.false_ne_true

theorem Solid.not_comment {c : Char} (solid : Solid c) (second : Char) :
    ¬ (c == '/' && rest.head? == some second) = true := by
  rw [Bool.and_eq_true, beq_iff_eq]
  exact fun both => solid.ne_slash both.1

theorem solid_of_isDigit {c : Char} (digit : isDigit c = true) : Solid c := by
  have each : ∀ c ∈ "0123456789".toList, isSpace c = false ∧ c ≠ '/' :=
    List.all_iff_forall_prop.mp (by decide)
  rcases each c (mem_digits_of_isDigit digit) with ⟨unspaced, ne_slash⟩
  exact ⟨unspaced, ne_slash⟩

theorem solid_of_isNameStart {c : Char} (start : isNameStart c = true) : Solid c where
  unspaced := by
    have each : ∀ c ∈ [' ', '\t', '\n', '\x0C', '\r'], isNameStart c = false :=
      List.all_iff_forall_prop.mp (by decide)
    rw [Bool.eq_false_iff]
    intro space
    rw [each c (mem_spaces space)] at start
    cases start
  ne_slash := by
    rintro rfl
    cases start

/-- What begins with a digit is a number. -/
theorem startsNumber_of_isDigit {c : Char} (digit : isDigit c = true) (text : List Char) :
    startsNumber (c :: text) = true := by
  unfold startsNumber
  split
  · next same =>
      cases same
      cases digit
  · next same =>
      cases same
      exact digit
  · next same => cases same

/-- A number begins with a digit or a point. -/
theorem not_startsNumber {c : Char} (digit : isDigit c = false) (point : c ≠ '.')
    (text : List Char) : ¬ startsNumber (c :: text) = true := by
  unfold startsNumber
  split
  · next same => exact absurd (List.cons.inj same).1 point
  · next same =>
      cases same
      rw [digit]
      exact Bool.false_ne_true
  · next same => cases same

theorem isNumberPart_of_isDigit {c : Char} (digit : isDigit c = true) : isNumberPart c = true := by
  rw [isNumberPart, digit]
  rfl

theorem isNumberPart_text (literal : DecimalLiteral) :
    ∀ c ∈ literal.text, isNumberPart c = true := by
  have whole := literal.isDigit_whole
  have fraction := literal.isDigit_fraction
  intro c member
  rw [DecimalLiteral.text] at member
  split at member
  · exact isNumberPart_of_isDigit (whole c member)
  · next behind shape =>
      rw [shape] at fraction
      rcases List.mem_append.mp member with front | back
      · exact isNumberPart_of_isDigit (whole c front)
      · rcases List.mem_cons.mp back with rfl | back
        · rfl
        · exact isNumberPart_of_isDigit (fraction c back)

theorem solid_of_startsNumber {c : Char} {text : List Char}
    (starts : startsNumber (c :: text) = true) : Solid c := by
  unfold startsNumber at starts
  split at starts
  · next same =>
      cases same
      exact ⟨by decide, by decide⟩
  · next same =>
      cases same
      exact solid_of_isDigit starts
  · cases starts

/-- Where a number begins, all digits and points are read, and they are one or not. -/
theorem scanBehind_digits {c : Char} {digits : List Char}
    (starts : startsNumber (c :: (digits ++ rest)) = true)
    (parts : ∀ c ∈ digits, isNumberPart c = true)
    (ends : ∀ c ∈ rest.head?, isNumberPart c = false) :
    Token.scanBehind done line (c :: (digits ++ rest)) = (number? (c :: digits)).elim
      (.error ⟨line, .badNumber (String.ofList (c :: digits))⟩)
      fun value => Token.scanBehind (⟨.number value, line⟩ :: done) line rest := by
  have solid := solid_of_startsNumber starts
  rcases takeWhile_append_of_ends parts ends with ⟨taken, left⟩
  rw [Token.scanBehind, if_neg solid.ne_lineFeed, if_neg solid.not_space,
    if_neg (solid.not_comment '/'), if_neg (solid.not_comment '*'), if_pos starts, taken, left]
  dsimp only
  cases number? (c :: digits) <;> rfl

theorem scanBehind_number (literal : DecimalLiteral)
    (ends : ∀ c ∈ rest.head?, isNumberPart c = false) :
    Token.scanBehind done line (literal.text ++ rest) =
      Token.scanBehind (⟨.number literal.value, line⟩ :: done) line rest := by
  have parts := isNumberPart_text literal
  have read := literal.number?_text
  have opens : ∃ c behind, literal.text = c :: behind ∧
      startsNumber (c :: (behind ++ rest)) = true := by
    rcases literal.text_cases with ⟨c, behind, shape, digit⟩ | ⟨c, behind, shape, digit⟩
    · exact ⟨c, behind, shape, startsNumber_of_isDigit digit _⟩
    · exact ⟨'.', c :: behind, shape, digit⟩
  rcases opens with ⟨c, behind, shape, starts⟩
  rw [shape, List.forall_mem_cons] at parts
  rw [shape] at read
  rw [shape, List.cons_append, scanBehind_digits done line starts parts.2 ends, read]
  rfl

theorem scanBehind_name {name : String} (named : isName name = true)
    (ends : ∀ c ∈ rest.head?, isNamePart c = false) :
    Token.scanBehind done line (name.toList ++ rest) =
      Token.scanBehind (⟨.name name, line⟩ :: done) line rest := by
  rw [isName] at named
  split at named
  · next first word shape =>
      rw [Bool.and_eq_true, List.all_eq_true] at named
      rcases named with ⟨start, parts⟩
      have solid := solid_of_isNameStart start
      have digit : isDigit first = false := by
        have each : ∀ c ∈ "0123456789".toList, isNameStart c = false :=
          List.all_iff_forall_prop.mp (by decide)
        rw [Bool.eq_false_iff]
        intro digit
        rw [each first (mem_digits_of_isDigit digit)] at start
        cases start
      have point : first ≠ '.' := by
        rintro rfl
        cases start
      have whole : String.ofList (first :: word) = name := by
        rw [← shape, String.ofList_toList]
      rcases takeWhile_append_of_ends parts ends with ⟨taken, left⟩
      rw [shape, List.cons_append, Token.scanBehind, if_neg solid.ne_lineFeed,
        if_neg solid.not_space, if_neg (solid.not_comment '/'), if_neg (solid.not_comment '*'),
        if_neg (not_startsNumber digit point _), if_pos start, taken, left]
      dsimp only
      rw [whole]
  · cases named

/-- Three symbols are the beginnings of longer ones, which all go on with an equals sign. -/
theorem scan?_cons_cons {c : Char} (other : c ≠ '=') (rest : List Char) :
    Symbol.scan? ('=' :: c :: rest) = some (.becomes, c :: rest) ∧
      Symbol.scan? ('<' :: c :: rest) = some (.below, c :: rest) ∧
      Symbol.scan? ('>' :: c :: rest) = some (.above, c :: rest) := by
  have shorter (more : List Char) (same : c :: rest = '=' :: more) : False :=
    other (List.cons.inj same).1
  refine ⟨?_, ?_, ?_⟩ <;> rw [Symbol.scan?] <;> exact shorter

/-- The longest symbol is found, as nothing behind it makes it longer. -/
theorem scan?_text (symbol : Symbol)
    (ends : ∀ c ∈ rest.head?, (Lexeme.symbol symbol).extendedBy c = false) :
    Symbol.scan? (symbol.text.toList ++ rest) = some (symbol, rest) := by
  have other {c : Char} {more : List Char} (ends : (c == '=') = false) :=
    scan?_cons_cons (beq_eq_false_iff_ne.mp ends) more
  cases symbol with
  | becomes =>
      cases rest with
      | nil => rfl
      | cons c rest => exact (other (ends c rfl)).1
  | below =>
      cases rest with
      | nil => rfl
      | cons c rest => exact (other (ends c rfl)).2.1
  | above =>
      cases rest with
      | nil => rfl
      | cons c rest => exact (other (ends c rfl)).2.2
  | _ => rfl

/-- What the scanner finds out about the first character of a symbol. -/
theorem exists_text_cons (symbol : Symbol) :
    ∃ c word, symbol.text.toList = c :: word ∧ isSpace c = false ∧ isDigit c = false ∧ c ≠ '.' ∧
      isNameStart c = false ∧ c ≠ '"' ∧ (c = '/' → symbol = .over ∧ word = []) := by
  cases symbol <;>
    exact ⟨_, _, rfl, by decide, by decide, by decide, by decide, by decide, by decide⟩

theorem scanBehind_symbol (symbol : Symbol)
    (ends : ∀ c ∈ rest.head?, (Lexeme.symbol symbol).extendedBy c = false) :
    Token.scanBehind done line (symbol.text.toList ++ rest) =
      Token.scanBehind (⟨.symbol symbol, line⟩ :: done) line rest := by
  have found := scan?_text symbol ends
  rcases exists_text_cons symbol with ⟨c, word, shape, unspaced, digit, point, start, quote, slash⟩
  have not_comment (second : Char) (extends' : (Lexeme.symbol .over).extendedBy second = true) :
      ¬ (c == '/' && (word ++ rest).head? == some second) = true := by
    rw [Bool.and_eq_true, beq_iff_eq, beq_iff_eq]
    rintro ⟨opens, behind⟩
    rcases slash opens with ⟨rfl, rfl⟩
    rw [ends second behind] at extends'
    cases extends'
  have ne_lineFeed : ¬ (c == '\n') = true := by
    rw [beq_iff_eq]
    rintro rfl
    cases unspaced
  rw [shape, List.cons_append] at found ⊢
  rw [Token.scanBehind, if_neg ne_lineFeed, if_neg (by rw [unspaced]; exact Bool.false_ne_true),
    if_neg (not_comment '/' rfl), if_neg (not_comment '*' rfl),
    if_neg (not_startsNumber digit point _), if_neg (by rw [start]; exact Bool.false_ne_true),
    if_neg (by rw [beq_iff_eq]; exact quote)]
  split
  · next taken =>
      rw [found] at taken
      cases taken
      rfl
  · next missing =>
      rw [found] at missing
      cases missing

theorem scanBehind_lexeme {lexeme : Lexeme} {word : List Char} (spelled : Spells lexeme word)
    (ends : ∀ c ∈ rest.head?, lexeme.extendedBy c = false) :
    Token.scanBehind done line (word ++ rest) =
      Token.scanBehind (⟨lexeme, line⟩ :: done) line rest := by
  cases spelled with
  | number literal => exact scanBehind_number done line literal ends
  | name named => exact scanBehind_name done line named ends
  | symbol symbol => exact scanBehind_symbol done line symbol ends

end Steps

/-! ## Scanning what was laid out -/

/-- Lexemes of which no two run together are found in every text that they are laid out as. -/
theorem LaysOut.scanBehind_eq {lexemes : List Lexeme} {text : List Char}
    (laid : LaysOut lexemes text) (apart : lexemes.IsChain MayTouch) (done : List Token)
    (line : Nat) : ∃ tokens, Token.scanBehind done line text = .ok (done.reverse ++ tokens) ∧
      tokens.map Token.lexeme = lexemes := by
  induction laid generalizing done line with
  | nothing =>
      refine ⟨[], ?_, rfl⟩
      rw [Token.scanBehind, List.append_nil]
  | blank space _ ih =>
      rw [scanBehind_blank done line space]
      exact ih apart done _
  | lineComment single ends _ ih =>
      rw [scanBehind_lineComment done line single ends]
      exact ih apart done line
  | blockComment inside _ ih =>
      rw [scanBehind_blockComment done line inside]
      exact ih apart done _
  | @lexeme lexeme word rest others spelled noComment behind ih =>
      rcases List.isChain_cons.mp apart with ⟨touching, apartBehind⟩
      have ends : ∀ c ∈ rest.head?, lexeme.extendedBy c = false := by
        cases rest with
        | nil =>
            intro _ impossible
            cases impossible
        | cons c rest =>
            intro other same
            rw [← Option.some.inj same]
            exact behind.not_extended touching noComment
      rcases ih apartBehind (⟨lexeme, line⟩ :: done) line with ⟨tokens, scanned, lexed⟩
      refine ⟨⟨lexeme, line⟩ :: tokens, ?_, congrArg (lexeme :: ·) lexed⟩
      rw [scanBehind_lexeme done line spelled ends, scanned, List.reverse_cons, List.append_assoc]
      rfl

/-! ## Written expressions do not run together -/

/-- A lexeme with which an expression may end. -/
def Lexeme.closes : Lexeme → Prop
  | .number _ | .name _ | .symbol .closeParen | .symbol .closeBracket => True
  | _ => False

/-- Only three characters make another symbol of a symbol, or a comment. -/
theorem mem_of_extendedBy {symbol : Symbol} {c : Char}
    (extends' : (Lexeme.symbol symbol).extendedBy c = true) : c ∈ ['=', '/', '*'] := by
  cases symbol <;> simp_all [Lexeme.extendedBy]

/-- Expressions may begin right behind a symbol. -/
theorem mayTouch_of_begins (symbol : Symbol) {next : Lexeme} (begins : next.begins) :
    MayTouch (.symbol symbol) next := by
  intro c word spelled
  rw [Bool.eq_false_iff]
  intro longer
  have char := mem_of_extendedBy longer
  generalize shape : c :: word = text at spelled
  cases spelled with
  | number literal =>
      have figures : ∀ c ∈ ['=', '/', '*'], isNumberPart c = false :=
        List.all_iff_forall_prop.mp (by decide)
      have part := isNumberPart_text literal c (shape ▸ List.mem_cons_self)
      rw [figures c char] at part
      cases part
  | @name name named =>
      have letters : ∀ c ∈ ['=', '/', '*'], isNameStart c = false :=
        List.all_iff_forall_prop.mp (by decide)
      rw [isName, ← shape] at named
      dsimp only at named
      rw [letters c char] at named
      cases named
  | symbol other =>
      cases other with
      | minus | openParen =>
          rw [(List.cons.inj shape).1] at char
          revert char
          decide
      | _ => exact begins

/-- Symbols may stand right behind an expression. -/
theorem mayTouch_of_closes {last : Lexeme} (closes : last.closes) (symbol : Symbol) :
    MayTouch last (.symbol symbol) := by
  intro c word spelled
  generalize shape : c :: word = text at spelled
  cases spelled with
  | symbol symbol =>
      rcases exists_text_cons symbol with ⟨first, rest, text, _, digit, point, start, _, _⟩
      have same : c = first := (List.cons.inj (shape.trans text)).1
      rw [← same] at digit point start
      cases last with
      | number =>
          show isNumberPart c = false
          rw [isNumberPart, digit, Bool.false_or, beq_eq_false_iff_ne]
          exact point
      | name =>
          show isNamePart c = false
          rw [isNameStart] at start
          simp_all [isNamePart]
      | text => rfl
      | symbol symbol =>
          cases symbol with
          | closeParen | closeBracket => rfl
          | _ => exact closes.elim

/-- Lexemes that can be written without anything between them, and that begin and end like an
expression. -/
structure Phrase (lexemes : List Lexeme) : Prop where
  apart : lexemes.IsChain MayTouch
  begins : ∃ first ∈ lexemes.head?, first.begins
  closes : ∃ last ∈ lexemes.getLast?, last.closes

namespace Phrase

variable {front back : List Lexeme}

/-- A symbol may stand in front. -/
theorem isChain_cons (phrase : Phrase back) (symbol : Symbol) :
    (.symbol symbol :: back).IsChain MayTouch := by
  rcases phrase.begins with ⟨first, isFirst, begins⟩
  refine List.isChain_cons.mpr ⟨?_, phrase.apart⟩
  intro next isNext
  rw [Option.mem_unique isNext isFirst]
  exact mayTouch_of_begins symbol begins

/-- What begins with a symbol may stand behind. -/
theorem isChain_append (phrase : Phrase front) {symbol : Symbol}
    (behind : (.symbol symbol :: back).IsChain MayTouch) :
    (front ++ .symbol symbol :: back).IsChain MayTouch := by
  rcases phrase.closes with ⟨last, isLast, closes⟩
  refine List.isChain_append.mpr ⟨phrase.apart, behind, ?_⟩
  intro other isFront next isNext
  rw [Option.mem_unique isFront isLast, ← Option.some.inj isNext]
  exact mayTouch_of_closes closes symbol

theorem begins_append (phrase : Phrase front) :
    ∃ first ∈ (front ++ back).head?, first.begins := by
  rcases phrase.begins with ⟨first, isFirst, begins⟩
  exact ⟨first, List.mem_head?_append_of_mem_head? isFirst, begins⟩

theorem closes_append {lexeme : Lexeme} (phrase : Phrase back) :
    ∃ last ∈ (front ++ lexeme :: back).getLast?, last.closes := by
  rcases phrase.closes with ⟨last, isLast, closes⟩
  refine ⟨last, ?_, closes⟩
  have more : back ≠ [] := by
    rintro rfl
    cases isLast
  rcases List.exists_cons_of_ne_nil more with ⟨first, rest, rfl⟩
  rw [List.getLast?_append_of_ne_nil _ (List.cons_ne_nil _ _), List.getLast?_cons_cons]
  exact isLast

/-- One lexeme that is an expression. -/
theorem single {lexeme : Lexeme} (begins : lexeme.begins) (closes : lexeme.closes) :
    Phrase [lexeme] :=
  ⟨.singleton lexeme, ⟨lexeme, rfl, begins⟩, lexeme, rfl, closes⟩

/-- A symbol between two phrases. -/
theorem joined (before : Phrase front) (symbol : Symbol) (behind : Phrase back) :
    Phrase (front ++ .symbol symbol :: back) :=
  ⟨before.isChain_append (behind.isChain_cons symbol), before.begins_append,
    behind.closes_append⟩

/-- A closing symbol behind a phrase. -/
theorem closed (phrase : Phrase front) (closing : Symbol)
    (closes : (Lexeme.symbol closing).closes) :
    Phrase (front ++ [.symbol closing]) :=
  ⟨phrase.isChain_append (.singleton _), phrase.begins_append,
    .symbol closing, List.getLast?_concat, closes⟩

/-- An opening symbol in front of a phrase. -/
theorem opened (phrase : Phrase back) (opening : Symbol)
    (begins : (Lexeme.symbol opening).begins) :
    Phrase (.symbol opening :: back) :=
  ⟨phrase.isChain_cons opening, ⟨_, rfl, begins⟩, @closes_append [] back _ phrase⟩

end Phrase

mutual

/-- Nothing that is written runs together. -/
theorem Writes.phrase : ∀ {tightness : Tightness} {whole : SourceExpr} {lexemes : List Lexeme},
    Writes tightness whole lexemes → Phrase lexemes
  | _, _, _, .number _ => .single trivial trivial
  | _, _, _, .variable _ => .single trivial trivial
  | _, _, _, .callNothing function => by
      have named : Phrase [.name function] := .single trivial trivial
      have parens : [Lexeme.symbol .openParen, .symbol .closeParen].IsChain MayTouch :=
        List.isChain_pair.mpr fun _ _ _ => rfl
      exact ⟨named.isChain_append parens, ⟨_, rfl, trivial⟩, _, rfl, trivial⟩
  | _, _, _, .call function listed => by
      have named : Phrase [.name function] := .single trivial trivial
      exact named.joined .openParen listed.phrase
  | _, _, _, .item written indexed =>
      written.phrase.joined .openBracket (indexed.phrase.closed .closeBracket trivial)
  | _, _, _, .parens written => (written.phrase.closed .closeParen trivial).opened .openParen trivial
  | _, _, _, .negate written => written.phrase.opened .minus trivial
  | _, _, _, .binary _ before behind => before.phrase.joined _ behind.phrase
  | _, _, _, .assign _ before behind => before.phrase.joined .becomes behind.phrase
  | _, _, _, .bare written | _, _, _, .single written | _, _, _, .value written => written.phrase

theorem WritesArguments.phrase : ∀ {arguments : List SourceExpr} {lexemes : List Lexeme},
    WritesArguments arguments lexemes → Phrase lexemes
  | _, _, .last written => written.phrase.closed .closeParen trivial
  | _, _, .more written behind => written.phrase.joined .comma behind.phrase

end

/-- Nothing in a program runs together. -/
theorem WritesProgram.apart {statements : List SourceExpr} {lexemes : List Lexeme}
    (written : WritesProgram statements lexemes) : lexemes.IsChain MayTouch := by
  have free (rest : List Lexeme) (behind : rest.IsChain MayTouch) :
      (.symbol .semicolon :: rest).IsChain MayTouch :=
    List.isChain_cons.mpr ⟨fun _ _ _ _ _ => rfl, behind⟩
  induction written with
  | nothing => exact .nil
  | skip _ ih => exact free _ ih
  | last written => exact written.phrase.apart
  | more written _ ih => exact written.phrase.isChain_append (free _ ih)

/-- The text is a way to write the program. -/
def Printed (statements : List SourceExpr) (text : String) : Prop :=
  ∃ lexemes, WritesProgram statements lexemes ∧ LaysOut lexemes text.toList

/-- A program is read from every text in which it is written. -/
theorem Printed.read {statements : List SourceExpr} {text : String}
    (printed : Printed statements text) :
    ∃ tokens, Token.scan text = .ok tokens ∧ program tokens = .ok statements := by
  rcases printed with ⟨lexemes, written, laid⟩
  rcases laid.scanBehind_eq written.apart [] 0 with ⟨tokens, scanned, lexed⟩
  exact ⟨tokens, scanned, written.reads lexed []⟩

end Code
end EffectHost

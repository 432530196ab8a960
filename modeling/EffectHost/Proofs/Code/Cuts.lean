import EffectHost.Proofs.Code.Layout

/-!
# How code is cut

The scanner cuts a text into tokens, with blanks and comments between them, and stops in front of
what cannot be read.  Each token is the longest one that begins at its place.  The number of a line
is that of the line feeds in front of it, wherever these stand.
-/

namespace EffectHost
namespace Code

open Text Number

/-! ## Pieces -/

/-- A blank or a comment with something behind it. -/
inductive Gap : List Char → List Char → Prop where
  | blank {c : Char} {behind : List Char} (space : isSpace c = true) : Gap [c] behind
  /-- A comment up to the end of the line, which may be the end of the text. -/
  | lineComment {content behind : List Char} (single : '\n' ∉ content)
      (ends : behind = [] ∨ ∃ more, behind = '\n' :: more) :
      Gap ('/' :: '/' :: content) behind
  | blockComment {content behind : List Char} (inside : ¬ ['*', '/'] <:+: content) :
      Gap ('/' :: '*' :: (content ++ ['*', '/'])) behind

/-- All characters of a word are of a kind, and that behind it is not. -/
structure Longest (kind : Char → Bool) (word behind : List Char) : Prop where
  all : ∀ c ∈ word, kind c = true
  ends : ∀ c ∈ behind.head?, kind c = false

/-- A lexeme, written as long as possible, with something behind it. -/
inductive Heads : Lexeme → List Char → List Char → Prop where
  | number {digits behind : List Char} {value : Float}
      (starts : startsNumber (digits ++ behind) = true)
      (longest : Longest isNumberPart digits behind) (read : number? digits = some value) :
      Heads (.number value) digits behind
  | name {first : Char} {others behind : List Char} (starts : isNameStart first = true)
      (longest : Longest isNamePart others behind) :
      Heads (.name (String.ofList (first :: others))) (first :: others) behind
  | text {content behind : List Char} (closed : '"' ∉ content) :
      Heads (.text (String.ofList content)) ('"' :: (content ++ ['"'])) behind
  /-- A symbol that is no beginning of a longer one, nor of a comment. -/
  | symbol {symbol : Symbol} {behind : List Char}
      (longest : ∀ other : Symbol, other.text.toList <+: symbol.text.toList ++ behind →
        other.text.length ≤ symbol.text.length)
      (comment : symbol = .over → ∀ c ∈ behind.head?, c ≠ '/' ∧ c ≠ '*') :
      Heads (.symbol symbol) symbol.text.toList behind

/-- A text begins with something that cannot be read. -/
inductive Unreadable : Cause → List Char → Prop where
  | comment {content : List Char} (unclosed : ¬ ['*', '/'] <:+: content) :
      Unreadable .unterminatedComment ('/' :: '*' :: content)
  | text {content : List Char} (unclosed : '"' ∉ content) :
      Unreadable .unterminatedText ('"' :: content)
  | number {digits behind : List Char} (starts : startsNumber (digits ++ behind) = true)
      (longest : Longest isNumberPart digits behind) (bad : number? digits = none) :
      Unreadable (.badNumber (String.ofList digits)) (digits ++ behind)
  /-- A character with which nothing begins. -/
  | character {c : Char} {behind : List Char} (noSpace : isSpace c = false)
      (noNumber : startsNumber (c :: behind) = false) (noName : isNameStart c = false)
      (noText : c ≠ '"') (noSymbol : ∀ symbol : Symbol, ¬ symbol.text.toList <+: c :: behind) :
      Unreadable (.badCharacter c) (c :: behind)

/-- A text that begins on a line is cut into tokens up to a place on another line. -/
inductive Cut : ℕ → List Char → List Token → ℕ → List Char → Prop where
  | stop (line : ℕ) (rest : List Char) : Cut line rest [] line rest
  | gap {line last : ℕ} {piece text rest : List Char} {tokens : List Token}
      (gap : Gap piece text) (behind : Cut (line + lineFeeds piece) text tokens last rest) :
      Cut line (piece ++ text) tokens last rest
  | lexeme {line last : ℕ} {lexeme : Lexeme} {word text rest : List Char} {tokens : List Token}
      (heads : Heads lexeme word text)
      (behind : Cut (line + lineFeeds word) text tokens last rest) :
      Cut line (word ++ text) (⟨lexeme, line⟩ :: tokens) last rest

namespace Cut

variable {line last : ℕ} {text rest : List Char} {tokens : List Token}

/-- The lines are counted by the line feeds. -/
theorem exists_front (cut : Cut line text tokens last rest) :
    ∃ front, text = front ++ rest ∧ last = line + lineFeeds front := by
  induction cut with
  | stop line rest => exact ⟨[], rfl, rfl⟩
  | @gap line last piece text rest tokens gap behind ih =>
      rcases ih with ⟨front, rfl, rfl⟩
      refine ⟨piece ++ front, (List.append_assoc _ _ _).symm, ?_⟩
      rw [lineFeeds_append, Nat.add_assoc]
  | @lexeme line last lexeme word text rest tokens heads behind ih =>
      rcases ih with ⟨front, rfl, rfl⟩
      refine ⟨word ++ front, (List.append_assoc _ _ _).symm, ?_⟩
      rw [lineFeeds_append, Nat.add_assoc]

/-- Each token stands at a place up to which the text is cut into the tokens before it. -/
theorem exists_token {before after : List Token} {token : Token}
    (cut : Cut line text (before ++ token :: after) last rest) :
    ∃ word behind, Cut line text before token.line (word ++ behind) ∧
      Heads token.lexeme word behind := by
  generalize whole : before ++ token :: after = tokens at cut
  induction cut generalizing before with
  | stop line rest => simp at whole
  | gap gap _ ih =>
      rcases ih whole with ⟨word, behind, cut, heads⟩
      exact ⟨word, behind, .gap gap cut, heads⟩
  | @lexeme line last lexeme word text rest tokens heads _ ih =>
      cases before with
      | nil =>
          cases whole
          exact ⟨word, text, .stop _ _, heads⟩
      | cons first before =>
          rcases List.cons.inj whole with ⟨rfl, others⟩
          rcases ih others with ⟨word, behind, cut, heads'⟩
          exact ⟨word, behind, .lexeme heads cut, heads'⟩

end Cut

/-! ## Parts of the scanner -/

/-- A comment ends where it is closed first. -/
theorem skipComment?_eq_some {line last : ℕ} {text rest : List Char}
    (skipped : skipComment? line text = some (last, rest)) :
    ∃ content, text = content ++ '*' :: '/' :: rest ∧ ¬ ['*', '/'] <:+: content ∧
      last = line + lineFeeds content := by
  fun_induction skipComment? line text with
  | case1 line rest' =>
      cases skipped
      exact ⟨[], rfl, by simp, rfl⟩
  | case2 line c others notClosed ih =>
      rcases ih skipped with ⟨content, rfl, inside, rfl⟩
      refine ⟨c :: content, rfl, ?_, ?_⟩
      · intro closes
        rcases List.infix_cons_iff.mp closes with front | later
        · rcases List.cons_prefix_cons.mp front with ⟨rfl, slash⟩
          cases content with
          | nil => simp at slash
          | cons second content =>
              rcases List.cons_prefix_cons.mp slash with ⟨rfl, _⟩
              exact notClosed _ rfl rfl
        · exact inside later
      · unfold lineFeeds
        rw [List.count_cons]
        split <;> omega
  | case3 => cases skipped

theorem skipComment?_eq_none {line : ℕ} {text : List Char}
    (skipped : skipComment? line text = none) : ¬ ['*', '/'] <:+: text := by
  fun_induction skipComment? line text with
  | case1 => cases skipped
  | case2 line c others notClosed ih =>
      intro closes
      rcases List.infix_cons_iff.mp closes with front | later
      · rcases List.cons_prefix_cons.mp front with ⟨rfl, slash⟩
        rcases slash with ⟨behind, rfl⟩
        exact notClosed behind rfl rfl
      · exact ih skipped later
  | case3 => simp

theorem longest_takeWhile (kind : Char → Bool) (text : List Char) :
    Longest kind (text.takeWhile kind) (text.dropWhile kind) where
  all := fun _ member => List.mem_takeWhile_imp member
  ends := by
    intro c first
    rw [Option.mem_def] at first
    have last := List.head?_dropWhile_not kind text
    rw [first] at last
    simpa using last

namespace Symbol

theorem length_pos (symbol : Symbol) : 1 ≤ symbol.text.length := by
  cases symbol <;> decide

/-- The scanner takes a symbol off the text, and the longest one. -/
theorem scan?_eq_some {text behind : List Char} {symbol : Symbol}
    (found : scan? text = some (symbol, behind)) :
    text = symbol.text.toList ++ behind ∧ ∀ other : Symbol,
      other.text.toList <+: text → other.text.length ≤ symbol.text.length := by
  constructor
  · unfold scan? at found
    split at found <;> cases found <;> rfl
  · rintro other ⟨rest, rfl⟩
    cases other with
    | equal | unequal | atMost | atLeast =>
        cases found
        exact Nat.le_refl _
    | _ => exact symbol.length_pos

/-- Where a symbol begins the scanner takes one. -/
theorem isSome_scan? (symbol : Symbol) (rest : List Char) :
    (scan? (symbol.text.toList ++ rest)).isSome = true := by
  cases rest with
  | nil => cases symbol <;> rfl
  | cons c rest =>
      by_cases equals : c = '='
      · subst equals
        cases symbol <;> rfl
      · rcases scan?_cons_cons equals rest with ⟨becomes, below, above⟩
        cases symbol with
        | becomes => exact Option.isSome_of_eq_some becomes
        | below => exact Option.isSome_of_eq_some below
        | above => exact Option.isSome_of_eq_some above
        | _ => rfl

theorem scan?_eq_none {text : List Char} (found : scan? text = none) (symbol : Symbol) :
    ¬ symbol.text.toList <+: text := by
  rintro ⟨rest, rfl⟩
  have some := symbol.isSome_scan? rest
  rw [found] at some
  cases some

end Symbol

/-! ## The scanner -/

/-- What the scanner reports of a text that begins on a line. -/
def ReportsCut (done : List Token) (line : ℕ) (text : List Char) :
    Except Fault (List Token) → Prop
  | .ok tokens => ∃ cut last, Cut line text cut last [] ∧ tokens = done.reverse ++ cut
  | .error fault => ∃ cut rest, Cut line text cut fault.line rest ∧ Unreadable fault.cause rest

section Steps

variable {done : List Token} {line : ℕ} {text : List Char} {result : Except Fault (List Token)}

theorem ReportsCut.gap {piece : List Char} (gap : Gap piece text)
    (behind : ReportsCut done (line + lineFeeds piece) text result) :
    ReportsCut done line (piece ++ text) result := by
  cases result with
  | ok tokens =>
      rcases behind with ⟨cut, last, reaches, rfl⟩
      exact ⟨cut, last, .gap gap reaches, rfl⟩
  | error fault =>
      rcases behind with ⟨cut, rest, reaches, unreadable⟩
      exact ⟨cut, rest, .gap gap reaches, unreadable⟩

theorem ReportsCut.lexeme {lexeme : Lexeme} {word : List Char} (heads : Heads lexeme word text)
    (behind : ReportsCut (⟨lexeme, line⟩ :: done) (line + lineFeeds word) text result) :
    ReportsCut done line (word ++ text) result := by
  cases result with
  | ok tokens =>
      rcases behind with ⟨cut, last, reaches, rfl⟩
      refine ⟨⟨lexeme, line⟩ :: cut, last, .lexeme heads reaches, ?_⟩
      rw [List.reverse_cons, List.append_assoc, List.singleton_append]
  | error fault =>
      rcases behind with ⟨cut, rest, reaches, unreadable⟩
      exact ⟨⟨lexeme, line⟩ :: cut, rest, .lexeme heads reaches, unreadable⟩

end Steps

theorem Longest.lineFeeds_eq_zero {kind : Char → Bool} {word behind : List Char}
    (longest : Longest kind word behind) (other : kind '\n' = false) : lineFeeds word = 0 := by
  apply Code.lineFeeds_eq_zero
  intro feed
  rw [longest.all '\n' feed] at other
  cases other

theorem lineFeeds_blockComment (content : List Char) :
    lineFeeds ('/' :: '*' :: (content ++ ['*', '/'])) = lineFeeds content := by
  simp [lineFeeds]

theorem lineFeeds_quoted (content : List Char) :
    lineFeeds ('"' :: (content ++ ['"'])) = lineFeeds content := by
  simp [lineFeeds]

theorem lineFeeds_name {first : Char} {others : List Char} (starts : isNameStart first = true)
    (parts : ∀ c ∈ others, isNamePart c = true) : lineFeeds (first :: others) = 0 := by
  apply lineFeeds_eq_zero
  intro feed
  rcases List.mem_cons.mp feed with rfl | later
  · cases starts
  · cases parts '\n' later

theorem lineFeeds_symbol (symbol : Symbol) : lineFeeds symbol.text.toList = 0 := by
  cases symbol <;> rfl

theorem longest_cons_takeWhile {kind : Char → Bool} {c : Char} (first : kind c = true)
    (rest : List Char) : Longest kind (c :: rest.takeWhile kind) (rest.dropWhile kind) where
  all := List.forall_mem_cons.mpr ⟨first, (longest_takeWhile kind rest).all⟩
  ends := (longest_takeWhile kind rest).ends

theorem cons_takeWhile_append (kind : Char → Bool) (c : Char) (rest : List Char) :
    (c :: rest.takeWhile kind) ++ rest.dropWhile kind = c :: rest :=
  congrArg (c :: ·) List.takeWhile_append_dropWhile

theorem isNumberPart_of_startsNumber {c : Char} {rest : List Char}
    (starts : startsNumber (c :: rest) = true) : isNumberPart c = true := by
  unfold startsNumber at starts
  split at starts
  · next same =>
      cases same
      rfl
  · next same =>
      cases same
      exact isNumberPart_of_isDigit starts
  · cases starts

/-- The rest of a line is a comment, if it begins as one. -/
theorem gap_lineComment (text : List Char) :
    Gap ('/' :: '/' :: text.takeWhile (· != '\n')) (text.dropWhile (· != '\n')) := by
  have longest := longest_takeWhile (· != '\n') text
  apply Gap.lineComment
  · intro feed
    exact absurd (longest.all '\n' feed) (by decide)
  · cases shape : text.dropWhile (· != '\n') with
    | nil => exact .inl rfl
    | cons c more =>
        have ends : (c != '\n') = false := longest.ends c (by rw [shape]; rfl)
        exact .inr ⟨more, by rw [bne_eq_false_iff_eq.mp ends]⟩

/-- A slash in front of a character begins a comment there. -/
theorem exists_of_comment {c second : Char} {rest : List Char}
    (comment : (c == '/' && rest.head? == some second) = true) :
    c = '/' ∧ ∃ more, rest = second :: more := by
  rw [Bool.and_eq_true, beq_iff_eq, beq_iff_eq] at comment
  exact ⟨comment.1, List.head?_eq_some_iff.mp comment.2⟩

/-- The scanner cuts a text up to its end or up to the first thing that cannot be read. -/
theorem reportsCut_scanBehind (done : List Token) (line : ℕ) (text : List Char) :
    ReportsCut done line text (Token.scanBehind done line text) := by
  fun_induction Token.scanBehind done line text with
  | case1 done line => exact ⟨[], line, .stop line [], (List.append_nil _).symm⟩
  | case2 done line c rest feed ih =>
      cases beq_iff_eq.mp feed
      exact .gap (.blank (by decide)) ih
  | case3 done line c rest feed space ih =>
      have none : lineFeeds [c] = 0 := by
        apply lineFeeds_eq_zero
        rw [List.mem_singleton]
        rintro rfl
        exact feed rfl
      exact .gap (.blank space) (none.symm ▸ ih)
  | case4 done line c rest _ _ comment ih =>
      rcases exists_of_comment comment with ⟨rfl, more, rfl⟩
      have none : lineFeeds ('/' :: '/' :: more.takeWhile (· != '\n')) = 0 :=
        (longest_takeWhile (· != '\n') more).lineFeeds_eq_zero (by decide)
      have split : '/' :: '/' :: more = ('/' :: '/' :: more.takeWhile (· != '\n')) ++
          more.dropWhile (· != '\n') := by
        rw [List.cons_append, cons_takeWhile_append]
      rw [split]
      exact .gap (gap_lineComment more) (none.symm ▸ ih)
  | case5 done line c rest _ _ _ comment last behind skipped ih =>
      rcases exists_of_comment comment with ⟨rfl, more, rfl⟩
      rcases skipComment?_eq_some skipped with ⟨content, inner, inside, rfl⟩
      have split : '/' :: '*' :: more = ('/' :: '*' :: (content ++ ['*', '/'])) ++ behind := by
        rw [show more = content ++ '*' :: '/' :: behind from inner]
        simp
      rw [split]
      exact .gap (.blockComment inside) ((lineFeeds_blockComment content).symm ▸ ih)
  | case6 done line c rest _ _ _ comment skipped =>
      rcases exists_of_comment comment with ⟨rfl, more, rfl⟩
      exact ⟨[], _, .stop line _, .comment (skipComment?_eq_none skipped)⟩
  | case7 done line c rest _ _ _ _ starts digits value read ih =>
      have longest := longest_cons_takeWhile (isNumberPart_of_startsNumber starts) rest
      rw [← cons_takeWhile_append isNumberPart] at starts ⊢
      have none := longest.lineFeeds_eq_zero (by decide)
      exact .lexeme (.number starts longest read) (none.symm ▸ ih)
  | case8 done line c rest _ _ _ _ starts digits bad =>
      have longest := longest_cons_takeWhile (isNumberPart_of_startsNumber starts) rest
      rw [← cons_takeWhile_append isNumberPart] at starts ⊢
      exact ⟨[], _, .stop line _, .number starts longest bad⟩
  | case9 done line c rest _ _ _ _ _ starts name ih =>
      have longest := longest_takeWhile isNamePart rest
      have none : lineFeeds name = 0 := lineFeeds_name starts longest.all
      rw [← cons_takeWhile_append isNamePart]
      exact .lexeme (.name starts longest) (none.symm ▸ ih)
  | case10 done line c rest _ _ _ _ _ _ quote content behind closed ih =>
      cases beq_iff_eq.mp quote
      rcases splitFirst?_eq_some_iff.mp closed with ⟨single, rfl⟩
      have split : '"' :: (content ++ '"' :: behind) = ('"' :: (content ++ ['"'])) ++ behind := by
        simp
      rw [split]
      exact .lexeme (.text single) ((lineFeeds_quoted content).symm ▸ ih)
  | case11 done line c rest _ _ _ _ _ _ quote unclosed =>
      cases beq_iff_eq.mp quote
      exact ⟨[], _, .stop line _, .text (splitFirst?_eq_none_iff.mp unclosed)⟩
  | case12 done line c rest _ _ noLine noBlock _ _ _ symbol behind found ih =>
      rcases Symbol.scan?_eq_some found with ⟨shape, longest⟩
      have none := lineFeeds_symbol symbol
      have comment : symbol = .over → ∀ c ∈ behind.head?, c ≠ '/' ∧ c ≠ '*' := by
        rintro rfl second first
        cases shape
        have other (mark : Char) (none : ¬ (behind.head? == some mark) = true) : second ≠ mark := by
          rintro rfl
          exact none (beq_iff_eq.mpr first)
        exact ⟨other _ noLine, other _ noBlock⟩
      rw [shape] at longest ⊢
      exact .lexeme (.symbol longest comment) (none.symm ▸ ih)
  | case13 done line c rest _ noSpace _ _ noNumber noName noText missing =>
      exact ⟨[], _, .stop line _, .character (by simpa using noSpace) (by simpa using noNumber)
        (by simpa using noName) (by simpa using noText) (Symbol.scan?_eq_none missing)⟩

/-! ## Each cut is one of the scanner -/

section Converse

variable {tokens : List Token} {line last : ℕ} {lexeme : Lexeme} {cause : Cause}
  {piece word text rest : List Char}

theorem Gap.scanBehind_eq (gap : Gap piece text) (done : List Token) (line : ℕ) :
    Token.scanBehind done line (piece ++ text) =
      Token.scanBehind done (line + lineFeeds piece) text := by
  cases gap with
  | blank space => exact scanBehind_blank done line space
  | @lineComment content _ single ends =>
      have none : lineFeeds ('/' :: '/' :: content) = 0 := by
        apply lineFeeds_eq_zero
        simpa using single
      rw [none]
      exact scanBehind_lineComment done line single ends
  | @blockComment content _ inside =>
      have shape : '/' :: '*' :: (content ++ ['*', '/']) ++ text =
          '/' :: '*' :: (content ++ '*' :: '/' :: text) := by simp
      rw [shape, lineFeeds_blockComment]
      exact scanBehind_blockComment done line inside

/-- What stands behind the longest symbol does not make it longer, nor a comment. -/
theorem not_extendedBy {symbol : Symbol}
    (longest : ∀ other : Symbol, other.text.toList <+: symbol.text.toList ++ text →
      other.text.length ≤ symbol.text.length)
    (comment : symbol = .over → ∀ c ∈ text.head?, c ≠ '/' ∧ c ≠ '*') :
    ∀ c ∈ text.head?, (Lexeme.symbol symbol).extendedBy c = false := by
  intro c first
  rcases List.head?_eq_some_iff.mp first with ⟨more, rfl⟩
  rw [Bool.eq_false_iff]
  intro extends'
  by_cases divides : symbol = .over
  · rcases comment divides c first with ⟨slash, star⟩
    rw [divides] at extends'
    rcases Bool.or_eq_true_iff.mp extends' with same | same
    · exact slash (beq_iff_eq.mp same)
    · exact star (beq_iff_eq.mp same)
  · cases symbol with
    | becomes =>
        cases beq_iff_eq.mp extends'
        exact absurd (longest .equal ⟨more, rfl⟩) (by decide)
    | below =>
        cases beq_iff_eq.mp extends'
        exact absurd (longest .atMost ⟨more, rfl⟩) (by decide)
    | above =>
        cases beq_iff_eq.mp extends'
        exact absurd (longest .atLeast ⟨more, rfl⟩) (by decide)
    | _ => first | exact divides rfl | cases extends'

theorem Longest.startsNumber_cons {digits : List Char}
    (longest : Longest isNumberPart digits text) (starts : startsNumber (digits ++ text) = true) :
    ∃ c others, digits = c :: others := by
  cases digits with
  | cons c others => exact ⟨c, others, rfl⟩
  | nil =>
      cases text with
      | nil => cases starts
      | cons c text =>
          have part := longest.ends c rfl
          rw [isNumberPart_of_startsNumber starts] at part
          cases part

/-- Behind a quotation mark everything up to the next one is read. -/
theorem scanBehind_quote (done : List Token) (line : ℕ) (rest : List Char) :
    Token.scanBehind done line ('"' :: rest) = (splitFirst? '"' rest).elim
      (.error ⟨line, .unterminatedText⟩) fun parts =>
        Token.scanBehind (⟨.text (String.ofList parts.1), line⟩ :: done) (line + lineFeeds parts.1)
          parts.2 := by
  have solid : Solid '"' := ⟨by decide, by decide⟩
  rw [Token.scanBehind, if_neg solid.ne_lineFeed, if_neg solid.not_space,
    if_neg (solid.not_comment '/'), if_neg (solid.not_comment '*'),
    if_neg (not_startsNumber (by decide) (by decide) rest), if_neg (by decide),
    if_pos (beq_self_eq_true _)]
  split
  · next content behind closed =>
      rw [closed]
      rfl
  · next unclosed =>
      rw [unclosed]
      rfl

theorem Heads.scanBehind_eq (heads : Heads lexeme word text) (done : List Token) (line : ℕ) :
    Token.scanBehind done line (word ++ text) =
      Token.scanBehind (⟨lexeme, line⟩ :: done) (line + lineFeeds word) text := by
  cases heads with
  | number starts longest read =>
      rcases longest.startsNumber_cons starts with ⟨c, digits, rfl⟩
      have parts := (List.forall_mem_cons.mp longest.all).2
      rw [longest.lineFeeds_eq_zero (by decide), List.cons_append,
        scanBehind_digits done line starts parts longest.ends, read]
      rfl
  | @name first others _ starts longest =>
      have named : isName (String.ofList (first :: others)) = true := by
        rw [isName, String.toList_ofList]
        exact Bool.and_eq_true_iff.mpr ⟨starts, List.all_eq_true.mpr longest.all⟩
      have step := scanBehind_name done line named longest.ends
      rw [String.toList_ofList] at step
      rw [lineFeeds_name starts longest.all]
      exact step
  | @text content _ closed =>
      have shape : '"' :: (content ++ ['"']) ++ text = '"' :: (content ++ '"' :: text) := by simp
      rw [shape, lineFeeds_quoted, scanBehind_quote, splitFirst?_append closed]
      rfl
  | @symbol symbol _ longest comment =>
      rw [lineFeeds_symbol]
      exact scanBehind_symbol done line symbol (not_extendedBy longest comment)

theorem Unreadable.scanBehind_eq (unreadable : Unreadable cause text) (done : List Token)
    (line : ℕ) : Token.scanBehind done line text = .error ⟨line, cause⟩ := by
  cases unreadable with
  | @comment content unclosed =>
      have skipped : skipComment? line content = none := by
        cases closed : skipComment? line content with
        | none => rfl
        | some found =>
            rcases skipComment?_eq_some closed with ⟨inside, rfl, _⟩
            exact absurd ⟨inside, found.2, by simp⟩ unclosed
      have other : ¬ ('/' == '/' && ('*' :: content).head? == some '/') = true := Bool.false_ne_true
      have opens : ('/' == '/' && ('*' :: content).head? == some '*') = true := rfl
      rw [Token.scanBehind, if_neg (by decide), if_neg (by decide), if_neg other, if_pos opens]
      split
      · next found =>
          rw [List.drop_one, List.tail_cons, skipped] at found
          cases found
      · rfl
  | text unclosed =>
      rw [scanBehind_quote, splitFirst?_of_not_mem unclosed]
      rfl
  | number starts longest bad =>
      rcases longest.startsNumber_cons starts with ⟨c, digits, rfl⟩
      have parts := (List.forall_mem_cons.mp longest.all).2
      rw [List.cons_append, scanBehind_digits done line starts parts longest.ends, bad]
      rfl
  | @character c behind noSpace noNumber noName noText noSymbol =>
      have solid : Solid c := by
        refine ⟨noSpace, ?_⟩
        rintro rfl
        exact noSymbol .over ⟨behind, rfl⟩
      rw [Token.scanBehind, if_neg solid.ne_lineFeed, if_neg solid.not_space,
        if_neg (solid.not_comment '/'), if_neg (solid.not_comment '*'),
        if_neg (by rw [noNumber]; exact Bool.false_ne_true),
        if_neg (by rw [noName]; exact Bool.false_ne_true), if_neg (by rw [beq_iff_eq]; exact noText)]
      split
      · next symbol rest found =>
          exact absurd ⟨rest, (Symbol.scan?_eq_some found).1.symm⟩ (noSymbol symbol)
      · rfl

theorem Cut.scanBehind_eq (cut : Cut line text tokens last rest) (done : List Token) :
    Token.scanBehind done line text = Token.scanBehind (tokens.reverse ++ done) last rest := by
  induction cut generalizing done with
  | stop => rfl
  | gap gap _ ih => rw [gap.scanBehind_eq, ih]
  | lexeme heads _ ih =>
      rw [heads.scanBehind_eq, ih, List.reverse_cons, List.append_assoc, List.singleton_append]

end Converse

namespace Token

variable {text : String}

/-- The tokens are those into which the text is cut up to its end. -/
theorem scan_eq_ok_iff {tokens : List Token} :
    scan text = .ok tokens ↔ ∃ last, Cut 0 text.toList tokens last [] := by
  constructor
  · intro scanned
    have reports := reportsCut_scanBehind [] 0 text.toList
    rw [show scanBehind [] 0 text.toList = .ok tokens from scanned] at reports
    rcases reports with ⟨cut, last, reaches, rfl⟩
    exact ⟨last, reaches⟩
  · rintro ⟨last, cut⟩
    rw [scan, cut.scanBehind_eq [], scanBehind, List.append_nil, List.reverse_reverse]

/-- The fault is that of the place up to which the text can be cut. -/
theorem scan_eq_error_iff {fault : Fault} :
    scan text = .error fault ↔
      ∃ tokens rest, Cut 0 text.toList tokens fault.line rest ∧ Unreadable fault.cause rest := by
  constructor
  · intro scanned
    have reports := reportsCut_scanBehind [] 0 text.toList
    rw [show scanBehind [] 0 text.toList = .error fault from scanned] at reports
    exact reports
  · rintro ⟨tokens, rest, cut, unreadable⟩
    rw [scan, cut.scanBehind_eq [], unreadable.scanBehind_eq]

end Token
end Code
end EffectHost

import EffectHost.Proofs.Code.Cuts
import EffectHost.Proofs.Text.BytePositions

/-!
# Scanning by bytes

Code may be scanned byte by byte, at a position that counts bytes.  Single bytes tell what begins
at a position, and runs of them are skipped.  What is longer is cut out of the text, and this
fails unless the positions are boundaries of characters.  It never does, whatever characters there
are in comments and quoted texts, and the tokens are those of the scanner that goes by characters.
-/

namespace EffectHost
namespace Code
namespace ByteScan

open Text Number

/-! ## The scanner -/

/-- Where the scanner stands, with the tokens found so far in reverse. -/
structure Place where
  position : Nat
  line : Nat
  done : List Token

/-- What a round of the scanner leads to. -/
inductive Round where
  | on (place : Place)
  | over (result : Except Fault (List Token))

/-- The symbols in the order in which they are looked for, longer ones in front. -/
def symbols : List Symbol :=
  [.equal, .unequal, .atMost, .atLeast, .plus, .minus, .times, .over, .becomes, .openParen,
    .closeParen, .openBracket, .closeBracket, .comma, .semicolon, .below, .above]

/-- Skip a comment up to the end of its line. -/
def lineComment (source : String) (place : Place) : Round :=
  .on { place with position := skip source (fun byte => !isAscii (· == '\n') byte) place.position }

/-- Skip a comment up to where it is closed. -/
def blockComment (source : String) (place : Place) : Option Round := do
  let inner ← slice? source (place.position + 2) source.utf8ByteSize
  match find? ['*', '/'] inner with
  | none => return .over (.error ⟨place.line, .unterminatedComment⟩)
  | some length =>
    let comment ← slice? source place.position (place.position + 2 + length)
    return .on { place with
      position := place.position + (length + 4)
      line := place.line + lineFeeds comment }

/-- Read a number. -/
def number (source : String) (place : Place) : Option Round := do
  let stop := skip source (isAscii isNumberPart) place.position
  let digits ← slice? source place.position stop
  match number? digits with
  | none => return .over (.error ⟨place.line, .badNumber (String.ofList digits)⟩)
  | some value =>
    return .on { place with
      position := stop
      done := ⟨.number value, place.line⟩ :: place.done }

/-- Read a name. -/
def name (source : String) (place : Place) : Option Round := do
  let stop := skip source (isAscii isNamePart) place.position
  let name ← slice? source place.position stop
  return .on { place with
    position := stop
    done := ⟨.name (String.ofList name), place.line⟩ :: place.done }

/-- Read a quoted text. -/
def quoted (source : String) (place : Place) : Option Round := do
  let inner ← slice? source (place.position + 1) source.utf8ByteSize
  match find? ['"'] inner with
  | none => return .over (.error ⟨place.line, .unterminatedText⟩)
  | some length =>
    let content ← slice? source (place.position + 1) (place.position + 1 + length)
    return .on {
      position := place.position + (length + 2)
      line := place.line + lineFeeds content
      done := ⟨.text (String.ofList content), place.line⟩ :: place.done }

/-- Read a symbol in front of a text. -/
def symbol (place : Place) (behind : List Char) : Round :=
  match symbols.find? (·.text.toList.isPrefixOf behind) with
  | some symbol =>
    .on { place with
      position := place.position + symbol.text.utf8ByteSize
      done := ⟨.symbol symbol, place.line⟩ :: place.done }
  | none => .over (.error ⟨place.line, .badCharacter (behind.headD '?')⟩)

/-- A round of the scanner.  There is none if a piece cannot be cut out. -/
def round (source : String) (place : Place) : Option Round :=
  match bytesFrom source place.position with
  | [] => some (.over (.ok place.done.reverse))
  | byte :: others =>
    if isAscii (· == '\n') byte then
      some (.on { place with position := place.position + 1, line := place.line + 1 })
    else if isAscii isSpace byte then some (.on { place with position := place.position + 1 })
    else do
      let behind ← slice? source place.position source.utf8ByteSize
      if ['/', '/'].isPrefixOf behind then return lineComment source place
      else if ['/', '*'].isPrefixOf behind then blockComment source place
      else if isAscii isDigit byte ||
          (isAscii (· == '.') byte && others.head?.any (isAscii isDigit)) then
        number source place
      else if isAscii isNameStart byte then name source place
      else if isAscii (· == '"') byte then quoted source place
      else return symbol place behind

/-- So many rounds of the scanner at most.  There is no result if they do not suffice, or if a
piece cannot be cut out. -/
def loop (source : String) : Nat → Place → Option (Except Fault (List Token))
  | 0, _ => none
  | rounds + 1, place =>
    (round source place).bind fun
      | .on next => loop source rounds next
      | .over result => some result

/-- Scan a text byte by byte, with no more rounds than the text has bytes, and one for its end. -/
def scan (source : String) : Option (Except Fault (List Token)) :=
  loop source (source.utf8ByteSize + 1) ⟨0, 0, []⟩

/-! ## Kinds of ASCII characters -/

theorem asciiOnly_isSpace : AsciiOnly isSpace := by
  intro c space
  simp only [isSpace, Bool.or_eq_true, beq_iff_eq] at space
  rcases space with (((rfl | rfl) | rfl) | rfl) | rfl <;> decide

theorem asciiOnly_isNameStart : AsciiOnly isNameStart :=
  asciiOnly_isLetter.or (asciiOnly_eq (by decide))

theorem asciiOnly_isNamePart : AsciiOnly isNamePart :=
  ((asciiOnly_isLetter.or asciiOnly_isDigit).or (asciiOnly_eq (by decide))).or
    (asciiOnly_eq (by decide))

theorem isNamePart_of_isNameStart {c : Char} (starts : isNameStart c = true) :
    isNamePart c = true := by
  rw [isNameStart, Bool.or_eq_true] at starts
  rw [isNamePart]
  rcases starts with letter | underscore
  · rw [letter, Bool.true_or, Bool.true_or, Bool.true_or]
  · rw [underscore, Bool.or_true, Bool.true_or]

theorem asciiOnly_isNumberPart : AsciiOnly isNumberPart :=
  asciiOnly_isDigit.or (asciiOnly_eq (by decide))

/-! ## A round among characters -/

section Rounds

variable {source : String} {front rest : List Char} {line : ℕ} {done : List Token}

/-- The bytes behind whole characters begin with those of the next one. -/
theorem exists_bytesFrom {c : Char} (parts : source.toList = front ++ c :: rest) :
    ∃ byte more, bytesFrom source (width front) = byte :: (more ++ rest.flatMap String.utf8EncodeChar) ∧
      (∀ kind, AsciiOnly kind → isAscii kind byte = kind c) ∧ (c.toNat < 128 → more = []) := by
  rcases exists_encode c with ⟨byte, more, encoded, short⟩
  refine ⟨byte, more, ?_, fun kind ascii => ?_, short⟩
  · rw [bytesFrom_eq parts, List.flatMap_cons, encoded, List.cons_append]
  · exact isAscii_of_mem ascii (encoded ▸ List.mem_cons_self)

/-- The first byte of a text tells whether its first character is of a kind. -/
theorem any_head?_flatMap {kind : Char → Bool} (ascii : AsciiOnly kind) (text : List Char) :
    (text.flatMap String.utf8EncodeChar).head?.any (isAscii kind) = text.head?.any kind := by
  cases text with
  | nil => rfl
  | cons c rest =>
      rcases exists_encode c with ⟨byte, more, encoded, _⟩
      rw [List.flatMap_cons, encoded, List.cons_append, List.head?_cons, List.head?_cons,
        Option.any_some, Option.any_some]
      exact isAscii_of_mem ascii (encoded ▸ List.mem_cons_self)

theorem startsNumber_eq (c : Char) (rest : List Char) :
    startsNumber (c :: rest) = (isDigit c || (c == '.' && rest.head?.any isDigit)) := by
  by_cases point : c = '.'
  · cases rest with
    | nil | cons => rw [point]; rfl
  · rw [beq_eq_false_iff_ne.mpr point, Bool.false_and, Bool.or_false]
    unfold startsNumber
    split
    · next same => exact absurd (List.cons.inj same).1 point
    · next same => rw [(List.cons.inj same).1]
    · next none => cases none

/-- Two characters stand in front of a text. -/
theorem isPrefixOf_pair (first second c : Char) (rest : List Char) :
    [first, second].isPrefixOf (c :: rest) = (c == first && rest.head? == some second) := by
  cases rest with
  | nil => simp [List.isPrefixOf]
  | cons second' rest =>
      rw [List.isPrefixOf_cons_cons, List.isPrefixOf_cons_cons, List.isPrefixOf_nil_left, Bool.and_true,
        Bool.beq_comm (a := first), Bool.beq_comm (a := second)]
      rfl

/-- What a round does is told by the characters behind the place. -/
theorem round_cons {c : Char} (parts : source.toList = front ++ c :: rest) :
    round source ⟨width front, line, done⟩ =
      if c == '\n' then some (.on ⟨width front + 1, line + 1, done⟩)
      else if isSpace c then some (.on ⟨width front + 1, line, done⟩)
      else if c == '/' && rest.head? == some '/' then
        some (lineComment source ⟨width front, line, done⟩)
      else if c == '/' && rest.head? == some '*' then
        blockComment source ⟨width front, line, done⟩
      else if startsNumber (c :: rest) then number source ⟨width front, line, done⟩
      else if isNameStart c then name source ⟨width front, line, done⟩
      else if c == '"' then quoted source ⟨width front, line, done⟩
      else some (symbol ⟨width front, line, done⟩ (c :: rest)) := by
  rcases exists_bytesFrom parts with ⟨byte, more, bytes, kinds, short⟩
  have begins : (isAscii isDigit byte || (isAscii (· == '.') byte &&
      (more ++ rest.flatMap String.utf8EncodeChar).head?.any (isAscii isDigit))) =
        startsNumber (c :: rest) := by
    rw [startsNumber_eq, kinds _ asciiOnly_isDigit, kinds _ (asciiOnly_eq (by decide))]
    by_cases point : c = '.'
    · rw [short (by rw [point]; decide), List.nil_append, any_head?_flatMap asciiOnly_isDigit]
    · rw [beq_eq_false_iff_ne.mpr point, Bool.false_and, Bool.false_and]
  rw [round, bytes]
  dsimp only
  rw [kinds _ (asciiOnly_eq (by decide)), kinds _ asciiOnly_isSpace, slice?_end parts, begins,
    kinds _ asciiOnly_isNameStart, kinds _ (asciiOnly_eq (by decide))]
  simp only [← isPrefixOf_pair]
  rfl

/-- A comment is skipped up to the end of its line. -/
theorem lineComment_eq {text : List Char} (parts : source.toList = front ++ text) :
    lineComment source ⟨width front, line, done⟩ =
      .on ⟨width (front ++ text.takeWhile (· != '\n')), line, done⟩ := by
  have alike (c : Char) (byte : UInt8) (member : byte ∈ String.utf8EncodeChar c) :
      (!isAscii (· == '\n') byte) = (c != '\n') := by
    rw [isAscii_of_mem (asciiOnly_eq (by decide)) member]
    rfl
  rw [lineComment, skip_eq alike parts]

/-- Behind the first two bytes of a comment its content can be cut out. -/
theorem slice?_comment {content : List Char}
    (parts : source.toList = front ++ '/' :: '*' :: content) :
    slice? source (width front + 2) source.utf8ByteSize = some content := by
  have opened : width front + 2 = width (front ++ ['/', '*']) := by
    rw [width_append]
    rfl
  rw [opened]
  apply slice?_end
  rw [parts, List.append_assoc]
  rfl

/-- A comment is skipped up to where it is closed first. -/
theorem blockComment_eq {content : List Char} (inside : ¬ ['*', '/'] <:+: content)
    (parts : source.toList = front ++ '/' :: '*' :: (content ++ '*' :: '/' :: rest)) :
    blockComment source ⟨width front, line, done⟩ = some (.on
      ⟨width (front ++ ('/' :: '*' :: (content ++ ['*', '/']))), line + lineFeeds content, done⟩) := by
  have found : find? ['*', '/'] (content ++ '*' :: '/' :: rest) = some (width content) := by
    change find? ['*', '/'] (content ++ (['*', '/'] ++ rest)) = _
    apply find?_of_first
    intro back tail some begins
    rcases List.exists_cons_of_ne_nil some with ⟨first, more, rfl⟩
    rcases List.cons_prefix_cons.mp begins with ⟨rfl, slash⟩
    cases more with
    | nil => exact absurd (List.cons_prefix_cons.mp slash).1 (by decide)
    | cons second more =>
        rcases List.cons_prefix_cons.mp slash with ⟨rfl, _⟩
        exact inside (List.IsInfix.trans ⟨[], more, rfl⟩ tail.isInfix)
  have opened : width ['/', '*'] = 2 := rfl
  have closed : width ['*', '/'] = 2 := rfl
  have stop : width front + 2 + width content = width (front ++ (['/', '*'] ++ content)) := by
    rw [width_append, width_append, opened, Nat.add_assoc]
  have behind : width front + (width content + 4) =
      width (front ++ (['/', '*'] ++ (content ++ ['*', '/']))) := by
    rw [width_append, width_append, width_append, opened, closed]
    omega
  have cut : slice? source (width front) (width (front ++ (['/', '*'] ++ content))) =
      some (['/', '*'] ++ content) := by
    have inner : source.toList = front ++ ((['/', '*'] ++ content) ++ '*' :: '/' :: rest) := parts
    exact slice?_eq inner
  simp only [blockComment, slice?_comment parts, found, stop, cut, behind, Option.bind_eq_bind,
    Option.bind_some]
  rfl

theorem blockComment_unclosed {content : List Char} (unclosed : ¬ ['*', '/'] <:+: content)
    (parts : source.toList = front ++ '/' :: '*' :: content) :
    blockComment source ⟨width front, line, done⟩ =
      some (.over (.error ⟨line, .unterminatedComment⟩)) := by
  simp only [blockComment, slice?_comment parts, find?_of_absent unclosed, Option.bind_eq_bind,
    Option.bind_some]
  rfl

/-- A number is cut out as far as its bytes go. -/
theorem number_eq {text : List Char} (parts : source.toList = front ++ text) :
    number source ⟨width front, line, done⟩ =
      match number? (text.takeWhile isNumberPart) with
      | some value => some (.on ⟨width (front ++ text.takeWhile isNumberPart), line,
          ⟨.number value, line⟩ :: done⟩)
      | none => some (.over
          (.error ⟨line, .badNumber (String.ofList (text.takeWhile isNumberPart))⟩)) := by
  have split : source.toList =
      front ++ (text.takeWhile isNumberPart ++ text.dropWhile isNumberPart) := by
    rw [List.takeWhile_append_dropWhile, parts]
  have cut := slice?_eq split
  have stop := skip_eq (fun _ _ => isAscii_of_mem asciiOnly_isNumberPart) parts
  simp only [number, stop, cut, Option.bind_eq_bind, Option.bind_some]
  split
  · next missing => rw [missing]; rfl
  · next found => rw [found]; rfl

/-- A name is cut out as far as its bytes go. -/
theorem name_eq {text : List Char} (parts : source.toList = front ++ text) :
    name source ⟨width front, line, done⟩ = some (.on ⟨width (front ++ text.takeWhile isNamePart),
      line, ⟨.name (String.ofList (text.takeWhile isNamePart)), line⟩ :: done⟩) := by
  have split : source.toList =
      front ++ (text.takeWhile isNamePart ++ text.dropWhile isNamePart) := by
    rw [List.takeWhile_append_dropWhile, parts]
  have cut := slice?_eq split
  have stop := skip_eq (fun _ _ => isAscii_of_mem asciiOnly_isNamePart) parts
  simp only [name, stop, cut, Option.bind_eq_bind, Option.bind_some]
  rfl

theorem slice?_quoted {content : List Char} (parts : source.toList = front ++ '"' :: content) :
    slice? source (width front + 1) source.utf8ByteSize = some content := by
  have opened : width front + 1 = width (front ++ ['"']) := by
    rw [width_append]
    rfl
  rw [opened]
  apply slice?_end
  rw [parts, List.append_assoc]
  rfl

/-- A quoted text is cut out between its marks. -/
theorem quoted_eq {content : List Char} (closed : '"' ∉ content)
    (parts : source.toList = front ++ '"' :: (content ++ '"' :: rest)) :
    quoted source ⟨width front, line, done⟩ = some (.on
      ⟨width (front ++ ('"' :: (content ++ ['"']))), line + lineFeeds content,
        ⟨.text (String.ofList content), line⟩ :: done⟩) := by
  have found : find? ['"'] (content ++ '"' :: rest) = some (width content) := by
    change find? ['"'] (content ++ (['"'] ++ rest)) = _
    apply find?_of_first
    intro back tail some begins
    rcases List.exists_cons_of_ne_nil some with ⟨first, more, rfl⟩
    rcases List.cons_prefix_cons.mp begins with ⟨rfl, _⟩
    exact closed (tail.subset List.mem_cons_self)
  have mark : width ['"'] = 1 := rfl
  have start : width front + 1 = width (front ++ ['"']) := by
    rw [width_append, mark]
  have stop : width front + 1 + width content = width (front ++ ['"'] ++ content) := by
    rw [width_append, width_append, mark]
  have behind : width front + (width content + 2) = width (front ++ (['"'] ++ (content ++ ['"']))) := by
    rw [width_append, width_append, width_append, mark]
    omega
  have cut : slice? source (width (front ++ ['"'])) (width (front ++ ['"'] ++ content)) =
      some content := by
    have inner : source.toList = (front ++ ['"']) ++ (content ++ '"' :: rest) := by
      rw [parts, List.append_assoc]
      rfl
    exact slice?_eq inner
  simp only [quoted, slice?_quoted parts, found, stop, behind, Option.bind_eq_bind,
    Option.bind_some]
  rw [start, cut]
  rfl

theorem quoted_unclosed {content : List Char} (unclosed : '"' ∉ content)
    (parts : source.toList = front ++ '"' :: content) :
    quoted source ⟨width front, line, done⟩ = some (.over (.error ⟨line, .unterminatedText⟩)) := by
  have absent : ¬ ['"'] <:+: content := fun inside => unclosed (inside.subset List.mem_cons_self)
  simp only [quoted, slice?_quoted parts, find?_of_absent absent, Option.bind_eq_bind,
    Option.bind_some]
  rfl

/-- The longest symbol is the first one that is found. -/
theorem symbol_eq {text behind : List Char} {symbol : Symbol}
    (found : Symbol.scan? text = some (symbol, behind)) (front : List Char) :
    ByteScan.symbol ⟨width front, line, done⟩ text = .on
      ⟨width (front ++ symbol.text.toList), line, ⟨.symbol symbol, line⟩ :: done⟩ := by
  rcases Symbol.scan?_eq_some found with ⟨rfl, longest⟩
  have first : symbols.find? (·.text.toList.isPrefixOf (symbol.text.toList ++ behind)) =
      some symbol := by
    cases behind with
    | nil => cases symbol <;> rfl
    | cons c rest =>
        -- Only an equals sign makes a symbol longer, and then the longer one was scanned.
        have other (longer : Symbol) (same : longer.text.toList = symbol.text.toList ++ ['='])
            (two : symbol.text.length < longer.text.length) :
            ['='].isPrefixOf (c :: rest) = false := by
          rw [Bool.eq_false_iff, ne_eq, List.isPrefixOf_iff_prefix]
          rintro ⟨more, begins⟩
          have bound := longest longer ⟨more, by rw [same, List.append_assoc, begins]⟩
          omega
        cases symbol with
        | becomes => simp [symbols, Symbol.text, other .equal rfl (by decide)]
        | below => simp [symbols, Symbol.text, other .atMost rfl (by decide)]
        | above => simp [symbols, Symbol.text, other .atLeast rfl (by decide)]
        | _ => rfl
  have size : symbol.text.utf8ByteSize = width symbol.text.toList := by
    rw [width, String.ofList_toList]
  rw [ByteScan.symbol, first, width_append, ← size]

theorem symbol_of_none {c : Char} {text : List Char} (missing : Symbol.scan? (c :: text) = none)
    (place : Place) : ByteScan.symbol place (c :: text) =
      .over (.error ⟨place.line, .badCharacter c⟩) := by
  have none : symbols.find? (·.text.toList.isPrefixOf (c :: text)) = none := by
    rw [List.find?_eq_none]
    intro symbol _
    rw [List.isPrefixOf_iff_prefix]
    exact Symbol.scan?_eq_none missing symbol
  rw [ByteScan.symbol, none]
  rfl

end Rounds

/-! ## All rounds -/

/-- Wherever a text stands behind whole characters, the scanner comes to a result within as many
rounds as there are characters in the text, and one for its end. -/
def Reaches (source : String) (done : List Token) (line : ℕ) (text : List Char)
    (result : Except Fault (List Token)) : Prop :=
  ∀ front rounds, source.toList = front ++ text → text.length < rounds →
    loop source rounds ⟨width front, line, done⟩ = some result

section Run

variable {source : String} {done done' : List Token} {line line' : ℕ} {piece text : List Char}
  {result : Except Fault (List Token)}

/-- A round that goes over some characters leads on. -/
theorem Reaches.on (some' : piece ≠ [])
    (step : ∀ front, source.toList = front ++ (piece ++ text) →
      round source ⟨width front, line, done⟩ =
        some (.on ⟨width (front ++ piece), line', done'⟩))
    (behind : Reaches source done' line' text result) :
    Reaches source done line (piece ++ text) result := by
  intro front rounds parts enough
  have shorter := List.length_pos_iff.mpr some'
  rw [List.length_append] at enough
  cases rounds with
  | zero => exact absurd enough (Nat.not_lt_zero _)
  | succ rounds =>
      rw [loop, step front parts]
      exact behind (front ++ piece) rounds (by rw [List.append_assoc, parts]) (by omega)

theorem Reaches.over
    (step : ∀ front, source.toList = front ++ text →
      round source ⟨width front, line, done⟩ = some (.over result)) :
    Reaches source done line text result := by
  intro front rounds parts enough
  cases rounds with
  | zero => exact absurd enough (Nat.not_lt_zero _)
  | succ rounds =>
      rw [loop, step front parts]
      rfl

end Run

/-- The rounds of the scanner follow the scanner that goes by characters. -/
theorem reaches_scanBehind (source : String) (done : List Token) (line : ℕ) (text : List Char) :
    Reaches source done line text (Token.scanBehind done line text) := by
  fun_induction Token.scanBehind done line text with
  | case1 done line =>
      refine .over fun front parts => ?_
      rw [round, bytesFrom_eq parts]
      rfl
  | case2 done line c rest feed ih =>
      refine Reaches.on (List.cons_ne_nil c []) (fun front parts => ?_) ih
      rw [round_cons parts, if_pos feed, beq_iff_eq.mp feed, width_append_singleton (by decide)]
  | case3 done line c rest feed space ih =>
      refine Reaches.on (List.cons_ne_nil c []) (fun front parts => ?_) ih
      rw [round_cons parts, if_neg feed, if_pos space,
        width_append_singleton (asciiOnly_isSpace c space)]
  | case4 done line c rest feed space comment ih =>
      have first : (c != '\n') = true := bne_iff_ne.mpr fun same => feed (beq_iff_eq.mpr same)
      rw [← cons_takeWhile_append (· != '\n')]
      refine .on (List.cons_ne_nil _ _) (fun front parts => ?_) ih
      rw [cons_takeWhile_append] at parts
      rw [round_cons parts, if_neg feed, if_neg space, if_pos comment, lineComment_eq parts,
        List.takeWhile_cons_of_pos (p := (· != '\n')) first]
  | case5 done line c rest feed space noLine comment last behind skipped ih =>
      rcases exists_of_comment comment with ⟨rfl, more, rfl⟩
      rcases skipComment?_eq_some skipped with ⟨content, inner, inside, rfl⟩
      have split : '/' :: '*' :: more = ('/' :: '*' :: (content ++ ['*', '/'])) ++ behind := by
        rw [show more = content ++ '*' :: '/' :: behind from inner]
        simp
      rw [split]
      refine .on (List.cons_ne_nil _ _) (fun front parts => ?_) ih
      rw [← split] at parts
      rw [round_cons parts, if_neg feed, if_neg space, if_neg noLine, if_pos comment]
      rw [show more = content ++ '*' :: '/' :: behind from inner] at parts
      exact blockComment_eq inside parts
  | case6 done line c rest feed space noLine comment skipped =>
      rcases exists_of_comment comment with ⟨rfl, more, rfl⟩
      refine .over fun front parts => ?_
      rw [round_cons parts, if_neg feed, if_neg space, if_neg noLine, if_pos comment]
      exact blockComment_unclosed (skipComment?_eq_none skipped) parts
  | case7 done line c rest feed space noLine noBlock starts digits value read ih =>
      have first := isNumberPart_of_startsNumber starts
      rw [← cons_takeWhile_append isNumberPart]
      refine .on (List.cons_ne_nil _ _) (fun front parts => ?_) ih
      rw [cons_takeWhile_append] at parts
      rw [round_cons parts, if_neg feed, if_neg space, if_neg noLine, if_neg noBlock,
        if_pos starts, number_eq parts, List.takeWhile_cons_of_pos first,
        show number? (c :: rest.takeWhile isNumberPart) = some value from read]
  | case8 done line c rest feed space noLine noBlock starts digits bad =>
      have first := isNumberPart_of_startsNumber starts
      refine .over fun front parts => ?_
      rw [round_cons parts, if_neg feed, if_neg space, if_neg noLine, if_neg noBlock,
        if_pos starts, number_eq parts, List.takeWhile_cons_of_pos first,
        show number? (c :: rest.takeWhile isNumberPart) = none from bad]
  | case9 done line c rest feed space noLine noBlock noNumber starts name ih =>
      have first := isNamePart_of_isNameStart starts
      rw [← cons_takeWhile_append isNamePart]
      refine .on (List.cons_ne_nil _ _) (fun front parts => ?_) ih
      rw [cons_takeWhile_append] at parts
      rw [round_cons parts, if_neg feed, if_neg space, if_neg noLine, if_neg noBlock,
        if_neg noNumber, if_pos starts, name_eq parts, List.takeWhile_cons_of_pos first]
  | case10 done line c rest feed space noLine noBlock noNumber noName quote content behind closed ih =>
      cases beq_iff_eq.mp quote
      rcases splitFirst?_eq_some_iff.mp closed with ⟨single, rfl⟩
      have split : '"' :: (content ++ '"' :: behind) = ('"' :: (content ++ ['"'])) ++ behind := by
        simp
      rw [split]
      refine .on (List.cons_ne_nil _ _) (fun front parts => ?_) ih
      rw [← split] at parts
      rw [round_cons parts, if_neg feed, if_neg space, if_neg noLine, if_neg noBlock,
        if_neg noNumber, if_neg noName, if_pos quote]
      exact quoted_eq single parts
  | case11 done line c rest feed space noLine noBlock noNumber noName quote unclosed =>
      cases beq_iff_eq.mp quote
      refine .over fun front parts => ?_
      rw [round_cons parts, if_neg feed, if_neg space, if_neg noLine, if_neg noBlock,
        if_neg noNumber, if_neg noName, if_pos quote]
      exact quoted_unclosed (splitFirst?_eq_none_iff.mp unclosed) parts
  | case12 done line c rest feed space noLine noBlock noNumber noName noText symbol behind found ih =>
      have shape := (Symbol.scan?_eq_some found).1
      have some' : symbol.text.toList ≠ [] := by cases symbol <;> decide
      rw [shape]
      refine .on some' (fun front parts => ?_) ih
      rw [← shape] at parts
      rw [round_cons parts, if_neg feed, if_neg space, if_neg noLine, if_neg noBlock,
        if_neg noNumber, if_neg noName, if_neg noText, symbol_eq found front]
  | case13 done line c rest feed space noLine noBlock noNumber noName noText missing =>
      refine .over fun front parts => ?_
      rw [round_cons parts, if_neg feed, if_neg space, if_neg noLine, if_neg noBlock,
        if_neg noNumber, if_neg noName, if_neg noText, symbol_of_none missing]

/-- The rounds suffice, no piece fails to be cut out, and the tokens are those of the scanner that
goes by characters. -/
theorem scan_eq (source : String) : scan source = some (Token.scan source) :=
  reaches_scanBehind source [] 0 source.toList [] _ rfl
    (Nat.lt_succ_of_le (length_toList_le source))

/-- The scanner always comes to a result.  Its tokens cover the text but for blanks and comments,
or it stops at the first place where the text cannot be read. -/
theorem scan_covers_source (source : String) :
    scan source = some (Token.scan source) ∧
      match Token.scan source with
      | .ok tokens => ∃ last, Cut 0 source.toList tokens last []
      | .error fault =>
        ∃ tokens rest, Cut 0 source.toList tokens fault.line rest ∧
          Unreadable fault.cause rest := by
  refine ⟨scan_eq source, ?_⟩
  split
  · next scanned => exact Token.scan_eq_ok_iff.mp scanned
  · next scanned => exact Token.scan_eq_error_iff.mp scanned

end ByteScan
end Code
end EffectHost

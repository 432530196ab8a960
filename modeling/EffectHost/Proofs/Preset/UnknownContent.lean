import EffectHost.Proofs.Preset.BankText

/-!
# Unknown content of a bank

A text can be cut at every place outside quotes that is not in the middle of a word: its tokens
are those in front of the cut and those behind it.  At the top level of a bank a block that is
no preset is passed over, with all that is nested in it, and so are tokens that belong to no
block.  What is put in there leaves the bank as it is.
-/

namespace EffectHost
namespace Bank

open Text

/-! ## Where a text can be cut -/

/-- Where a reader of tokens stands. -/
inductive Place where
  | between
  | inWord
  | inQuotes (quote : Char)
deriving DecidableEq, Repr

/-- Where a reader of tokens stands behind one more character. -/
def Place.next : Place → Char → Place
  | .between, c => if isBlank c then .between else if isQuote c then .inQuotes c else .inWord
  | .inWord, c => if isBlank c then .between else .inWord
  | .inQuotes quote, c => if c == quote then .between else .inQuotes quote

/-- Where a reader of tokens stands behind a text. -/
def placeBehind (text : List Char) : Place :=
  text.foldl Place.next .between

/-- Between the two pieces of a text no token is cut. -/
def Apart (front back : List Char) : Prop :=
  match placeBehind front with
  | .between => True
  | .inWord => ∀ c ∈ back.head?, isBlank c = true
  | .inQuotes _ => False

theorem Apart.of_between {front : List Char} (between : placeBehind front = .between)
    (back : List Char) : Apart front back := by
  rw [Apart, between]
  trivial

/-- A word goes on up to the next blank. -/
theorem foldl_next_inWord (text : List Char) : text.foldl Place.next .inWord =
    match text.dropWhile (!isBlank ·) with
    | [] => .inWord
    | stop :: rest => placeBehind (stop :: rest) := by
  induction text with
  | nil => rfl
  | cons c text ih =>
      rw [List.foldl_cons, Place.next, List.dropWhile_cons]
      by_cases blank : isBlank c = true
      · simp [blank, placeBehind, Place.next]
      · simpa [blank] using ih

/-- What stands in quotes goes on up to the next quote of the kind. -/
theorem foldl_next_inQuotes (quote : Char) (text : List Char) :
    text.foldl Place.next (.inQuotes quote) =
      match text.dropWhile (· != quote) with
      | [] => .inQuotes quote
      | _ :: rest => placeBehind rest := by
  induction text with
  | nil => rfl
  | cons c text ih =>
      rw [List.foldl_cons, Place.next, List.dropWhile_cons]
      by_cases same : c = quote
      · simp [same, placeBehind]
      · simpa [same] using ih

/-- Where a run has ended, more text behind it leaves the run as it is. -/
theorem takeWhile_dropWhile_append {keep : Char → Bool} {text rest : List Char} {stop : Char}
    (ended : text.dropWhile keep = stop :: rest) (more : List Char) :
    (text ++ more).takeWhile keep = text.takeWhile keep ∧
      (text ++ more).dropWhile keep = stop :: rest ++ more := by
  induction text with
  | nil => cases ended
  | cons c text ih =>
      by_cases kept : keep c = true
      · rw [List.dropWhile_cons_of_pos kept] at ended
        simpa [kept] using ih ended
      · rw [List.dropWhile_cons_of_neg kept] at ended
        simpa [kept] using congrArg (· ++ more) ended

/-- The tokens of a text that is cut where no token is are those of its pieces. -/
theorem tokensBehind_append_of_apart {front back : List Char} (apart : Apart front back)
    (done : List (List Char)) :
    tokensBehind done (front ++ back) = tokensBehind done front ++ tokens back := by
  fun_induction tokensBehind done front with
  | case1 done => exact tokensBehind_eq done back
  | case2 done c rest blank ih =>
      have place : placeBehind (c :: rest) = placeBehind rest := by
        rw [placeBehind, List.foldl_cons, Place.next, if_pos blank, placeBehind]
      rw [Apart, place] at apart
      rw [List.cons_append, tokensBehind, if_pos blank, ih apart]
  | case3 done c rest solid opens ih =>
      have place : placeBehind (c :: rest) = rest.foldl Place.next (.inQuotes c) := by
        rw [placeBehind, List.foldl_cons, Place.next, if_neg solid, if_pos opens]
      rw [Apart, place, foldl_next_inQuotes] at apart
      rw [List.cons_append, tokensBehind, if_neg solid, if_pos opens]
      cases ended : rest.dropWhile (· != c) with
      | nil =>
          rw [ended] at apart
          exact apart.elim
      | cons quote more =>
          rw [ended] at apart ih
          rw [(takeWhile_dropWhile_append ended back).1, (takeWhile_dropWhile_append ended back).2]
          exact ih apart
  | case4 done c rest solid bare ih =>
      have place : placeBehind (c :: rest) = rest.foldl Place.next .inWord := by
        rw [placeBehind, List.foldl_cons, Place.next, if_neg solid, if_neg bare]
      rw [Apart, place, foldl_next_inWord] at apart
      rw [List.cons_append, tokensBehind, if_neg solid, if_neg bare]
      cases ended : rest.dropWhile (!isBlank ·) with
      | cons stop more =>
          rw [ended] at apart ih
          rw [(takeWhile_dropWhile_append ended back).1, (takeWhile_dropWhile_append ended back).2]
          exact ih apart
      | nil =>
          -- The word is the last of the front, and the back begins with a blank.
          rw [ended] at apart
          have whole : ∀ d ∈ rest, (!isBlank d) = true := by
            simpa using ended
          have stops : back.takeWhile (!isBlank ·) = [] ∧ back.dropWhile (!isBlank ·) = back := by
            cases back with
            | nil => exact ⟨rfl, rfl⟩
            | cons d back =>
                have blank : isBlank d = true := apart d rfl
                simp [blank]
          rw [List.takeWhile_append_of_pos whole, List.dropWhile_append_of_pos whole, stops.1,
            stops.2, List.append_nil, List.takeWhile_eq_self_iff.mpr whole, tokensBehind_eq,
            tokensBehind_eq, tokens_nil, List.append_nil]

theorem tokens_append {front back : List Char} (apart : Apart front back) :
    tokens (front ++ back) = tokens front ++ tokens back :=
  tokensBehind_append_of_apart apart []

/-- The quotes of a text are closed at its end. -/
def QuotesClosed (text : List Char) : Prop :=
  ∀ quote, placeBehind text ≠ .inQuotes quote

/-- Behind a blank outside quotes stands no token. -/
theorem placeBehind_eq_between {text : List Char} (closed : QuotesClosed text)
    (ends : ∃ blank ∈ text.getLast?, isBlank blank = true) : placeBehind text = .between := by
  rcases ends with ⟨blank, last, blankLast⟩
  rcases List.getLast?_eq_some_iff.mp last with ⟨body, rfl⟩
  rw [QuotesClosed, placeBehind, List.foldl_concat] at closed
  rw [placeBehind, List.foldl_concat]
  cases place : body.foldl Place.next .between with
  | between => rw [Place.next, if_pos blankLast]
  | inWord => rw [Place.next, if_pos blankLast]
  | inQuotes quote =>
      rw [place, Place.next] at closed
      rw [Place.next]
      by_cases same : (blank == quote) = true
      · rw [if_pos same]
      · rw [if_neg same] at closed
        exact absurd rfl (closed quote)

/-! ## Blocks -/

/-- A token that neither opens nor closes a block. -/
def Loose (token : List Char) : Prop :=
  isOpening token = false ∧ token ≠ closing

instance (token : List Char) : Decidable (Loose token) :=
  inferInstanceAs (Decidable (_ ∧ _))

/-- Tokens in which every block is closed that is opened, presets included. -/
inductive Nested : List (List Char) → Prop
  | nil : Nested []
  | loose {token : List Char} {rest : List (List Char)} (loose : Loose token)
      (behind : Nested rest) : Nested (token :: rest)
  | block {opening : List Char} {inner rest : List (List Char)}
      (opens : isOpening opening = true) (inside : Nested inner) (behind : Nested rest) :
      Nested (opening :: (inner ++ closing :: rest))

/-- Tokens at the top level of a bank that give no preset: those of no block, or one block that
is no preset. -/
inductive Unknown : List (List Char) → Prop
  | loose {found : List (List Char)} (each : ∀ token ∈ found, Loose token) : Unknown found
  | block {opening : List Char} {inner : List (List Char)} (opens : isOpening opening = true)
      (other : opening ≠ presetOpening) (inside : Nested inner) :
      Unknown (opening :: (inner ++ [closing]))

/-- Tokens behind the name of a bank that end at its top level. -/
inductive Items : List (List Char) → Prop
  | nil : Items []
  | unknown {item rest : List (List Char)} (unknown : Unknown item) (behind : Items rest) :
      Items (item ++ rest)
  | preset {name : List Char} {chunks rest : List (List Char)}
      (inside : ∀ chunk ∈ chunks, chunk ≠ closing) (behind : Items rest) :
      Items (presetOpening :: name :: (chunks ++ closing :: rest))

theorem skipBlock_loose {token : List Char} (loose : Loose token) (depth : Nat)
    (rest : List (List Char)) : skipBlock depth (token :: rest) = skipBlock depth rest := by
  simp [skipBlock, loose.1, loose.2]

theorem skipBlock_opening {opening : List Char} (opens : isOpening opening = true) (depth : Nat)
    (rest : List (List Char)) :
    skipBlock depth (opening :: rest) = skipBlock (depth + 1) rest := by
  simp [skipBlock, opens]

/-- The end of the block that is being passed over is not among nested tokens. -/
theorem skipBlock_nested {inner : List (List Char)} (nested : Nested inner) (depth : Nat)
    (rest : List (List Char)) : skipBlock depth (inner ++ rest) = skipBlock depth rest := by
  induction nested generalizing depth rest with
  | nil => rfl
  | loose loose behind ih => rw [List.cons_append, skipBlock_loose loose, ih]
  | @block opening inner behind opens inside nested inner_ih behind_ih =>
      calc skipBlock depth (opening :: (inner ++ closing :: behind) ++ rest)
          = skipBlock (depth + 1) (inner ++ (closing :: (behind ++ rest))) := by
            rw [List.cons_append, skipBlock_opening opens, List.append_assoc, List.cons_append]
        _ = skipBlock (depth + 1) (closing :: (behind ++ rest)) := inner_ih _ _
        _ = skipBlock depth (behind ++ rest) := rfl
        _ = skipBlock depth rest := behind_ih depth rest

/-- What a token that is not that of a preset does to the tokens behind it. -/
theorem presetsBehind_cons {token : List Char} (other : token ≠ presetOpening)
    (done : List Preset) (rest : List (List Char)) : presetsBehind done (token :: rest) =
      if token == closing then .ok done.reverse
      else if isOpening token then presetsBehind done (skipBlock 0 rest)
      else presetsBehind done rest := by
  rw [presetsBehind.eq_def]
  simp only [if_neg (show ¬ (token == presetOpening) = true by simpa using other)]

/-- A preset is read from the chunks up to the end of its block. -/
theorem presetsBehind_preset {name : List Char} {chunks : List (List Char)}
    (inside : ∀ chunk ∈ chunks, chunk ≠ closing) (done : List Preset) (rest : List (List Char)) :
    presetsBehind done (presetOpening :: name :: (chunks ++ closing :: rest)) =
      (presetOfChunks name chunks).bind fun preset => presetsBehind (preset :: done) rest := by
  have each : ∀ chunk ∈ chunks, (chunk != closing) = true :=
    fun chunk member => bne_iff_ne.mpr (inside chunk member)
  rw [presetsBehind, if_neg (by decide), if_pos (by decide),
    List.takeWhile_append_of_pos each, List.dropWhile_append_of_pos each,
    List.takeWhile_cons_of_neg (by simp), List.dropWhile_cons_of_neg (by simp), List.append_nil,
    List.drop_one, List.tail_cons]
  cases presetOfChunks name chunks <;> rfl

theorem presetsBehind_loose {token : List Char} (loose : Loose token) (done : List Preset)
    (rest : List (List Char)) : presetsBehind done (token :: rest) = presetsBehind done rest := by
  have other : token ≠ presetOpening := by
    rintro rfl
    exact absurd loose.1 (by decide)
  rw [presetsBehind_cons other, if_neg (by simpa using loose.2), if_neg (by simp [loose.1])]

/-- Unknown tokens are passed over as a whole. -/
theorem presetsBehind_unknown {item : List (List Char)} (unknown : Unknown item)
    (done : List Preset) (rest : List (List Char)) :
    presetsBehind done (item ++ rest) = presetsBehind done rest := by
  cases unknown with
  | loose each =>
      induction item with
      | nil => rfl
      | cons token item ih =>
          rw [List.forall_mem_cons] at each
          rw [List.cons_append, presetsBehind_loose each.1, ih each.2]
  | @block opening inner opens other inside =>
      have notClosing : opening ≠ closing := by
        rintro rfl
        exact absurd opens (by decide)
      rw [List.cons_append, presetsBehind_cons other, if_neg (by simpa using notClosing),
        if_pos opens, List.append_assoc, skipBlock_nested inside]
      rfl

/-- At the top level of a bank unknown tokens change nothing, whatever has been read in front of
them and comes behind. -/
theorem presetsBehind_insert {front item : List (List Char)} (items : Items front)
    (unknown : Unknown item) (done : List Preset) (back : List (List Char)) :
    presetsBehind done (front ++ (item ++ back)) = presetsBehind done (front ++ back) := by
  induction items generalizing done with
  | nil => exact presetsBehind_unknown unknown done back
  | unknown first behind ih =>
      rw [List.append_assoc, List.append_assoc, presetsBehind_unknown first,
        presetsBehind_unknown first, ih]
  | preset inside behind ih =>
      simp only [List.cons_append, List.append_assoc, presetsBehind_preset inside, ih]

/-! ## Texts -/

/-- Between the two pieces of the text of a bank is a place at its top level: behind the header,
the name and some whole items, and outside every token. -/
structure TopLevel (front back : List Char) : Prop where
  apart : Apart front back
  items : ∃ header name found, tokens front = header :: name :: found ∧ Items found

/-- A text with unknown content that can be put between the tokens of another. -/
structure Insertable (inserted : List Char) : Prop where
  begins : ∃ blank ∈ inserted.head?, isBlank blank = true
  ends : ∃ blank ∈ inserted.getLast?, isBlank blank = true
  closed : QuotesClosed inserted
  unknown : Unknown (tokens inserted)

/-- The tokens of unknown content stand between those in front of it and behind it. -/
theorem tokens_insert {front inserted back : List Char} (apart : Apart front back)
    (insertable : Insertable inserted) :
    tokens (front ++ (inserted ++ back)) = tokens front ++ (tokens inserted ++ tokens back) := by
  have behind : placeBehind inserted = .between :=
    placeBehind_eq_between insertable.closed insertable.ends
  have before : Apart front (inserted ++ back) := by
    rcases insertable.begins with ⟨blank, first, blankFirst⟩
    cases place : placeBehind front with
    | between => exact .of_between place _
    | inWord =>
        rw [Apart, place, List.head?_append, first, Option.some_or]
        intro c same
        cases same
        exact blankFirst
    | inQuotes quote =>
        rw [Apart, place] at apart
        exact apart.elim
  rw [tokens_append before, tokens_append (.of_between behind back)]

/-- Unknown content at the top level of a bank does not change what is read. -/
theorem parse_insert {front inserted back : String}
    (topLevel : TopLevel (onOneLine front.toList) (onOneLine back.toList))
    (insertable : Insertable (onOneLine inserted.toList)) :
    parse (front ++ inserted ++ back) = parse (front ++ back) := by
  rcases topLevel.items with ⟨header, name, found, split, items⟩
  have whole : tokens (onOneLine (front ++ back).toList) =
      header :: name :: (found ++ tokens (onOneLine back.toList)) := by
    rw [String.toList_append, onOneLine_append, tokens_append topLevel.apart, split]
    rfl
  have extended : tokens (onOneLine (front ++ inserted ++ back).toList) =
      header :: name :: (found ++ (tokens (onOneLine inserted.toList) ++
        tokens (onOneLine back.toList))) := by
    rw [String.toList_append, String.toList_append, onOneLine_append, onOneLine_append,
      List.append_assoc, tokens_insert topLevel.apart insertable, split]
    rfl
  rw [onOneLine] at whole extended
  simp only [parse, whole, extended, List.drop_one, List.tail_cons, List.head?_cons,
    presetsBehind_insert items insertable.unknown]

/-- A block with a nested preset and a name in quotes in it, between two presets. -/
theorem parse_insert_nested :
    let front := "<LIBRARY 'a bank'\n<PRESET x MC41AAE=\n>"
    let inserted := "\n<EXTRA \"> <\"\n  <PRESET y\n  >\n>\n"
    let back := "\n<PRESET z MC41AAE=\n>\n>"
    let preset (name : String) : Preset := ⟨name, ⟨[⟨0, 0.5⟩], Bytes.pack [1]⟩⟩
    TopLevel (onOneLine front.toList) (onOneLine back.toList) ∧
      Insertable (onOneLine inserted.toList) ∧
        parse (front ++ back) = .ok ⟨"a bank", [preset "x", preset "z"]⟩ ∧
          parse (front ++ inserted ++ back) = .ok ⟨"a bank", [preset "x", preset "z"]⟩ := by
  intro front inserted back preset
  have cut : placeBehind (onOneLine front.toList) = .inWord := by decide +kernel
  have gap : (onOneLine back.toList).head? = some ' ' := by decide +kernel
  have closed : placeBehind (onOneLine inserted.toList) = .between := by decide +kernel
  have frontTokens : tokens (onOneLine front.toList) = ["<LIBRARY".toList, "a bank".toList,
      presetOpening, "x".toList, "MC41AAE=".toList, closing] := by decide +kernel
  have insertedTokens : tokens (onOneLine inserted.toList) = ["<EXTRA".toList, "> <".toList,
      presetOpening, "y".toList, closing, closing] := by decide +kernel
  have topLevel : TopLevel (onOneLine front.toList) (onOneLine back.toList) :=
    { apart := by
        rw [Apart, cut, gap]
        intro c same
        cases same
        rfl
      items := ⟨_, _, _, frontTokens, @Items.preset _ ["MC41AAE=".toList] [] (by decide) .nil⟩ }
  have nested : Nested ["> <".toList, presetOpening, "y".toList, closing] :=
    .loose (by decide) (@Nested.block presetOpening ["y".toList] [] (by decide)
      (.loose (by decide) .nil) .nil)
  have insertable : Insertable (onOneLine inserted.toList) :=
    { begins := ⟨' ', by decide +kernel, by decide⟩
      ends := ⟨' ', by decide +kernel, by decide⟩
      closed := fun quote => by
        rw [closed]
        exact Place.noConfusion
      unknown := insertedTokens ▸ .block (by decide) (by decide) nested }
  have read : parse (front ++ back) = .ok ⟨"a bank", [preset "x", preset "z"]⟩ := by
    decide +kernel
  exact ⟨topLevel, insertable, read, (parse_insert topLevel insertable).trans read⟩

end Bank
end EffectHost

import EffectHost.Preset.BankReader
import EffectHost.Preset.BankWriter
import EffectHost.Proofs.Bytes.Base64
import EffectHost.Proofs.Text.Utf8
import Mathlib.Data.Bool.AllAny

/-!
# Tokens of a written bank

The text of a bank is put together from pieces that each end where a token ends, and so its
tokens are those of its pieces in order.  A name gives one token, whatever characters stand in
it, as long as it is on one line and one of the quotes does not occur in it.
-/

namespace EffectHost
namespace Bank

open Text

/-! ## Tokens one by one -/

theorem tokensBehind_append (done earlier : List (List Char)) (text : List Char) :
    tokensBehind (done ++ earlier) text = earlier.reverse ++ tokensBehind done text := by
  fun_induction tokensBehind done text with
  | case1 done => rw [tokensBehind, List.reverse_append]
  | case2 done c rest blank ih => rw [tokensBehind, if_pos blank, ih]
  | case3 done c rest solid opens ih =>
      rw [tokensBehind, if_neg solid, if_pos opens, ← List.cons_append, ih]
  | case4 done c rest solid bare ih =>
      rw [tokensBehind, if_neg solid, if_neg bare, ← List.cons_append, ih]

/-- The tokens that have been found already stand in front. -/
theorem tokensBehind_eq (earlier : List (List Char)) (text : List Char) :
    tokensBehind earlier text = earlier.reverse ++ tokens text :=
  tokensBehind_append [] earlier text

@[simp] theorem tokens_nil : tokens [] = [] := by
  rw [tokens, tokensBehind, List.reverse_nil]

theorem tokens_blank {c : Char} (blank : isBlank c = true) (rest : List Char) :
    tokens (c :: rest) = tokens rest := by
  rw [tokens, tokensBehind, if_pos blank, tokens]

theorem isQuote_iff {c : Char} : isQuote c = true ↔ c ∈ ['`', '"', '\''] := by
  simp only [isQuote, Bool.or_eq_true, beq_iff_eq, List.mem_cons, List.not_mem_nil, or_false]
  constructor
  · rintro ((rfl | rfl) | rfl) <;> simp
  · rintro (rfl | rfl | rfl) <;> simp

theorem isBlank_quote {quote : Char} (opens : isQuote quote = true) : isBlank quote = false := by
  have each : ∀ quote ∈ ['`', '"', '\''], isBlank quote = false :=
    List.all_iff_forall_prop.mp (by decide)
  exact each quote (isQuote_iff.mp opens)

/-- What stands between two quotes is one token, blanks included. -/
theorem tokens_quoted {quote : Char} (opens : isQuote quote = true) {name : List Char}
    (free : quote ∉ name) (rest : List Char) :
    tokens (quote :: (name ++ quote :: rest)) = name :: tokens rest := by
  have inside : ∀ c ∈ name, (c != quote) = true := by
    intro c member
    exact bne_iff_ne.mpr fun same => free (same ▸ member)
  rw [tokens, tokensBehind, if_neg (by simp [isBlank_quote opens]), if_pos opens,
    List.takeWhile_append_of_pos inside, List.dropWhile_append_of_pos inside,
    List.takeWhile_cons_of_neg (by simp), List.dropWhile_cons_of_neg (by simp),
    List.append_nil, List.drop_one, List.tail_cons, tokensBehind_eq]
  rfl

/-- A word that does not begin with a quote is one token. -/
theorem tokens_word {c : Char} {word : List Char} (bare : isQuote c = false)
    (solid : ∀ d ∈ c :: word, isBlank d = false) {blank : Char} (ends : isBlank blank = true)
    (rest : List Char) :
    tokens (c :: word ++ blank :: rest) = (c :: word) :: tokens rest := by
  rw [List.forall_mem_cons] at solid
  have inside : ∀ d ∈ word, (!isBlank d) = true := by
    intro d member
    rw [solid.2 d member]
    rfl
  rw [List.cons_append, tokens, tokensBehind, if_neg (by simp [solid.1]), if_neg (by simp [bare]),
    List.takeWhile_append_of_pos inside, List.dropWhile_append_of_pos inside,
    List.takeWhile_cons_of_neg (by simp [ends]), List.dropWhile_cons_of_neg (by simp [ends]),
    List.append_nil, tokensBehind_eq, tokens_blank ends]
  rfl

/-! ## Pieces of text -/

/-- A text with its line breaks turned into blanks. -/
def onOneLine (text : List Char) : List Char :=
  text.map fun c => if c == '\r' || c == '\n' then ' ' else c

theorem onOneLine_append (first second : List Char) :
    onOneLine (first ++ second) = onOneLine first ++ onOneLine second :=
  List.map_append

/-- The piece of text gives the tokens, whatever stands behind it. -/
def Spells (text : List Char) (found : List (List Char)) : Prop :=
  ∀ rest, tokens (onOneLine text ++ rest) = found ++ tokens rest

namespace Spells

variable {first second : List Char} {found more : List (List Char)}

theorem nil : Spells [] [] := fun _ => rfl

theorem append (one : Spells first found) (two : Spells second more) :
    Spells (first ++ second) (found ++ more) := by
  intro rest
  rw [onOneLine_append, List.append_assoc]
  exact (one _).trans (by rw [List.append_assoc]; exact congrArg (found ++ ·) (two rest))

/-- Pieces in a row give their tokens in a row. -/
theorem flatMap {Piece : Type} {pieces : List Piece} {text : Piece → List Char}
    {found : Piece → List (List Char)}
    (each : ∀ piece ∈ pieces, Spells (text piece) (found piece)) :
    Spells (pieces.flatMap text) (pieces.flatMap found) := by
  induction pieces with
  | nil => exact nil
  | cons piece others ih =>
      rw [List.forall_mem_cons] at each
      exact append each.1 (ih each.2)

theorem tokens_eq (spelled : Spells first found) : tokens (onOneLine first) = found := by
  have whole := spelled []
  rwa [List.append_nil, tokens_nil, List.append_nil] at whole

/-- Blanks and line breaks give nothing. -/
theorem blanks {gap : List Char} (blank : gap.all isBlank = true) : Spells gap [] := by
  rw [List.all_eq_true] at blank
  intro rest
  induction gap with
  | nil => rfl
  | cons c others ih =>
      rw [List.forall_mem_cons] at blank
      have flat : isBlank (if c == '\r' || c == '\n' then ' ' else c) = true := by
        split
        · rfl
        · exact blank.1
      rw [onOneLine, List.map_cons, List.cons_append, tokens_blank flat]
      exact ih blank.2

end Spells

/-- Text without line breaks stays as it is. -/
theorem onOneLine_eq {text : List Char} (single : ∀ c ∈ text, c ≠ '\r' ∧ c ≠ '\n') :
    onOneLine text = text := by
  have same : ∀ c ∈ text, (if c == '\r' || c == '\n' then ' ' else c) = c := by
    intro c member
    rw [if_neg]
    simp [single c member]
  rw [onOneLine, List.map_congr_left same, List.map_id']

/-- Characters that are not blank end no line. -/
theorem ne_lineEnd {c : Char} (solid : isBlank c = false) : c ≠ '\r' ∧ c ≠ '\n' := by
  constructor <;> rintro rfl <;> cases solid

/-- The characters of words that are written bare. -/
structure Solid (c : Char) : Prop where
  unblank : isBlank c = false
  unquoted : isQuote c = false

instance (c : Char) : Decidable (Solid c) :=
  decidable_of_iff (isBlank c = false ∧ isQuote c = false)
    ⟨fun both => ⟨both.1, both.2⟩, fun solid => ⟨solid.unblank, solid.unquoted⟩⟩

/-- A word is one token, with the blank or line break behind it. -/
theorem Spells.word {word : List Char} (nonempty : word ≠ []) (solid : ∀ c ∈ word, Solid c)
    {blank : Char} (ends : isBlank blank = true) : Spells (word ++ [blank]) [word] := by
  intro rest
  have unblank : ∀ c ∈ word, isBlank c = false := fun c member => (solid c member).unblank
  have flat : onOneLine word = word :=
    onOneLine_eq fun c member => ne_lineEnd (unblank c member)
  have blank' : isBlank (if blank == '\r' || blank == '\n' then ' ' else blank) = true := by
    split
    · rfl
    · exact ends
  rw [onOneLine_append, flat, List.append_assoc]
  cases word with
  | nil => exact absurd rfl nonempty
  | cons c word =>
      exact tokens_word (solid c (List.mem_cons_self ..)).unquoted unblank blank' rest

/-! ## Names -/

/-- One of the three quotes does not occur in the name. -/
def LacksQuote (name : String) : Prop :=
  ∃ quote, isQuote quote = true ∧ quote ∉ name.toList

instance (name : String) : Decidable (LacksQuote name) :=
  decidable_of_iff (['`', '"', '\''].any fun quote => quote ∉ name.toList)
    (List.any_iff_exists_prop.trans
      (exists_congr fun _ => and_congr_left fun _ => isQuote_iff.symm))

/-- A name that can be written: it is on one line, and one of the quotes does not occur in it. -/
structure Quotable (name : String) : Prop where
  oneLine : ∀ c ∈ name.toList, c ≠ '\r' ∧ c ≠ '\n'
  lacksQuote : LacksQuote name

instance (name : String) : Decidable (Quotable name) :=
  decidable_of_iff ((name.toList.all fun c => c ≠ '\r' ∧ c ≠ '\n') ∧ LacksQuote name)
    ⟨fun both => ⟨List.all_iff_forall_prop.mp both.1, both.2⟩,
      fun quotable => ⟨List.all_iff_forall_prop.mpr quotable.oneLine, quotable.lacksQuote⟩⟩

/-- A name stands between two quotes that do not occur in it. -/
theorem exists_quoted {name : String} (lacks : LacksQuote name) :
    ∃ quote, isQuote quote = true ∧ quote ∉ name.toList ∧
      (quoted name).toList = quote :: (name.toList ++ [quote]) := by
  rcases lacks with ⟨free, opens, absent⟩
  cases chosen : ['`', '"', '\''].find? (fun quote => !name.toList.contains quote) with
  | none =>
      rw [List.find?_eq_none] at chosen
      exact absurd (by simpa using absent) (chosen free (isQuote_iff.mp opens))
  | some quote =>
      have member := List.mem_of_find?_eq_some chosen
      have unused := List.find?_some chosen
      refine ⟨quote, isQuote_iff.mpr member, by simpa using unused, ?_⟩
      rw [quoted, chosen, Option.getD_some, String.toList_ofList]
      rfl

/-- A name in which all quotes occur stands between two backquotes. -/
theorem toList_quoted_of_not_lacksQuote {name : String} (crowded : ¬ LacksQuote name) :
    '`' ∈ name.toList ∧ (quoted name).toList = '`' :: (name.toList ++ ['`']) := by
  have all : ∀ quote, isQuote quote = true → quote ∈ name.toList :=
    fun quote opens => Classical.byContradiction fun absent => crowded ⟨quote, opens, absent⟩
  have none : ['`', '"', '\''].find? (fun quote => !name.toList.contains quote) = none := by
    rw [List.find?_eq_none]
    intro quote member
    simpa using all quote (isQuote_iff.mpr member)
  refine ⟨all '`' (by decide), ?_⟩
  rw [quoted, none, Option.getD_none, String.toList_ofList]
  rfl

/-- A name in which all quotes occur ends at the first backquote in it, and so another token is
found in its place. -/
theorem tokens_quoted_of_not_lacksQuote {name : String} (crowded : ¬ LacksQuote name)
    (rest : List Char) : ∃ found more,
      tokens (onOneLine (quoted name).toList ++ rest) = found :: more ∧ found ≠ name.toList := by
  rcases toList_quoted_of_not_lacksQuote crowded with ⟨inside, written⟩
  have flat : onOneLine (quoted name).toList ++ rest =
      '`' :: (onOneLine (name.toList ++ ['`']) ++ rest) := by
    rw [written]
    rfl
  refine ⟨(onOneLine (name.toList ++ ['`']) ++ rest).takeWhile (· != '`'),
    tokens (((onOneLine (name.toList ++ ['`']) ++ rest).dropWhile (· != '`')).drop 1), ?_, ?_⟩
  · rw [flat, tokens, tokensBehind, if_neg (by decide), if_pos (by decide), tokensBehind_eq]
    rfl
  · intro same
    rw [← same] at inside
    simpa using List.all_eq_true.mp List.all_takeWhile _ inside

/-- A quoted name is one token. -/
theorem Spells.quoted {name : String} (quotable : Quotable name) :
    Spells (quoted name).toList [name.toList] := by
  intro rest
  rcases exists_quoted quotable.lacksQuote with ⟨quote, opens, absent, written⟩
  have ends : quote ≠ '\r' ∧ quote ≠ '\n' := ne_lineEnd (isBlank_quote opens)
  have flat : onOneLine (Bank.quoted name).toList = quote :: (name.toList ++ [quote]) := by
    rw [written]
    apply onOneLine_eq
    simp only [List.mem_cons, List.mem_append, List.not_mem_nil, or_false]
    rintro c (rfl | member | rfl)
    · exact ends
    · exact quotable.oneLine c member
    · exact ends
  rw [flat, List.cons_append, List.append_assoc]
  exact tokens_quoted opens absent rest

/-! ## Lines of Base64 -/

theorem flatten_cut (width : Nat) (symbols : List Char) :
    (cut width symbols).flatten = symbols := by
  fun_induction cut width symbols with
  | case1 => rfl
  | case2 first rest ih =>
      rw [List.flatten_cons, ih, List.cons_append, List.take_append_drop]

theorem ne_nil_of_mem_cut {width : Nat} {symbols line : List Char}
    (member : line ∈ cut width symbols) : line ≠ [] := by
  fun_induction cut width symbols with
  | case1 => cases member
  | case2 first rest ih =>
      rcases List.mem_cons.mp member with rfl | behind
      · exact List.cons_ne_nil _ _
      · exact ih behind

/-- The characters in which a state is written. -/
def symbols (state : EffectState) : List Char :=
  (Base64.encode (blob state)).map fun byte => Char.ofNat byte.toNat

/-- What the reader needs to know of the characters of Base64. -/
structure SymbolChar (byte : UInt8) : Prop where
  solid : Solid (Char.ofNat byte.toNat)
  ne_closing : Char.ofNat byte.toNat ≠ '>'
  utf8 : String.utf8EncodeChar (Char.ofNat byte.toNat) = [byte]

theorem symbolChar_of_written {byte : UInt8} (written : Base64.Written byte) : SymbolChar byte := by
  have each : ∀ value : Fin 64, isBlank (Char.ofNat (Base64.symbol value).toNat) = false ∧
      isQuote (Char.ofNat (Base64.symbol value).toNat) = false ∧
      Char.ofNat (Base64.symbol value).toNat ≠ '>' ∧
      String.utf8EncodeChar (Char.ofNat (Base64.symbol value).toNat) = [Base64.symbol value] := by
    decide
  rcases written with rfl | ⟨value, rfl⟩
  · exact ⟨⟨by decide, by decide⟩, by decide, by decide⟩
  · rcases each value with ⟨unblank, unquoted, other, bytes⟩
    exact ⟨⟨unblank, unquoted⟩, other, bytes⟩

theorem symbolChar_of_mem_encode {bytes : List UInt8} {byte : UInt8}
    (member : byte ∈ Base64.encode bytes) : SymbolChar byte :=
  symbolChar_of_written (Base64.written_of_mem_encode byte member)

/-- The lines of a preset consist of characters of Base64. -/
theorem mem_symbols_of_mem_cut {width : Nat} {state : EffectState} {line : List Char}
    (member : line ∈ cut width (symbols state)) : ∀ c ∈ line, Solid c ∧ c ≠ '>' := by
  intro c inside
  have whole : c ∈ symbols state := by
    rw [← flatten_cut width (symbols state)]
    exact List.mem_flatten_of_mem member inside
  rcases List.mem_map.mp whole with ⟨byte, written, rfl⟩
  have char := symbolChar_of_mem_encode written
  exact ⟨char.solid, char.ne_closing⟩

/-- The bytes of a text of Base64 are its symbols. -/
theorem encode_symbols (state : EffectState) :
    (Utf8.encode (String.ofList (symbols state))).data.toList = Base64.encode (blob state) := by
  have each : ∀ bytes : List UInt8, (∀ byte ∈ bytes, SymbolChar byte) →
      (bytes.map fun byte => Char.ofNat byte.toNat).flatMap String.utf8EncodeChar = bytes := by
    intro bytes written
    induction bytes with
    | nil => rfl
    | cons byte others ih =>
        rw [List.forall_mem_cons] at written
        rw [List.map_cons, List.flatMap_cons, written.1.utf8, ih written.2]
        rfl
  rw [Utf8.toList_encode, String.toList_ofList, symbols]
  exact each _ fun byte member => symbolChar_of_mem_encode member

/-! ## Presets -/

/-- The lines in which the state of a preset is written. -/
def chunks (preset : Preset) : List (List Char) :=
  cut (lineWidth - 1) (symbols preset.state)

/-- The tokens of a preset. -/
def presetTokens (preset : Preset) : List (List Char) :=
  presetOpening :: preset.name.toList :: (chunks preset ++ [closing])

/-- A line of Base64 is one token. -/
theorem Spells.chunk {preset : Preset} {line : List Char} (member : line ∈ chunks preset) :
    Spells ("    ".toList ++ (line ++ ['\n'])) [line] := by
  have gap : Spells "    ".toList [] := Spells.blanks (by decide)
  apply gap.append
  apply Spells.word (ne_nil_of_mem_cut member) _ (by decide)
  exact fun c inside => (mem_symbols_of_mem_cut member c inside).1

/-- The text of a preset. -/
def presetText (preset : Preset) : List Char :=
  (presetLines preset).flatMap fun line => line.toList ++ ['\n']

/-- The text behind the name of a preset. -/
def bodyText (preset : Preset) : List Char :=
  ((chunks preset).flatMap fun line => "    ".toList ++ (line ++ ['\n'])) ++ "  >\n".toList

theorem presetText_eq (preset : Preset) : presetText preset =
    "  <PRESET ".toList ++ (((quoted preset.name).toList ++ ['\n']) ++ bodyText preset) := by
  have same : (Base64.encode (blob preset.state)).map (fun byte => Char.ofNat byte.toNat) =
      symbols preset.state := rfl
  simp [presetText, bodyText, presetLines, List.flatMap_map, chunks, same]

theorem Spells.presetOpening : Spells "  <PRESET ".toList [presetOpening] := by
  have gap : Spells "  ".toList [] := Spells.blanks (by decide)
  have word : Spells (Bank.presetOpening ++ [' ']) [Bank.presetOpening] :=
    Spells.word (by decide) (List.all_iff_forall_prop.mp (by decide)) (by decide)
  exact gap.append word

theorem Spells.ending : Spells (closing ++ ['\n']) [closing] :=
  Spells.word (by decide) (List.all_iff_forall_prop.mp (by decide)) (by decide)

/-- The lines of a preset give its tokens. -/
theorem Spells.preset {preset : Preset} (quotable : Quotable preset.name) :
    Spells (presetText preset) (presetTokens preset) := by
  have last : Spells "  >\n".toList [closing] := by
    have gap : Spells "  ".toList [] := Spells.blanks (by decide)
    exact gap.append Spells.ending
  have name : Spells ((Bank.quoted preset.name).toList ++ ['\n']) [preset.name.toList] :=
    (Spells.quoted quotable).append (Spells.blanks (by decide))
  have lines : Spells ((chunks preset).flatMap fun line => "    ".toList ++ (line ++ ['\n']))
      ((chunks preset).flatMap fun line => [line]) :=
    Spells.flatMap fun line member => Spells.chunk member
  have whole := Spells.presetOpening.append (name.append (lines.append last))
  rw [presetText_eq, bodyText]
  simpa [presetTokens] using whole

/-- The word that opens a bank. -/
def libraryOpening : List Char := "<REAPER_PRESET_LIBRARY".toList

theorem Spells.libraryOpening : Spells (libraryOpening ++ [' ']) [libraryOpening] :=
  Spells.word (by decide) (List.all_iff_forall_prop.mp (by decide)) (by decide)

/-- The text of some presets and the end of the bank behind them. -/
def presetsText (presets : List Preset) : List Char :=
  presets.flatMap presetText ++ (closing ++ ['\n'])

theorem presetsText_cons (preset : Preset) (others : List Preset) :
    presetsText (preset :: others) = presetText preset ++ presetsText others :=
  List.append_assoc ..

theorem toList_toText (bank : Bank) : (toText bank).toList = libraryOpening ++ [' '] ++
    (((quoted bank.name).toList ++ ['\n']) ++ presetsText bank.presets) := by
  have opening : "<REAPER_PRESET_LIBRARY ".toList = libraryOpening ++ [' '] := rfl
  have texts : presetText = fun preset =>
      (presetLines preset).flatMap fun line => line.toList ++ ['\n'] := rfl
  simp [toText, presetsText, texts, opening, List.flatMap_map, List.flatMap_assoc, closing]

/-- The tokens of a bank are its header, its name and what its presets give. -/
theorem tokens_toText {bank : Bank} (named : Quotable bank.name)
    (presetsNamed : ∀ preset ∈ bank.presets, Quotable preset.name) :
    tokens (onOneLine (toText bank).toList) =
      libraryOpening :: bank.name.toList :: (bank.presets.flatMap presetTokens ++ [closing]) := by
  have name : Spells ((quoted bank.name).toList ++ ['\n']) [bank.name.toList] :=
    (Spells.quoted named).append (Spells.blanks (by decide))
  have presets : Spells (bank.presets.flatMap presetText) (bank.presets.flatMap presetTokens) :=
    Spells.flatMap fun preset member => Spells.preset (presetsNamed preset member)
  rw [toList_toText]
  exact (Spells.libraryOpening.append (name.append (presets.append Spells.ending))).tokens_eq

/-! ## Reading the tokens -/

/-- What is read for a preset from its tokens. -/
def reread (preset : Preset) : Preset :=
  ⟨preset.name, stateOfBlob (blob preset.state)⟩

/-- The blob of a preset comes back from its lines. -/
theorem presetOfChunks_chunks (preset : Preset) :
    presetOfChunks preset.name.toList (chunks preset) =
      .ok (reread preset) := by
  rw [presetOfChunks, chunks, flatten_cut, encode_symbols, Base64.decode_encode]
  simp [reread]

/-- A preset comes back from its tokens, whatever stands behind them. -/
theorem presetsBehind_append (done : List Preset) (preset : Preset) (rest : List (List Char)) :
    presetsBehind done (presetTokens preset ++ rest) =
      presetsBehind (reread preset :: done) rest := by
  have lines : ∀ line ∈ chunks preset, (line != closing) = true := by
    intro line member
    rw [bne_iff_ne]
    rintro rfl
    exact (mem_symbols_of_mem_cut member '>' (by decide)).2 rfl
  rw [presetTokens]
  simp only [List.cons_append, List.append_assoc]
  rw [presetsBehind, if_neg (by decide), if_pos (by decide)]
  simp only [List.takeWhile_append_of_pos lines, List.dropWhile_append_of_pos lines,
    List.nil_append, List.takeWhile_cons_of_neg, List.dropWhile_cons_of_neg, bne_self_eq_false,
    Bool.false_eq_true, not_false_eq_true, List.append_nil, presetOfChunks_chunks,
    List.drop_one, List.tail_cons]

/-- The presets come back from their tokens. -/
theorem presetsBehind_presetTokens (presets done : List Preset) :
    presetsBehind done (presets.flatMap presetTokens ++ [closing]) =
      .ok (done.reverse ++ presets.map reread) := by
  induction presets generalizing done with
  | nil =>
      rw [List.flatMap_nil, List.nil_append, presetsBehind, if_pos (by decide)]
      simp
  | cons preset others ih =>
      rw [List.flatMap_cons, List.append_assoc, presetsBehind_append, ih, List.reverse_cons,
        List.append_assoc, List.map_cons, List.singleton_append]

/-- The text of a bank is read as the bank, with what its states are written as. -/
theorem parse_toText {bank : Bank} (named : Quotable bank.name)
    (presetsNamed : ∀ preset ∈ bank.presets, Quotable preset.name) :
    parse (toText bank) = .ok ⟨bank.name, bank.presets.map reread⟩ := by
  have found := tokens_toText named presetsNamed
  rw [onOneLine] at found
  rw [parse, found]
  dsimp only
  rw [if_pos (by decide), List.drop_one, List.tail_cons, presetsBehind_presetTokens]
  simp [Except.map]

end Bank
end EffectHost

import EffectHost.Proofs.Preset.Blob
import EffectHost.Proofs.Preset.Tokens

/-!
# Banks come back from their texts

A bank comes back from its text as far as its states can be kept, if every name can be put
between quotes.  A bank that has been read has no other states, but it may have a name with all
three quotes in it: such a name can be read without quotes around it, and no quotes can be put
around it that do not end it early.
-/

namespace EffectHost

deriving instance DecidableEq for SliderValue, EffectState, Preset, Bank

namespace Bank

open Text Number

/-- The bank with the states that it keeps. -/
def kept (bank : Bank) : Bank :=
  { bank with presets := bank.presets.map fun preset => { preset with state := preset.state.kept } }

/-- No slider of the bank has a value that is not a number. -/
def Numeric (bank : Bank) : Prop :=
  ∀ preset ∈ bank.presets, ∀ entry ∈ preset.state.sliders, reading entry.value ≠ .nan

instance (bank : Bank) : Decidable bank.Numeric :=
  inferInstanceAs (Decidable (∀ preset ∈ bank.presets, ∀ entry ∈ preset.state.sliders, _))

/-- The name of the bank and those of its presets. -/
def names (bank : Bank) : List String :=
  bank.name :: bank.presets.map Preset.name

theorem map_reread {presets : List Preset}
    (numeric : ∀ preset ∈ presets, ∀ entry ∈ preset.state.sliders, reading entry.value ≠ .nan) :
    presets.map reread = presets.map fun preset => { preset with state := preset.state.kept } := by
  apply List.map_congr_left
  intro preset member
  rw [reread, stateOfBlob_blob (numeric preset member)]

/-- A bank comes back from its text with the states that it keeps. -/
theorem parse_toText_eq_kept {bank : Bank} (quotable : ∀ name ∈ bank.names, Quotable name)
    (numeric : bank.Numeric) : parse (toText bank) = .ok bank.kept := by
  rw [names, List.forall_mem_cons, List.forall_mem_map] at quotable
  rw [parse_toText quotable.1 quotable.2, map_reread numeric, kept]

/-- Names that look like tokens of the bank, a slot with two values and one past the last. -/
theorem parse_toText_eq_kept_tokens :
    let bank : Bank := ⟨">",
      [⟨"<PRESET", ⟨[⟨5, 1.5⟩, ⟨64, 2⟩, ⟨0, -0.25⟩, ⟨5, 0.1⟩], Bytes.pack [0, 62, 0]⟩⟩,
        ⟨"", ⟨[], Bytes.pack []⟩⟩, ⟨" `it's` ", ⟨[⟨63, 1000⟩], Bytes.pack [10]⟩⟩]⟩
    let again : Bank := ⟨">",
      [⟨"<PRESET", ⟨[⟨0, -0.25⟩, ⟨5, 0.1⟩], Bytes.pack [0, 62, 0]⟩⟩,
        ⟨"", ⟨[], Bytes.pack []⟩⟩, ⟨" `it's` ", ⟨[⟨63, 1000⟩], Bytes.pack [10]⟩⟩]⟩
    (∀ name ∈ bank.names, Quotable name) ∧ bank.Numeric ∧ parse (toText bank) = .ok again := by
  intro bank again
  have quotable : ∀ name ∈ bank.names, Quotable name := by decide
  have numeric : bank.Numeric := by decide
  have same : bank.kept = again := by decide +kernel
  exact ⟨quotable, numeric, same ▸ parse_toText_eq_kept quotable numeric⟩

/-! ## Banks that have been read -/

/-- Tokens consist of characters of the text. -/
theorem mem_of_mem_tokens {text token : List Char} (found : token ∈ tokens text) :
    ∀ c ∈ token, c ∈ text := by
  have behind : ∀ (done : List (List Char)) (text : List Char),
      ∀ token ∈ tokensBehind done text, token ∈ done ∨ ∀ c ∈ token, c ∈ text := by
    intro done text
    fun_induction tokensBehind done text with
    | case1 done => exact fun token found => .inl (List.mem_reverse.mp found)
    | case2 done c rest blank ih =>
        intro token found
        rcases ih token found with old | inside
        · exact .inl old
        · exact .inr fun d member => List.mem_cons_of_mem c (inside d member)
    | case3 done c rest solid opens ih =>
        intro token found
        rcases ih token found with old | inside
        · rcases List.mem_cons.mp old with rfl | old
          · exact .inr fun d member =>
              List.mem_cons_of_mem c ((List.takeWhile_sublist _).subset member)
          · exact .inl old
        · exact .inr fun d member => List.mem_cons_of_mem c
            ((List.dropWhile_suffix _).subset (List.mem_of_mem_drop (inside d member)))
    | case4 done c rest solid bare ih =>
        intro token found
        rcases ih token found with old | inside
        · rcases List.mem_cons.mp old with rfl | old
          · refine .inr (List.forall_mem_cons.mpr ⟨List.mem_cons_self .., fun d member => ?_⟩)
            exact List.mem_cons_of_mem c ((List.takeWhile_sublist _).subset member)
          · exact .inl old
        · exact .inr fun d member =>
            List.mem_cons_of_mem c ((List.dropWhile_suffix _).subset (inside d member))
  rcases behind [] text token found with none | inside
  · cases none
  · exact inside

theorem skipBlock_subset (depth : Nat) (rest : List (List Char)) : skipBlock depth rest ⊆ rest := by
  induction rest generalizing depth with
  | nil => exact List.Subset.refl _
  | cons token rest ih =>
      simp only [skipBlock]
      split
      · exact List.subset_cons_of_subset token (ih _)
      · split
        · cases depth with
          | zero => exact List.subset_cons_self token rest
          | succ depth => exact List.subset_cons_of_subset token (ih _)
        · exact List.subset_cons_of_subset token (ih _)

/-- A preset has been read from the tokens of a text. -/
structure ReadFrom (text : List (List Char)) (preset : Preset) : Prop where
  name : preset.name.toList ∈ text
  state : ∃ blob, preset.state = stateOfBlob blob

theorem ReadFrom.mono {text more : List (List Char)} {preset : Preset} (read : ReadFrom text preset)
    (inside : text ⊆ more) : ReadFrom more preset :=
  ⟨inside read.name, read.state⟩

/-- The preset of some chunks has the name that stands in front of them. -/
theorem presetOfChunks_spec {name : List Char} {chunks : List (List Char)} {preset : Preset}
    (read : presetOfChunks name chunks = .ok preset) :
    preset.name = String.ofList name ∧ ∃ blob, preset.state = stateOfBlob blob := by
  rw [presetOfChunks] at read
  split at read
  · next blob decoded =>
      cases read
      exact ⟨rfl, blob, rfl⟩
  · cases read

/-- The presets that are read stand behind those that have been read already. -/
theorem presetsBehind_spec {done : List Preset} {text : List (List Char)} {presets : List Preset}
    (read : presetsBehind done text = .ok presets) :
    ∃ more, presets = done.reverse ++ more ∧ ∀ preset ∈ more, ReadFrom text preset := by
  fun_induction presetsBehind done text generalizing presets with
  | case1 done =>
      cases read
      exact ⟨[], by simp⟩
  | case2 done token rest closes =>
      cases read
      exact ⟨[], by simp⟩
  | case3 => cases read
  | case4 => cases read
  | case5 done token closes opens name body preset chunks ih =>
      rcases ih read with ⟨more, rfl, each⟩
      rcases presetOfChunks_spec chunks with ⟨named, state⟩
      refine ⟨preset :: more, by simp, List.forall_mem_cons.mpr ⟨⟨?_, state⟩, ?_⟩⟩
      · rw [named, String.toList_ofList]
        exact List.mem_cons_of_mem token (List.mem_cons_self ..)
      · refine fun other member => (each other member).mono fun behind inside => ?_
        have inBody := (List.dropWhile_suffix _).subset (List.mem_of_mem_drop inside)
        exact List.mem_cons_of_mem token (List.mem_cons_of_mem name inBody)
  | case6 done token rest closes opens other ih =>
      rcases ih read with ⟨more, rfl, each⟩
      refine ⟨more, rfl, fun preset member => (each preset member).mono ?_⟩
      exact List.subset_cons_of_subset token (skipBlock_subset 0 rest)
  | case7 done token rest closes opens other ih =>
      rcases ih read with ⟨more, rfl, each⟩
      exact ⟨more, rfl, fun preset member => (each preset member).mono (List.subset_cons_self ..)⟩

/-- The bank of a text stands behind its header. -/
theorem parse_spec {text : String} {bank : Bank} (read : parse text = .ok bank) :
    ∃ header rest, tokens (onOneLine text.toList) = header :: rest ∧
      bank.name = String.ofList (rest.head?.getD []) ∧
        presetsBehind [] (rest.drop 1) = .ok bank.presets := by
  rw [parse, ← onOneLine] at read
  split at read
  · cases read
  · next header rest split =>
      refine ⟨header, rest, split, ?_⟩
      split at read
      · cases found : presetsBehind [] (rest.drop 1) with
        | error fault =>
            rw [found] at read
            cases read
        | ok presets =>
            rw [found] at read
            cases read
            exact ⟨rfl, rfl⟩
      · cases read

/-- The names of a bank that has been read are on one line. -/
theorem oneLine_of_parse {text : String} {bank : Bank} (read : parse text = .ok bank) :
    ∀ name ∈ bank.names, ∀ c ∈ name.toList, c ≠ '\r' ∧ c ≠ '\n' := by
  rcases parse_spec read with ⟨header, rest, split, named, presets⟩
  have flat : ∀ token ∈ rest, ∀ c ∈ token, c ≠ '\r' ∧ c ≠ '\n' := by
    intro token listed c member
    have inside := mem_of_mem_tokens (split ▸ List.mem_cons_of_mem header listed) c member
    rcases List.mem_map.mp inside with ⟨old, -, rfl⟩
    split
    · decide
    · next other => simpa using other
  rw [names, List.forall_mem_cons, List.forall_mem_map]
  constructor
  · rw [named, String.toList_ofList]
    cases rest with
    | nil => simp
    | cons token rest => exact flat token (List.mem_cons_self ..)
  · rcases presetsBehind_spec presets with ⟨more, whole, each⟩
    intro preset member
    rw [whole] at member
    exact flat _ (List.mem_of_mem_drop (each preset member).name)

/-- A bank that has been read keeps its states. -/
theorem kept_of_parse {text : String} {bank : Bank} (read : parse text = .ok bank) :
    bank.kept = bank := by
  rcases parse_spec read with ⟨header, rest, -, -, presets⟩
  rcases presetsBehind_spec presets with ⟨more, whole, each⟩
  have states : ∀ preset ∈ bank.presets, ({ preset with state := preset.state.kept } : Preset) =
      preset := by
    intro preset member
    rw [whole] at member
    rcases (each preset member).state with ⟨blob, made⟩
    have sliders : keptSliders preset.state.sliders = preset.state.sliders := by
      rw [made]
      exact keptSliders_of_ordered (ordered_slidersOfWords _)
        fun entry listed => (mem_slidersOfWords.mp listed).1
    rw [EffectState.kept, sliders]
  rw [kept, List.map_congr_left states, List.map_id']

/-! ## Names that are lost -/

/-- The preset behind an opening token has the name that stands there. -/
theorem exists_of_presetsBehind_opening {done found : List Preset} {name : List Char}
    {body : List (List Char)}
    (read : presetsBehind done (presetOpening :: name :: body) = .ok found) :
    ∃ preset more, found = done.reverse ++ preset :: more ∧ preset.name = String.ofList name := by
  rw [presetsBehind, if_neg (by decide), if_pos (by decide)] at read
  split at read
  · cases read
  · next preset chunks =>
      rcases presetsBehind_spec read with ⟨more, rfl, -⟩
      exact ⟨preset, more, by simp, (presetOfChunks_spec chunks).1⟩

/-- Where the name of a preset has all three quotes in it, another name is found. -/
theorem tokens_presetsText_of_not_lacksQuote {preset : Preset} (crowded : ¬ LacksQuote preset.name)
    (others : List Preset) : ∃ name body,
      tokens (onOneLine (presetsText (preset :: others))) = presetOpening :: name :: body ∧
        name ≠ preset.name.toList := by
  let rest := onOneLine (['\n'] ++ bodyText preset ++ presetsText others)
  rcases tokens_quoted_of_not_lacksQuote crowded rest with ⟨name, body, found, other⟩
  refine ⟨name, body, ?_, other⟩
  have text : presetsText (preset :: others) = "  <PRESET ".toList ++
      ((quoted preset.name).toList ++ (['\n'] ++ bodyText preset ++ presetsText others)) := by
    rw [presetsText_cons, presetText_eq]
    simp only [List.append_assoc]
  rw [text, onOneLine_append, onOneLine_append, Spells.presetOpening, found, List.singleton_append]

/-- Presets of the same names come back only if each of the names lacks a quote. -/
theorem lacksQuote_of_presetsBehind {presets done found : List Preset}
    (oneLine : ∀ preset ∈ presets, ∀ c ∈ preset.name.toList, c ≠ '\r' ∧ c ≠ '\n')
    (read : presetsBehind done (tokens (onOneLine (presetsText presets))) = .ok found)
    (same : found.map Preset.name = (done.reverse ++ presets).map Preset.name) :
    ∀ preset ∈ presets, LacksQuote preset.name := by
  induction presets generalizing done with
  | nil => simp
  | cons preset others ih =>
      rw [List.forall_mem_cons] at oneLine
      have lacks : LacksQuote preset.name := by
        by_contra crowded
        rcases tokens_presetsText_of_not_lacksQuote crowded others with ⟨name, body, text, other⟩
        rw [text] at read
        rcases exists_of_presetsBehind_opening read with ⟨wrong, more, rfl, named⟩
        have names : wrong.name = preset.name := by simpa using congrArg (·[done.length]?) same
        rw [← names, named, String.toList_ofList] at other
        exact other rfl
      rw [presetsText_cons, onOneLine_append, Spells.preset ⟨oneLine.1, lacks⟩,
        presetsBehind_append] at read
      refine List.forall_mem_cons.mpr ⟨lacks, ih oneLine.2 read ?_⟩
      rw [same]
      simp [reread]

/-- A bank that comes back from its text has no name with all three quotes in it. -/
theorem lacksQuote_of_parse_toText {bank : Bank}
    (oneLine : ∀ name ∈ bank.names, ∀ c ∈ name.toList, c ≠ '\r' ∧ c ≠ '\n')
    (read : parse (toText bank) = .ok bank) : ∀ name ∈ bank.names, LacksQuote name := by
  rcases parse_spec read with ⟨header, rest, split, named, presets⟩
  rw [names, List.forall_mem_cons, List.forall_mem_map] at oneLine ⊢
  let behind := onOneLine (['\n'] ++ presetsText bank.presets)
  have text : tokens (onOneLine (toText bank).toList) =
      libraryOpening :: tokens (onOneLine (quoted bank.name).toList ++ behind) := by
    rw [toList_toText, onOneLine_append, Spells.libraryOpening, List.append_assoc,
      onOneLine_append, List.singleton_append]
  rw [text] at split
  cases split
  have lacks : LacksQuote bank.name := by
    by_contra crowded
    rcases tokens_quoted_of_not_lacksQuote crowded behind with ⟨name, more, found, other⟩
    rw [found] at named
    exact other (by rw [named, String.toList_ofList]; rfl)
  have rest : tokens (onOneLine (quoted bank.name).toList ++ behind) =
      bank.name.toList :: tokens (onOneLine (presetsText bank.presets)) := by
    rw [Spells.quoted ⟨oneLine.1, lacks⟩ behind]
    exact congrArg (bank.name.toList :: ·) (tokens_blank rfl _)
  rw [rest, List.drop_one, List.tail_cons] at presets
  exact ⟨lacks, lacksQuote_of_presetsBehind oneLine.2 presets rfl⟩

/-- A bank that has been read comes back from its text, unless one of its names has all three
quotes in it. -/
theorem parse_toText_iff_lacksQuote {text : String} {bank : Bank} (read : parse text = .ok bank)
    (numeric : bank.Numeric) :
    parse (toText bank) = .ok bank ↔ ∀ name ∈ bank.names, LacksQuote name := by
  have oneLine := oneLine_of_parse read
  constructor
  · exact lacksQuote_of_parse_toText oneLine
  · intro lacks
    rw [names, List.forall_mem_cons, List.forall_mem_map] at oneLine lacks
    have presets : ∀ preset ∈ bank.presets, Quotable preset.name :=
      fun preset member => ⟨oneLine.2 preset member, lacks.2 preset member⟩
    rw [parse_toText ⟨oneLine.1, lacks.1⟩ presets, map_reread numeric, ← kept, kept_of_parse read]

/-- A name with two of the quotes in it, in a bank that has been read. -/
theorem parse_toText_iff_lacksQuote_two :
    let text := "<LIBRARY 'a bank'\r\n<PRESET x\"y`z MC41AAE=\n>"
    let bank : Bank := ⟨"a bank", [⟨"x\"y`z", ⟨[⟨0, 0.5⟩], Bytes.pack [1]⟩⟩]⟩
    parse text = .ok bank ∧ bank.Numeric ∧
      (parse (toText bank) = .ok bank ↔ ∀ name ∈ bank.names, LacksQuote name) ∧
        parse (toText bank) = .ok bank := by
  intro text bank
  have read : parse text = .ok bank := by decide +kernel
  have numeric : bank.Numeric := by decide
  have lossless := parse_toText_iff_lacksQuote read numeric
  exact ⟨read, numeric, lossless, lossless.mpr (by decide)⟩

/-- A bank can be read that does not come back from its text. -/
theorem parse_toText_ne_of_parse :
    ¬ ∀ (text : String) (bank : Bank), parse text = .ok bank → bank.Numeric →
      parse (toText bank) = .ok bank := by
  intro lossless
  let bank : Bank := ⟨"x", [⟨"a\"b'c`d", ⟨[⟨0, 0.5⟩], Bytes.pack [1]⟩⟩]⟩
  have read : parse "<L x\n<PRESET a\"b'c`d MC41AAE=\n>\n>\n" = .ok bank := by decide +kernel
  have lacks := lacksQuote_of_parse_toText (oneLine_of_parse read)
    (lossless _ bank read (by decide))
  exact absurd lacks (by decide)

end Bank
end EffectHost

import EffectHost.Effect.Sections
import EffectHost.Proofs.Code.Faults
import EffectHost.Proofs.Number.PlainText
import EffectHost.Proofs.Script.Sections

/-!
# The lines of compile errors

The line of a compile error is counted in several layers.  A script is split into sections, each
with the number of its first line; the code of a section has lines of its own; the fault is put
into words with a number in front; and the failure takes its line from these words.  Together
they come to the line of the file on which the place to blame begins.
-/

namespace EffectHost

open Text Code Number

/-! ## The line that a message tells -/

namespace CompiledSections

/-- The digits behind the word are read up to what follows them. -/
theorem toldLine?_of_toList {message : String} {digits behind : List Char} {mark : Char}
    (shape : message.toList = "line ".toList ++ (digits ++ mark :: behind)) (some : digits ≠ [])
    (each : ∀ c ∈ digits, isDigit c = true) (ends : isDigit mark = false) :
    toldLine? message = Option.some (digitsValue digits) := by
  have taken : (digits ++ mark :: behind).takeWhile isDigit = digits := by
    rw [List.takeWhile_append_of_pos each, List.takeWhile_cons_of_neg (by rw [ends]; decide),
      List.append_nil]
  unfold toldLine?
  rw [afterPrefix?_eq_some_iff.mpr shape, Option.bind_some]
  dsimp only
  rw [taken]
  apply if_neg
  simp [some]

/-- The line of a fault is read back from its words. -/
theorem toldLine?_report (fault : Fault) (offset : ℕ) :
    toldLine? (fault.report offset) = some (offset + fault.line + 1) := by
  have shape : (fault.report offset).toList = "line ".toList ++
      (Nat.toDigits 10 (offset + fault.line + 1) ++ ':' :: ' ' :: fault.cause.message.toList) := by
    unfold Fault.report
    rw [String.toList_append, String.toList_append, String.toList_append, Nat.toString_eq_repr,
      Nat.toList_repr, List.append_assoc, List.append_assoc]
    rfl
  have each : ∀ c ∈ Nat.toDigits 10 (offset + fault.line + 1), isDigit c = true :=
    fun _ member => Nat.isDigit_of_mem_toDigits (by decide) (by decide) member
  rw [toldLine?_of_toList shape Nat.toDigits_ne_nil each (by decide), digitsValue_toDigits]

/-- The failure to compile a section has the line of the fault, counted from one and behind the
lines in front of the section. -/
theorem failureOf_eq (part : Section) (fault : Fault) :
    failureOf part fault = .uncompilable part.kind (part.lineOffset + fault.line + 1)
      (fault.report part.lineOffset) := by
  rw [failureOf, toldLine?_report]
  rfl

end CompiledSections

/-! ## Lines of a file -/

namespace Line

theorem trimEnd_prefix (text : List Char) : trimEnd text <+: text := by
  have suffix : text.reverse.dropWhile isBlank <:+ text.reverse := List.dropWhile_suffix isBlank
  exact List.reverse_suffix.mp (by rwa [trimEnd, List.reverse_reverse])

/-- In front of each piece there is one line feed for each piece before it. -/
theorem CutInto.exists_place {text piece : List Char} {pieces before after : List (List Char)}
    (cut : CutInto text pieces) (parted : pieces = before ++ piece :: after) :
    '\n' ∉ piece ∧ ∃ ahead behind, text = ahead ++ (piece ++ behind) ∧
      lineFeeds ahead = before.length := by
  induction cut generalizing before with
  | nothing => simp at parted
  | unended _ single =>
      cases before with
      | nil =>
          cases parted
          exact ⟨single, [], [], (List.append_nil _).symm, rfl⟩
      | cons first before => simp at parted
  | @ended first text pieces single behind ih =>
      cases before with
      | nil =>
          cases parted
          exact ⟨single, [], '\n' :: text, rfl, rfl⟩
      | cons other before =>
          rcases List.cons.inj parted with ⟨rfl, others⟩
          rcases ih others with ⟨single', ahead, back, rfl, feeds⟩
          refine ⟨single', first ++ '\n' :: ahead, back, by simp, ?_⟩
          rw [lineFeeds_append, lineFeeds_eq_zero single, lineFeeds_lineFeed, feeds, Nat.zero_add,
            List.length_cons]

/-- In front of each line of a file there is one line feed for each line before it. -/
theorem exists_place_of_ofText {file : String} {before after : List Line} {own : Line}
    (parted : ofText file = before ++ own :: after) :
    '\n' ∉ own.text ∧ ∃ ahead behind, file.toList = ahead ++ (own.text ++ behind) ∧
      lineFeeds ahead = before.length := by
  have lines := parted
  rw [ofText, List.mapIdx_eq_append_iff] at parted
  rcases parted with ⟨front, rest, pieces, rfl, others⟩
  rcases List.mapIdx_eq_cons_iff.mp others with ⟨piece, back, rfl, rfl, rfl⟩
  rcases (cutInto_pieces file.toList).exists_place pieces with ⟨single, ahead, behind, shape, feeds⟩
  rcases trimEnd_prefix piece with ⟨blanks, whole⟩
  refine ⟨fun feed => single ?_, ahead, blanks ++ behind, ?_, ?_⟩
  · exact whole ▸ List.mem_append_left blanks feed
  · rw [shape, ← List.append_assoc (trimEnd piece), whole]
  · rw [feeds, List.length_mapIdx]

theorem toList_join_cons (line : Line) (lines : List Line) :
    (join (line :: lines)).toList = line.text ++ '\n' :: (join lines).toList := by
  simp [join]

/-- A rest of a joined text begins in one of the lines. -/
theorem exists_of_join {body : List Line} {front piece : List Char}
    (single : ∀ line ∈ body, '\n' ∉ line.text) (parted : (join body).toList = front ++ piece)
    (some : piece ≠ []) :
    ∃ done own later head tail, body = done ++ own :: later ∧ own.text = head ++ tail ∧
      piece = tail ++ '\n' :: (join later).toList ∧ lineFeeds front = done.length := by
  induction body generalizing front with
  | nil =>
      have none : front ++ piece = [] := parted.symm
      exact absurd (List.append_eq_nil_iff.mp none).2 some
  | cons line others ih =>
      rw [List.forall_mem_cons] at single
      rw [toList_join_cons] at parted
      rcases List.append_eq_append_iff.mp parted with
        ⟨more, rfl, behind⟩ | ⟨more, shape, rfl⟩
      · cases more with
        | nil =>
            refine ⟨[], line, others, line.text, [], rfl, (List.append_nil _).symm, behind.symm, ?_⟩
            rw [List.append_nil]
            exact lineFeeds_eq_zero single.1
        | cons c more =>
            rcases List.cons.inj behind with ⟨rfl, rest⟩
            rcases ih single.2 rest with ⟨done, own, later, head, tail, rfl, text, rfl, feeds⟩
            refine ⟨line :: done, own, later, head, tail, rfl, text, rfl, ?_⟩
            rw [lineFeeds_append, lineFeeds_eq_zero single.1, lineFeeds_lineFeed, feeds,
              Nat.zero_add, List.length_cons]
      · refine ⟨[], line, others, front, more, rfl, shape, rfl, ?_⟩
        apply lineFeeds_eq_zero
        exact fun feed => single.1 (shape ▸ List.mem_append_left more feed)

end Line

/-! ## Lines of a section -/

/-- A rest of the text of a section begins on a line of a file, counted from one.  The lines of the
section stand behind a marker that names its kind, and as many line feeds stand in front of a line
of the file as there are lines before it. -/
inductive Section.BeginsOn (entry : Section) (file : String) : List Char → ℕ → Prop where
  | line {before done later after : List Line} {marker own : Line}
      {head tail ahead behind : List Char}
      (lines : Line.ofText file = before ++ marker :: (done ++ own :: later ++ after))
      (marks : marker.isMarker = true) (names : marker.Names entry.kind)
      (text : entry.text = Line.join (done ++ own :: later)) (inside : own.text = head ++ tail)
      (place : file.toList = ahead ++ (own.text ++ behind))
      (feeds : lineFeeds ahead = (before ++ marker :: done).length) :
      BeginsOn entry file (tail ++ '\n' :: (Line.join later).toList) (lineFeeds ahead + 1)

namespace ScriptUnit

variable {file : String} {unit : ScriptUnit}

theorem taken_of_parse (parsed : parse file = .ok unit) :
    Taken (splitAtMarkers (Line.ofText file)).2 unit.sections := by
  rcases readSections_of_lines (Line.ofText file) with
    ⟨sections, read, taken⟩ | ⟨front, marker, back, _, _, _, failed⟩
  · rw [parse_of_ok read] at parsed
    cases parsed
    exact taken
  · rw [parse_of_error failed] at parsed
    cases parsed

/-- A block is a marker with the lines behind it up to the next one. -/
theorem exists_of_mem_splitAtMarkers {lines : List Line} {block : Line × List Line}
    (member : block ∈ (splitAtMarkers lines).2) :
    ∃ before after, lines = before ++ block.1 :: (block.2 ++ after) ∧ block.1.isMarker = true := by
  induction lines with
  | nil => cases member
  | cons line others ih =>
      rw [splitAtMarkers_cons] at member
      split at member
      · next marks =>
          rcases List.mem_cons.mp member with rfl | later
          · refine ⟨[], others.dropWhile Line.isBody, ?_, marks⟩
            rw [splitAtMarkers_fst, List.takeWhile_append_dropWhile]
            rfl
          · rcases ih later with ⟨before, after, rfl, marks'⟩
            exact ⟨line :: before, after, rfl, marks'⟩
      · rcases ih member with ⟨before, after, rfl, marks⟩
        exact ⟨line :: before, after, rfl, marks⟩

/-- The offset of a section leads from the lines of its text to those of the file. -/
theorem beginsOn_of_parse (parsed : parse file = .ok unit) {entry : Section}
    (member : entry ∈ unit.sections) {front piece : List Char}
    (parted : entry.text.toList = front ++ piece) (some : piece ≠ []) :
    entry.BeginsOn file piece (entry.lineOffset + lineFeeds front + 1) := by
  rcases (taken_of_parse parsed).exists_block entry member with ⟨block, listed, opens⟩
  rcases exists_of_mem_splitAtMarkers listed with ⟨before, after, lines, marks⟩
  have single : ∀ line ∈ block.2, '\n' ∉ line.text := by
    intro line inside
    have there : line ∈ Line.ofText file := by
      rw [lines]
      simp [inside]
    rcases List.append_of_mem there with ⟨front, back, around⟩
    exact (Line.exists_place_of_ofText around).1
  rw [opens.text] at parted
  rcases Line.exists_of_join single parted some with
    ⟨done, own, later, head, tail, body, inside, rfl, feeds⟩
  rw [body] at lines
  have around : Line.ofText file = (before ++ block.1 :: done) ++ own :: (later ++ after) := by
    rw [lines]
    simp
  rcases Line.exists_place_of_ofText around with ⟨_, ahead, behind, place, count⟩
  have number : entry.lineOffset + lineFeeds front = lineFeeds ahead := by
    rw [opens.lineOffset, Line.number_of_ofText lines, feeds, count, List.length_append,
      List.length_cons]
    omega
  rw [number]
  exact .line lines marks opens.kind (body ▸ opens.text) inside place count

end ScriptUnit

namespace CompiledSections

/-- A section of a file that does not compile has a place to blame in its text.  The failure has
the line of the file on which the place is, and no other place is to blame for another fault or is
on another line. -/
theorem uncompilable_where_blamed {file : String} {unit : ScriptUnit}
    (parsed : ScriptUnit.parse file = .ok unit) {entry : Section} (member : entry ∈ unit.sections)
    {machine : Machine} {resolve : String → Option Cell} {fault : Fault}
    (failed : (machine.compile entry.text resolve).1 = .error fault)
    (others : List Section) (done : CompiledSections) :
    ∃ line, (compileAll resolve (entry :: others) done machine).1 =
        .error (.uncompilable entry.kind line (fault.report entry.lineOffset)) ∧
      (∃ piece, Blames entry.text.toList fault piece) ∧
      ∀ other piece, Blames entry.text.toList other piece →
        other = fault ∧ entry.BeginsOn file piece line := by
  have found := Machine.fault?_of_error failed
  refine ⟨entry.lineOffset + fault.line + 1, ?_, fault?_eq_some_iff.mp found, ?_⟩
  · rw [compileAll]
    split
    · next compiled =>
        rw [compiled] at failed
        cases failed
    · next compiled =>
        rw [compiled] at failed
        cases failed
        exact congrArg Except.error (failureOf_eq entry fault)
  · intro other piece blames
    have again := fault?_eq_some_iff.mpr ⟨piece, blames⟩
    have same : other = fault := Option.some.inj (again.symm.trans found)
    rcases blames.exists_front with ⟨front, parted, line⟩
    rw [← same, line]
    exact ⟨rfl, ScriptUnit.beginsOn_of_parse parsed member parted blames.ne_nil⟩

/-- A comment, a quoted text and empty lines stand in front of a parenthesis that is not closed. -/
theorem uncompilable_where_blamed_at_semicolon :
    let file := "@init\n/* one\n   two */ s = \"three\n\nfive\";\n\ny = (1;\n"
    let entry : Section := ⟨.init, 1, "/* one\n   two */ s = \"three\n\nfive\";\n\ny = (1;\n", 0, 0⟩
    (compileAll (fun _ => none) [entry] {} {}).1 =
        .error (.uncompilable .init 7 "line 7: expected ')'") ∧
      ∃ piece, Blames entry.text.toList ⟨5, .expected .closeParen⟩ piece ∧
        entry.BeginsOn file piece 7 := by
  intro file entry
  have computed : (compileAll (fun _ => none) [entry] {} {}).1 =
      .error (.uncompilable .init 7 "line 7: expected ')'") := by decide +kernel
  have sections : (ScriptUnit.parse file).toOption.map ScriptUnit.sections = some [entry] := by
    decide +kernel
  cases parsed : ScriptUnit.parse file with
  | error failure =>
      rw [parsed] at sections
      cases sections
  | ok unit =>
      rw [parsed] at sections
      have member : entry ∈ unit.sections := by
        rw [Option.some.inj sections]
        exact List.mem_cons_self
      have failed : (({} : Machine).compile entry.text fun _ => none).1 =
          .error ⟨5, .expected .closeParen⟩ := by decide +kernel
      rcases uncompilable_where_blamed parsed member failed [] {} with
        ⟨line, error, ⟨piece, blames⟩, places⟩
      have same := Except.error.inj (computed.symm.trans error)
      have number : 7 = line := (Failure.uncompilable.inj same).2.1
      exact ⟨computed, piece, blames, number ▸ (places _ piece blames).2⟩

end CompiledSections
end EffectHost

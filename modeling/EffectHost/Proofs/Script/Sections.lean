import EffectHost.Script.Unit
import Mathlib.Data.List.Induction
import Mathlib.Data.List.Nodup

/-!
# Where the sections of a script begin and end

A script is cut at its markers: every marker owns the lines behind it up to the next marker,
and the lines in front of the first one are the header.  The markers are then taken one after
another.  What has been taken is always a row of sections of different kinds, one for each
marker, so that the first marker that names no kind, or a kind of the row, is the one at which
reading stops.
-/

namespace EffectHost

open Text

/-! ## Lines -/

namespace Line

/-- A text is cut at its line feeds.  Nothing is left behind the last line feed. -/
inductive CutInto : List Char → List (List Char) → Prop where
  | nothing : CutInto [] []
  | unended {piece : List Char} (some : piece ≠ []) (single : '\n' ∉ piece) :
      CutInto piece [piece]
  | ended {piece text : List Char} {pieces : List (List Char)} (single : '\n' ∉ piece)
      (behind : CutInto text pieces) : CutInto (piece ++ '\n' :: text) (piece :: pieces)

theorem pieces_of_not_mem {piece : List Char} (single : '\n' ∉ piece) :
    pieces piece = if piece = [] then [] else [piece] := by
  rw [pieces, List.splitOn_eq_singleton single]
  by_cases none : piece = []
  · rw [none]
    rfl
  · have kept : ¬ ([piece].getLast? == some []) = true := by simpa using none
    rw [if_neg none]
    exact if_neg kept

theorem pieces_append_cons {piece : List Char} (single : '\n' ∉ piece) (text : List Char) :
    pieces (piece ++ '\n' :: text) = piece :: pieces text := by
  rw [pieces, pieces, List.splitOn_append_cons_self_of_not_mem single]
  rcases List.exists_cons_of_ne_nil (List.splitOn_ne_nil '\n' text) with ⟨first, rest, parts⟩
  rw [parts, List.getLast?_cons_cons, List.dropLast_cons_cons]
  split <;> rfl

theorem cutInto_pieces (text : List Char) : CutInto text (pieces text) := by
  -- By the length of the text: what is behind the first line feed is shorter.
  induction size : text.length using Nat.strongRecOn generalizing text with
  | ind length ih =>
      by_cases feed : '\n' ∈ text
      · rcases List.eq_append_cons_of_mem feed with ⟨piece, rest, rfl, single⟩
        rw [pieces_append_cons single]
        refine .ended single (ih rest.length ?_ rest rfl)
        rw [← size, List.length_append, List.length_cons]
        omega
      · rw [pieces_of_not_mem feed]
        split
        · next none =>
            rw [none]
            exact .nothing
        · next some => exact .unended some feed

/-- There is one way to cut a text. -/
theorem CutInto.eq_pieces {text : List Char} {parts : List (List Char)}
    (cut : CutInto text parts) : parts = pieces text := by
  induction cut with
  | nothing => rfl
  | unended some single => rw [pieces_of_not_mem single, if_neg some]
  | ended single behind ih => rw [pieces_append_cons single, ih]

/-- Lines are numbered from zero. -/
theorem number_of_ofText {text : String} {front back : List Line} {line : Line}
    (parted : ofText text = front ++ line :: back) : line.number = front.length := by
  have found : (ofText text)[front.length]? = some line := by
    rw [parted, List.getElem?_append_right (Nat.le_refl _), Nat.sub_self]
    rfl
  rw [ofText, List.getElem?_mapIdx, Option.map_eq_some_iff] at found
  rcases found with ⟨piece, _, rfl⟩
  rfl

/-- The first word behind the sign of the marker is the tag of the kind. -/
def Names (marker : Line) (kind : SectionKind) : Prop :=
  (ScriptUnit.markerWords marker).head? = some kind.tag.toList

instance (marker : Line) (kind : SectionKind) : Decidable (marker.Names kind) :=
  inferInstanceAs (Decidable (_ = _))

/-- The line belongs to the marker in front of it, or to the header. -/
def isBody (line : Line) : Bool :=
  !line.isMarker

/-- Two lines that are markers do not name the same kind. -/
def Apart (first second : Line) : Prop :=
  first.isMarker = true → second.isMarker = true →
    ∀ kind, first.Names kind → ¬ second.Names kind

instance (first second : Line) : Decidable (first.Apart second) :=
  decidable_of_iff (first.isMarker = true → second.isMarker = true →
      ∀ kind ∈ SectionKind.all, first.Names kind → ¬ second.Names kind)
    ⟨fun apart one other kind => apart one other kind (SectionKind.mem_all kind),
      fun apart one other kind _ => apart one other kind⟩

/-- Behind the lines in front of it, a marker names no kind, or a kind that one of them
names, too. -/
def Offends (front : List Line) (marker : Line) : Prop :=
  marker.isMarker = true ∧
    ((∀ kind, ¬ marker.Names kind) ∨ ∃ other ∈ front, ¬ other.Apart marker)

end Line

namespace ScriptUnit

open Line

/-! ## Blocks -/

theorem splitAtMarkers_cons (line : Line) (lines : List Line) :
    splitAtMarkers (line :: lines) =
      if line.isMarker then ([], (line, (splitAtMarkers lines).1) :: (splitAtMarkers lines).2)
      else (line :: (splitAtMarkers lines).1, (splitAtMarkers lines).2) :=
  rfl

/-- The lines in front of the first marker. -/
theorem splitAtMarkers_fst (lines : List Line) :
    (splitAtMarkers lines).1 = lines.takeWhile isBody := by
  induction lines with
  | nil => rfl
  | cons line others ih =>
      rw [splitAtMarkers_cons]
      cases marks : line.isMarker <;> simp [isBody, marks, ih]

/-- There is one block for each marker. -/
theorem map_splitAtMarkers_snd (lines : List Line) :
    (splitAtMarkers lines).2.map Prod.fst = lines.filter isMarker := by
  induction lines with
  | nil => rfl
  | cons line others ih =>
      rw [splitAtMarkers_cons]
      cases marks : line.isMarker <;> simp [marks, ih]

/-- A marker owns the lines behind it up to the next one. -/
theorem splitAtMarkers_append {marker : Line} (marks : marker.isMarker = true)
    (front back : List Line) :
    (splitAtMarkers (front ++ marker :: back)).2 =
      (splitAtMarkers front).2 ++ (marker, back.takeWhile isBody) :: (splitAtMarkers back).2 ∧
    (splitAtMarkers (front ++ marker :: back)).1 = (splitAtMarkers front).1 := by
  induction front with
  | nil =>
      rw [List.nil_append, splitAtMarkers_cons, if_pos marks, splitAtMarkers_fst]
      exact ⟨rfl, rfl⟩
  | cons line others ih =>
      rw [List.cons_append, splitAtMarkers_cons, splitAtMarkers_cons, ih.1, ih.2]
      split <;> exact ⟨rfl, rfl⟩

/-- Where a block comes from. -/
theorem exists_front {lines : List Line} {before after : List (Line × List Line)}
    {block : Line × List Line} (parted : (splitAtMarkers lines).2 = before ++ block :: after) :
    ∃ front back, lines = front ++ block.1 :: back ∧ block.1.isMarker = true ∧
      front.filter isMarker = before.map Prod.fst := by
  have markers := map_splitAtMarkers_snd lines
  rw [parted, List.map_append, List.map_cons] at markers
  rcases List.filter_eq_append_iff.mp markers.symm with ⟨first, second, rfl, own, others⟩
  rcases List.filter_eq_cons_iff.mp others with ⟨skipped, back, rfl, bodies, marks, _⟩
  refine ⟨first ++ skipped, back, by rw [List.append_assoc], marks, ?_⟩
  rw [List.filter_append, own, List.filter_eq_nil_iff.mpr bodies, List.append_nil]

/-! ## Taking markers one after another -/

theorem ofTag?_eq_some_iff {word : String} {kind : SectionKind} :
    SectionKind.ofTag? word = some kind ↔ word = kind.tag := by
  constructor
  · intro found
    have same : (kind.tag == word) = true :=
      List.find?_some (p := fun kind : SectionKind => kind.tag == word) found
    exact (beq_iff_eq.mp same).symm
  · rintro rfl
    exact SectionKind.ofTag?_tag kind

/-- The tag in a marker is that of a kind if the marker names it. -/
theorem ofTag?_marker {marker : Line} {kind : SectionKind} :
    SectionKind.ofTag? (String.ofList ((markerWords marker).head?.getD [])) = some kind ↔
      marker.Names kind := by
  rw [ofTag?_eq_some_iff, Names]
  cases (markerWords marker).head? with
  | none => cases kind <;> simp [SectionKind.tag]
  | some word => simp [← String.toList_inj]

theorem kind_unique {marker : Line} {first second : SectionKind}
    (one : marker.Names first) (other : marker.Names second) : first = second :=
  Option.some.inj ((ofTag?_marker.mpr one).symm.trans (ofTag?_marker.mpr other))

/-- The section of a block. -/
structure Opens (block : Line × List Line) (entry : Section) : Prop where
  kind : block.1.Names entry.kind
  lineOffset : entry.lineOffset = block.1.number + 1
  text : entry.text = Line.join block.2

/-- What is said of a marker that is refused. -/
def refusal (marker : Line) : String :=
  let tag := String.ofList ((markerWords marker).head?.getD [])
  match SectionKind.ofTag? tag with
  | none => "invalid section: @" ++ tag
  | some _ => "duplicate @" ++ tag ++ " section"

/-- Take one block. -/
def takeBlock (sections : List Section) (block : Line × List Line) :
    Except Failure (List Section) := do
  let entry ← openSection block.1 block.2
  store sections entry

theorem openSection_of_names {marker : Line} {kind : SectionKind} (names : marker.Names kind)
    (body : List Line) : ∃ entry, openSection marker body = .ok entry ∧ entry.kind = kind ∧
      Opens (marker, body) entry := by
  rw [openSection]
  dsimp only
  rw [ofTag?_marker.mpr names]
  exact ⟨_, rfl, rfl, names, rfl, rfl⟩

/-- A block is taken if its marker names a kind that is free, and refused otherwise. -/
theorem takeBlock_cases (sections : List Section) (block : Line × List Line) :
    (∃ entry, takeBlock sections block = .ok (sections ++ [entry]) ∧ Opens block entry ∧
      entry.kind ∉ sections.map Section.kind) ∨
    (takeBlock sections block = .error (.malformed (block.1.number + 1) (refusal block.1)) ∧
      ((∀ kind, ¬ block.1.Names kind) ∨
        ∃ entry ∈ sections, block.1.Names entry.kind)) := by
  by_cases named : ∃ kind, block.1.Names kind
  · rcases named with ⟨kind, names⟩
    rcases openSection_of_names names block.2 with ⟨entry, opened, rfl, opens⟩
    rw [takeBlock, opened]
    by_cases taken : entry.kind ∈ sections.map Section.kind
    · right
      rcases List.mem_map.mp taken with ⟨other, member, same⟩
      refine ⟨?_, Or.inr ⟨other, member, same ▸ names⟩⟩
      have found : sections.any (fun other => other.kind == entry.kind) = true :=
        List.any_eq_true.mpr ⟨other, member, beq_iff_eq.mpr same⟩
      have tag : String.ofList ((markerWords block.1).head?.getD []) = entry.kind.tag :=
        ofTag?_eq_some_iff.mp (ofTag?_marker.mpr names)
      rw [refusal, ofTag?_marker.mpr names, tag, ← opens.lineOffset]
      exact if_pos found
    · left
      refine ⟨entry, if_neg ?_, opens, taken⟩
      intro found
      rcases List.any_eq_true.mp found with ⟨other, member, same⟩
      exact taken (List.mem_map.mpr ⟨other, member, beq_iff_eq.mp same⟩)
  · right
    rw [not_exists] at named
    have unknown : SectionKind.ofTag? (String.ofList ((markerWords block.1).head?.getD [])) =
        none := by
      rw [Option.eq_none_iff_forall_ne_some]
      exact fun kind found => named kind (ofTag?_marker.mp found)
    refine ⟨?_, Or.inl named⟩
    rw [takeBlock, openSection, refusal, unknown]
    rfl

/-- The sections of some blocks, in their order and all of different kinds. -/
structure Taken (blocks : List (Line × List Line)) (sections : List Section) : Prop where
  opens : List.Forall₂ Opens blocks sections
  once : (sections.map Section.kind).Nodup

theorem readSections_append (before : List (Line × List Line)) (block : Line × List Line) :
    readSections (before ++ [block]) =
      (readSections before).bind fun sections => takeBlock sections block := by
  rw [readSections, List.foldlM_append, ← readSections]
  cases readSections before with
  | error failure => rfl
  | ok sections =>
      change (takeBlock sections block).bind pure = takeBlock sections block
      cases takeBlock sections block <;> rfl

/-- What has been read is taken, and where reading stops the marker is refused because of what
has been taken before it. -/
theorem readSections_cases (blocks : List (Line × List Line)) :
    (∃ sections, readSections blocks = .ok sections ∧ Taken blocks sections) ∨
    ∃ before block after sections, blocks = before ++ block :: after ∧
      Taken before sections ∧
      readSections blocks = .error (.malformed (block.1.number + 1) (refusal block.1)) ∧
      ((∀ kind, ¬ block.1.Names kind) ∨
        ∃ entry ∈ sections, block.1.Names entry.kind) := by
  induction blocks using List.reverseRecOn with
  | nil => exact Or.inl ⟨[], rfl, .nil, List.nodup_nil⟩
  | append_singleton before block ih =>
      rw [readSections_append]
      rcases ih with ⟨sections, read, taken⟩ | ⟨first, refused, after, sections, rfl, taken, read, cause⟩
      · rw [read]
        rcases takeBlock_cases sections block with ⟨entry, added, opens, free⟩ | ⟨failed, cause⟩
        · refine Or.inl ⟨sections ++ [entry], added, ?_, ?_⟩
          · exact List.rel_append taken.opens (.cons opens .nil)
          · rw [List.map_append, List.nodup_append]
            refine ⟨taken.once, List.nodup_singleton _, ?_⟩
            rintro kind member other own rfl
            exact free (List.mem_singleton.mp own ▸ member)
        · exact Or.inr ⟨before, block, [], sections, rfl, taken, failed, cause⟩
      · rw [read]
        exact Or.inr ⟨first, refused, after ++ [block], sections,
          by rw [List.append_assoc, List.cons_append], taken, rfl, cause⟩

namespace Taken

variable {blocks : List (Line × List Line)} {sections : List Section}

theorem exists_entry (taken : Taken blocks sections) :
    ∀ block ∈ blocks, ∃ entry ∈ sections, Opens block entry := by
  have opens := taken.opens
  clear taken
  induction opens with
  | nil => simp
  | @cons block entry others entries first _ ih =>
      rw [List.forall_mem_cons]
      refine ⟨⟨entry, List.mem_cons_self, first⟩, fun other member => ?_⟩
      rcases ih other member with ⟨own, inside, opens⟩
      exact ⟨own, List.mem_cons_of_mem _ inside, opens⟩

theorem exists_block (taken : Taken blocks sections) :
    ∀ entry ∈ sections, ∃ block ∈ blocks, Opens block entry := by
  have opens := taken.opens
  clear taken
  induction opens with
  | nil => simp
  | @cons block entry others entries first _ ih =>
      rw [List.forall_mem_cons]
      refine ⟨⟨block, List.mem_cons_self, first⟩, fun other member => ?_⟩
      rcases ih other member with ⟨own, inside, opens⟩
      exact ⟨own, List.mem_cons_of_mem _ inside, opens⟩

/-- Markers that were taken name different kinds. -/
theorem pairwise (taken : Taken blocks sections) :
    (blocks.map Prod.fst).Pairwise fun first second =>
      ∀ kind, first.Names kind → ¬ second.Names kind := by
  rcases taken with ⟨opens, once⟩
  induction opens with
  | nil => exact .nil
  | @cons block entry others entries first rest ih =>
      rw [List.map_cons, List.nodup_cons] at once
      refine .cons ?_ (ih once.2)
      intro second member kind own again
      rcases List.mem_map.mp member with ⟨other, inside, rfl⟩
      rcases exists_entry ⟨rest, once.2⟩ other inside with ⟨later, listed, opens⟩
      apply once.1
      rw [kind_unique first.kind own, ← kind_unique opens.kind again]
      exact List.mem_map_of_mem listed

/-- The one section of its kind. -/
theorem find?_eq (taken : Taken blocks sections) {entry : Section} (member : entry ∈ sections) :
    sections.find? (fun other => other.kind == entry.kind) = some entry := by
  cases found : sections.find? (fun other => other.kind == entry.kind) with
  | none => simpa using List.find?_eq_none.mp found entry member
  | some other =>
      have same : other.kind = entry.kind := by simpa using List.find?_some found
      rw [List.inj_on_of_nodup_map taken.once (List.mem_of_find?_eq_some found) member same]

end Taken

/-! ## Scripts -/

/-- Every marker names a kind, and no two markers name the same. -/
structure Clean (lines : List Line) : Prop where
  named : ∀ marker ∈ lines, marker.isMarker = true → ∃ kind, marker.Names kind
  apart : lines.Pairwise Apart

instance (lines : List Line) : Decidable (Clean lines) :=
  decidable_of_iff ((∀ marker ∈ lines, marker.isMarker = true →
      ∃ kind ∈ SectionKind.all, marker.Names kind) ∧ lines.Pairwise Apart)
    ⟨fun both => ⟨fun marker member marks =>
        (both.1 marker member marks).imp fun _ => And.right, both.2⟩,
      fun clean => ⟨fun marker member marks =>
        (clean.named marker member marks).imp fun kind names => ⟨SectionKind.mem_all kind, names⟩,
        clean.apart⟩⟩

/-- A kind has no section exactly if no marker names it. -/
theorem Taken.find?_eq_none_iff {lines : List Line} {sections : List Section}
    (taken : Taken (splitAtMarkers lines).2 sections) (kind : SectionKind) :
    sections.find? (fun entry => entry.kind == kind) = none ↔
      ∀ marker ∈ lines, marker.isMarker = true → ¬ marker.Names kind := by
  have markers := map_splitAtMarkers_snd lines
  rw [List.find?_eq_none]
  constructor
  · intro absent marker member marks names
    have listed : marker ∈ (splitAtMarkers lines).2.map Prod.fst := by
      rw [markers]
      exact List.mem_filter.mpr ⟨member, marks⟩
    rcases List.mem_map.mp listed with ⟨block, inside, rfl⟩
    rcases taken.exists_entry block inside with ⟨entry, own, opens⟩
    exact absent entry own (beq_iff_eq.mpr (kind_unique opens.kind names))
  · intro unnamed entry own same
    rcases taken.exists_block entry own with ⟨block, inside, opens⟩
    have listed : block.1 ∈ lines.filter isMarker := by
      rw [← markers]
      exact List.mem_map_of_mem inside
    rcases List.mem_filter.mp listed with ⟨member, marks⟩
    exact unnamed block.1 member marks (beq_iff_eq.mp same ▸ opens.kind)

/-- A marker that names a kind opens the section of that kind. -/
theorem Taken.exists_section {front back : List Line} {marker : Line} {kind : SectionKind}
    {sections : List Section} (taken : Taken (splitAtMarkers (front ++ marker :: back)).2 sections)
    (marks : marker.isMarker = true) (names : marker.Names kind) :
    ∃ entry, sections.find? (fun other => other.kind == kind) = some entry ∧
      Opens (marker, back.takeWhile isBody) entry := by
  have inside : (marker, back.takeWhile isBody) ∈ (splitAtMarkers (front ++ marker :: back)).2 := by
    rw [(splitAtMarkers_append marks front back).1]
    simp
  rcases taken.exists_entry _ inside with ⟨entry, own, opens⟩
  have same : entry.kind = kind := kind_unique opens.kind names
  exact ⟨entry, same ▸ taken.find?_eq own, opens⟩

/-- The lines of a body are lines of the file, behind the marker. -/
theorem getElem?_body {front back : List Line} {marker line : Line} {k : Nat}
    (found : (back.takeWhile isBody)[k]? = some line) :
    (front ++ marker :: back)[front.length + 1 + k]? = some line := by
  have whole : back[k]? = some line := by
    rw [← List.takeWhile_append_dropWhile (p := isBody) (l := back),
      List.getElem?_append_left (List.getElem?_eq_some_iff.mp found).1]
    exact found
  have place : front.length + 1 + k - front.length = k + 1 := by omega
  rw [List.getElem?_append_right (by omega), place, List.getElem?_cons_succ]
  exact whole

theorem clean_of_taken {lines : List Line} {blocks : List (Line × List Line)}
    {sections : List Section} (taken : Taken blocks sections)
    (markers : blocks.map Prod.fst = lines.filter isMarker) : Clean lines := by
  constructor
  · intro marker member marks
    have listed : marker ∈ blocks.map Prod.fst := by
      rw [markers]
      exact List.mem_filter.mpr ⟨member, marks⟩
    rcases List.mem_map.mp listed with ⟨block, inside, rfl⟩
    rcases taken.exists_entry block inside with ⟨entry, _, opens⟩
    exact ⟨entry.kind, opens.kind⟩
  · have different := taken.pairwise
    rw [markers, List.pairwise_filter] at different
    exact different

/-- No line of a clean script offends. -/
theorem Clean.not_offends {front back : List Line} {line : Line}
    (clean : Clean (front ++ line :: back)) : ¬ Offends front line := by
  rintro ⟨marks, unknown | ⟨other, member, together⟩⟩
  · rcases clean.named line (by simp) marks with ⟨kind, names⟩
    exact unknown kind names
  · exact together ((List.pairwise_append.mp clean.apart).2.2 other member line (by simp))

/-- Reading stops at the first line that offends, and nowhere else. -/
theorem readSections_of_lines (lines : List Line) :
    (∃ sections, readSections (splitAtMarkers lines).2 = .ok sections ∧
      Taken (splitAtMarkers lines).2 sections) ∨
    ∃ front marker back, lines = front ++ marker :: back ∧ Offends front marker ∧
      Clean front ∧ readSections (splitAtMarkers lines).2 =
        .error (.malformed (marker.number + 1) (refusal marker)) := by
  rcases readSections_cases (splitAtMarkers lines).2 with
    read | ⟨before, block, after, sections, parted, taken, failed, cause⟩
  · exact Or.inl read
  · rcases exists_front parted with ⟨front, back, rfl, marks, markers⟩
    refine Or.inr ⟨front, block.1, back, rfl, ⟨marks, ?_⟩,
      clean_of_taken taken markers.symm, failed⟩
    rcases cause with unknown | ⟨entry, member, again⟩
    · exact Or.inl unknown
    · rcases taken.exists_block entry member with ⟨other, inside, opens⟩
      have listed : other.1 ∈ front.filter isMarker := by
        rw [markers]
        exact List.mem_map_of_mem inside
      rcases List.mem_filter.mp listed with ⟨earlier, marked⟩
      exact Or.inr ⟨other.1, earlier, fun apart => apart marked marks entry.kind opens.kind again⟩

theorem parse_of_ok {text : String} {sections : List Section}
    (read : readSections (splitAtMarkers (Line.ofText text)).2 = .ok sections) :
    parse text = .ok
      { header := (Header.parse (Line.join ((Line.ofText text).takeWhile isBody))).withStandardPins
          (sections.any fun entry => entry.kind == .sample)
        sections := sections } := by
  rw [parse]
  dsimp only
  rw [read, splitAtMarkers_fst]
  rfl

theorem parse_of_error {text : String} {failure : Failure}
    (failed : readSections (splitAtMarkers (Line.ofText text)).2 = .error failure) :
    parse text = .error failure := by
  rw [parse]
  dsimp only
  rw [failed]
  rfl

/-- A text is cut at its line feeds, and each line loses the blanks at its end.  It can be read
exactly if every line that begins with an at-sign names a kind and no two of them name the same.
Then the lines in front of the first marker are the header; a kind that no marker names has no
section, and one that a marker names has the lines up to the next marker, at the place that its
offset tells.  If the text cannot be read, the failure has the line, counted from one, of the
first marker that names no kind or the kind of an earlier one. -/
theorem parse_splits_at_markers (text : String) :
    let lines := Line.ofText text
    (∃ pieces, CutInto text.toList pieces ∧
      lines = pieces.mapIdx fun number piece => ⟨number, trimEnd piece⟩) ∧
    ((∃ unit, parse text = .ok unit) ↔ Clean lines) ∧
    (∀ unit, parse text = .ok unit →
      unit.header = (Header.parse (Line.join (lines.takeWhile isBody))).withStandardPins
        (unit.has .sample) ∧
      (∀ kind, unit.section? kind = none ↔
        ∀ marker ∈ lines, marker.isMarker = true → ¬ marker.Names kind) ∧
      ∀ (front back : List Line) (marker : Line) (kind : SectionKind),
        lines = front ++ marker :: back → marker.isMarker = true → marker.Names kind →
        ∃ entry, unit.section? kind = some entry ∧
          entry.text = Line.join (back.takeWhile isBody) ∧
          entry.lineOffset = front.length + 1 ∧
          ∀ (k : Nat) (line : Line), (back.takeWhile isBody)[k]? = some line →
            lines[entry.lineOffset + k]? = some line) ∧
    ∀ failure, parse text = .error failure →
      ∃ front marker back, lines = front ++ marker :: back ∧ Offends front marker ∧
        (∀ first other rest, front = first ++ other :: rest → ¬ Offends first other) ∧
        failure = .malformed (front.length + 1) (refusal marker) := by
  intro lines
  have cut : ∃ pieces, CutInto text.toList pieces ∧
      lines = pieces.mapIdx fun number piece => ⟨number, trimEnd piece⟩ :=
    ⟨pieces text.toList, cutInto_pieces text.toList, rfl⟩
  rcases readSections_of_lines lines with
    ⟨sections, read, taken⟩ | ⟨front, marker, back, parted, offends, clean, failed⟩
  · have parsed := parse_of_ok read
    have markers := map_splitAtMarkers_snd lines
    refine ⟨cut, ⟨fun _ => clean_of_taken taken markers, fun _ => ⟨_, parsed⟩⟩, ?_, ?_⟩
    · rw [parsed]
      rintro unit same
      cases same
      refine ⟨?_, ?_, ?_⟩
      · rw [has, section?, List.isSome_find?]
      · exact taken.find?_eq_none_iff
      · intro front back marker kind parted marks names
        rw [parted] at taken ⊢
        rcases taken.exists_section marks names with ⟨entry, found, opens⟩
        have number : marker.number = front.length := Line.number_of_ofText parted
        have offset : entry.lineOffset = front.length + 1 := number ▸ opens.lineOffset
        refine ⟨entry, found, opens.text, offset, ?_⟩
        intro k line body
        rw [offset]
        exact getElem?_body body
    · rw [parsed]
      rintro failure ⟨⟩
  · have refused := parse_of_error failed
    have unclean : ¬ Clean lines := by
      rw [parted]
      exact fun clean => clean.not_offends offends
    refine ⟨cut, ⟨?_, fun clean => absurd clean unclean⟩, ?_, ?_⟩
    · rw [refused]
      rintro ⟨_, ⟨⟩⟩
    · rw [refused]
      rintro unit ⟨⟩
    · rw [refused]
      rintro failure ⟨⟩
      have number : marker.number = front.length := Line.number_of_ofText parted
      refine ⟨front, marker, back, parted, offends, ?_, by rw [number]⟩
      rintro first other rest rfl
      exact clean.not_offends

/-- A section with a blank line in its body, and a text whose third line repeats a section, in
front of a marker that names none. -/
theorem parse_splits_at_markers_init :
    (∃ unit entry, parse "desc:x\n@init \r\na = 1;\r\n\n  b\n@sample" = .ok unit ∧
      unit.section? .init = some entry ∧ entry.text = "a = 1;\n\n  b\n" ∧
      entry.lineOffset = 2) ∧
    parse "@init\n@sample\n@init\n@other" = .error (.malformed 3 "duplicate @init section") ∧
    ∃ front marker back, Line.ofText "@init\n@sample\n@init\n@other" = front ++ marker :: back ∧
      front.length = 2 ∧ Offends front marker := by
  constructor
  · rcases parse_splits_at_markers "desc:x\n@init \r\na = 1;\r\n\n  b\n@sample" with
      ⟨_, readable, split, _⟩
    rcases readable.mpr (by decide +kernel) with ⟨unit, read⟩
    rcases (split unit read).2.2 [⟨0, "desc:x".toList⟩]
      [⟨2, "a = 1;".toList⟩, ⟨3, []⟩, ⟨4, "  b".toList⟩, ⟨5, "@sample".toList⟩]
      ⟨1, "@init".toList⟩ .init (by decide +kernel) (by decide) (by decide +kernel) with
      ⟨entry, found, body, offset, _⟩
    exact ⟨unit, entry, read, found, body.trans (by decide), offset⟩
  · have failed : parse "@init\n@sample\n@init\n@other" =
        .error (.malformed 3 "duplicate @init section") := parse_of_error (by decide +kernel)
    rcases (parse_splits_at_markers "@init\n@sample\n@init\n@other").2.2.2 _ failed with
      ⟨front, marker, back, parted, offends, _, same⟩
    refine ⟨failed, front, marker, back, parted, ?_, offends⟩
    exact Nat.succ.inj (Failure.malformed.inj same).1.symm

end ScriptUnit
end EffectHost

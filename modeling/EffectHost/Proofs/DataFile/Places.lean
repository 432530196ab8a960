import EffectHost.DataFile.Streams
import EffectHost.Proofs.Text.Parts

/-!
# Where lines and tokens stand

A text is cut into lines and a line into tokens.  Where they are can be said without cutting
anything.  A line goes up to a line feed, with or without a carriage return in front of it, or to
the end of the text.  A token of a line has a blank, a comma or nothing on its left, the same or
a slash on its right, and no slash in front of it.  The tokens that a stream gets from its lines
are those that stand there, in order.
-/

namespace EffectHost
namespace TextStream

open Text

/-! ## Lines -/

/-- The text consists of these lines.  What follows the last line feed is a line unless it is
empty. -/
inductive HasLines : List Char → List (List Char) → Prop where
  | nothing : HasLines [] []
  | last {line : List Char} (more : line ≠ []) (whole : '\n' ∉ line) : HasLines line [line]
  | feed {line text : List Char} {lines : List (List Char)} (whole : '\n' ∉ line)
      (bare : line.getLast? ≠ some '\r') (behind : HasLines text lines) :
      HasLines (line ++ '\n' :: text) (line :: lines)
  | returnFeed {line text : List Char} {lines : List (List Char)} (whole : '\n' ∉ line)
      (behind : HasLines text lines) :
      HasLines (line ++ '\r' :: '\n' :: text) (line :: lines)

theorem splitLines_of_not_mem {text : List Char} (whole : '\n' ∉ text) :
    splitLines text = if text.isEmpty then [] else [text] := by
  rw [splitLines, List.splitOn_eq_singleton whole]
  rfl

theorem splitLines_append_feed {line : List Char} (whole : '\n' ∉ line) (text : List Char) :
    splitLines (line ++ '\n' :: text) = dropReturn line :: splitLines text := by
  have clear : ∀ c ∈ line, (c == '\n') = false := by
    intro c member
    rw [beq_eq_false_iff_ne]
    rintro rfl
    exact whole member
  have parts : (line ++ '\n' :: text).splitOn '\n' = line :: text.splitOn '\n' :=
    List.splitOnP_append_cons_of_forall_mem clear '\n' rfl text
  have some : text.splitOn '\n' ≠ [] := List.splitOnP_ne_nil _ text
  rw [splitLines, splitLines, parts, List.dropLast_cons_of_ne_nil some, List.map_cons,
    List.getLast?_cons_of_ne_nil some]
  rfl

/-- A text has the lines into which it is split. -/
theorem hasLines_splitLines (text : List Char) : HasLines text (splitLines text) := by
  by_cases ends : '\n' ∈ text
  · rcases List.eq_append_cons_of_mem ends with ⟨line, behind, shape, whole⟩
    have shorter : behind.length < text.length := by
      rw [shape, List.length_append, List.length_cons]
      omega
    have others : HasLines behind (splitLines behind) := hasLines_splitLines behind
    rw [shape, splitLines_append_feed whole, dropReturn]
    split
    · next returned =>
        rcases List.getLast?_eq_some_iff.mp (beq_iff_eq.mp returned) with ⟨front, rfl⟩
        rw [List.dropLast_concat, List.append_assoc]
        exact .returnFeed (fun inside => whole (List.mem_append_left _ inside)) others
    · next bare => exact .feed whole (fun last => bare (beq_iff_eq.mpr last)) others
  · rw [splitLines_of_not_mem ends]
    cases text with
    | nil => exact .nothing
    | cons c others => exact .last (List.cons_ne_nil _ _) ends
termination_by text.length

/-- It has no others. -/
theorem hasLines_iff {text : List Char} {lines : List (List Char)} :
    HasLines text lines ↔ lines = splitLines text := by
  constructor
  · intro parts
    induction parts with
    | nothing => rfl
    | last more whole => rw [splitLines_of_not_mem whole, if_neg (by simpa using more)]
    | feed whole bare _ ih =>
        rw [splitLines_append_feed whole, dropReturn, if_neg (by simpa using bare), ih]
    | @returnFeed line text lines whole _ ih =>
        have parted : line ++ '\r' :: '\n' :: text = (line ++ ['\r']) ++ '\n' :: text := by simp
        have clear : '\n' ∉ line ++ ['\r'] := by simpa using whole
        rw [parted, splitLines_append_feed clear, dropReturn, if_pos (by simp),
          List.dropLast_concat, ih]
  · rintro rfl
    exact hasLines_splitLines text

/-! ## Tokens of a line -/

/-- The character stands between tokens. -/
def separates (c : Char) : Bool :=
  isBlank c || c == ','

/-- A token of a line begins behind so many characters. -/
def TokenAt (line : List Char) (start : Nat) (token : List Char) : Prop :=
  ∃ front back, line = front ++ (token ++ back) ∧ front.length = start ∧ token ≠ [] ∧
    '/' ∉ front ++ token ∧ (∀ c ∈ token, separates c = false) ∧
    (∀ c ∈ front.getLast?, separates c = true) ∧
    ∀ c ∈ back.head?, c = '/' ∨ separates c = true

/-- Pieces of a line and where they begin, if there is one character between any two of them. -/
def placed (start : Nat) : List (List Char) → List (Nat × List Char)
  | [] => []
  | piece :: others => (start, piece) :: placed (start + piece.length + 1) others

@[simp] theorem map_snd_placed (start : Nat) (pieces : List (List Char)) :
    (placed start pieces).map Prod.snd = pieces := by
  induction pieces generalizing start with
  | nil => rfl
  | cons piece others ih => rw [placed, List.map_cons, ih]

theorem le_of_mem_placed {start : Nat} {pieces : List (List Char)} {entry : Nat × List Char}
    (member : entry ∈ placed start pieces) : start ≤ entry.1 := by
  induction pieces generalizing start with
  | nil => cases member
  | cons piece others ih =>
      rcases List.mem_cons.mp member with rfl | behind
      · exact Nat.le_refl start
      · have later := ih behind
        omega

theorem pairwise_placed (start : Nat) (pieces : List (List Char)) :
    (placed start pieces).Pairwise fun one two => one.1 < two.1 := by
  induction pieces generalizing start with
  | nil => exact .nil
  | cons piece others ih =>
      refine .cons (fun entry member => ?_) (ih _)
      have later := le_of_mem_placed member
      omega

/-- A piece of a text has separators or the ends of the text at both its ends, and none inside. -/
structure Parted (front piece back : List Char) : Prop where
  whole : ∀ c ∈ piece, separates c = false
  left : ∀ c ∈ front.getLast?, separates c = true
  right : ∀ c ∈ back.head?, separates c = true

namespace Parted

variable {first front piece back rest : List Char} {mark : Char}

/-- In front of a piece is nothing if there is no separator. -/
theorem front_eq_nil (parted : Parted front piece back)
    (clear : ∀ c ∈ front, separates c = false) : front = [] := by
  rcases List.eq_nil_or_concat front with empty | ⟨others, last, rfl⟩
  · exact empty
  · have inside : last ∈ others.concat last := by simp
    have other := clear last inside
    rw [parted.left last (by simp)] at other
    cases other

/-- Behind a piece is nothing if there is no separator. -/
theorem back_eq_nil (parted : Parted front piece back)
    (clear : ∀ c ∈ back, separates c = false) : back = [] := by
  cases back with
  | nil => rfl
  | cons c others =>
      have other := clear c List.mem_cons_self
      rw [parted.right c rfl] at other
      cases other

/-- A piece is in front of the first separator, or behind it. -/
theorem cases_of_separator (parted : Parted front piece back)
    (clear : ∀ c ∈ first, separates c = false) (parts : separates mark = true)
    (same : front ++ (piece ++ back) = first ++ mark :: rest) :
    (front = [] ∧ piece = first ∧ back = mark :: rest) ∨
      ∃ behind, front = first ++ mark :: behind ∧ rest = behind ++ (piece ++ back) := by
  by_cases empty : front = []
  · rw [empty, List.nil_append] at same
    have spans (text : List Char) (inside : ∀ c ∈ text, separates c = false) (behind : List Char)
        (stops : ∀ c ∈ behind.head?, separates c = true) :
        (text ++ behind).takeWhile (fun c => !separates c) = text ∧
          (text ++ behind).dropWhile (fun c => !separates c) = behind :=
      span_append (fun c member => by rw [inside c member]; rfl)
        (fun c begins => by rw [stops c begins]; rfl)
    have own := spans piece parted.whole back parted.right
    have given := spans first clear (mark :: rest) fun c begins => by
      cases begins
      exact parts
    rw [same] at own
    exact .inl ⟨empty, own.1.symm.trans given.1, own.2.symm.trans given.2⟩
  · rcases List.append_eq_append_iff.mp same with ⟨others, shape, _⟩ | ⟨others, shape, split⟩
    · refine absurd (parted.front_eq_nil fun c inside => clear c ?_) empty
      rw [shape]
      exact List.mem_append_left _ inside
    · cases others with
      | nil =>
          rw [List.append_nil] at shape
          exact absurd (parted.front_eq_nil (shape ▸ clear)) empty
      | cons c behind =>
          rcases List.cons.inj split with ⟨rfl, other⟩
          exact .inr ⟨behind, shape, other⟩

/-- What is in front of a separator does not matter to the pieces behind it. -/
theorem append_iff (parts : separates mark = true) :
    Parted (first ++ mark :: front) piece back ↔ Parted front piece back := by
  have last : (first ++ mark :: front).getLast? = some (front.getLast?.getD mark) := by
    rw [List.getLast?_append, List.getLast?_cons, Option.some_or]
  constructor
  · intro parted
    refine ⟨parted.whole, fun c ends => parted.left c ?_, parted.right⟩
    rw [last, Option.mem_def.mp ends]
    rfl
  · intro parted
    refine ⟨parted.whole, fun c ends => ?_, parted.right⟩
    rw [last] at ends
    cases ends
    cases ended : front.getLast? with
    | none => exact parts
    | some c => exact parted.left c ended

end Parted

/-- The pieces of a text are where they are parted from it. -/
theorem mem_placed_splitOnP (start position : Nat) (text piece : List Char) :
    (position, piece) ∈ placed start (text.splitOnP separates) ↔
      ∃ front back, text = front ++ (piece ++ back) ∧ start + front.length = position ∧
        Parted front piece back := by
  cases found : text.find? separates with
  | some mark =>
      rcases List.find?_eq_some_iff_append.mp found with ⟨parts, first, rest, shape, others⟩
      have clear : ∀ c ∈ first, separates c = false :=
      fun c inside => by simpa using others c inside
      have shorter : rest.length < text.length := by
        rw [shape, List.length_append, List.length_cons]
        omega
      have ih := mem_placed_splitOnP (start + first.length + 1) position rest piece
      rw [shape, List.splitOnP_append_cons_of_forall_mem clear mark parts, placed, List.mem_cons,
        Prod.mk.injEq, ih]
      constructor
      · rintro (⟨rfl, rfl⟩ | ⟨front, back, rfl, rfl, parted⟩)
        · refine ⟨[], mark :: rest, rfl, rfl, clear, nofun, fun c begins => ?_⟩
          cases begins
          exact parts
        · refine ⟨first ++ mark :: front, back, by simp, ?_, (Parted.append_iff parts).mpr parted⟩
          rw [List.length_append, List.length_cons]
          omega
      · rintro ⟨front, back, same, rfl, parted⟩
        rcases parted.cases_of_separator clear parts same.symm with
          ⟨rfl, rfl, _⟩ | ⟨behind, rfl, other⟩
        · exact .inl ⟨rfl, rfl⟩
        · refine .inr ⟨behind, back, other, ?_, (Parted.append_iff parts).mp parted⟩
          rw [List.length_append, List.length_cons]
          omega
  | none =>
      have clear : ∀ c ∈ text, separates c = false := by simpa using found
      rw [List.splitOnP_eq_singleton clear, placed, placed, List.mem_singleton, Prod.mk.injEq]
      constructor
      · rintro ⟨rfl, rfl⟩
        exact ⟨[], [], (List.append_nil _).symm, rfl, clear, nofun, nofun⟩
      · rintro ⟨front, back, rfl, rfl, parted⟩
        have before : front = [] := parted.front_eq_nil fun c inside =>
          clear c (List.mem_append_left _ inside)
        have behind : back = [] := parted.back_eq_nil fun c inside =>
          clear c (List.mem_append_right _ (List.mem_append_right _ inside))
        rw [before, behind, List.append_nil]
        exact ⟨rfl, rfl⟩
termination_by text.length

/-- The tokens of a line and where they begin. -/
def tokenPlaces (line : List Char) : List (Nat × List Char) :=
  (placed 0 ((line.takeWhile (· != '/')).splitOnP separates)).filter fun entry => !entry.2.isEmpty

theorem map_snd_tokenPlaces (line : List Char) : (tokenPlaces line).map Prod.snd = tokens line := by
  have parts : (placed 0 ((line.takeWhile (· != '/')).splitOnP separates)).map Prod.snd =
      (line.takeWhile (· != '/')).splitOnP separates := map_snd_placed 0 _
  exact List.filter_map.symm.trans (congrArg (List.filter fun token => !token.isEmpty) parts)

theorem pairwise_tokenPlaces (line : List Char) :
    (tokenPlaces line).Pairwise fun one two => one.1 < two.1 :=
  (pairwise_placed 0 _).filter _

/-- The tokens of a line are those that stand in it. -/
theorem mem_tokenPlaces {line token : List Char} {start : Nat} :
    (start, token) ∈ tokenPlaces line ↔ TokenAt line start token := by
  rw [tokenPlaces, List.mem_filter, mem_placed_splitOnP, Bool.not_eq_true',
    List.isEmpty_eq_false_iff]
  constructor
  · rintro ⟨⟨front, back, shape, length, parted⟩, more⟩
    have uncut : '/' ∉ front ++ (token ++ back) := fun inside => by
      rw [← shape] at inside
      exact absurd (List.mem_takeWhile_imp inside) (by decide)
    rw [← List.append_assoc] at uncut
    refine ⟨front, back ++ line.dropWhile (· != '/'), ?_, by omega, more,
      fun inside => uncut (List.mem_append_left _ inside), parted.whole, parted.left, ?_⟩
    · rw [← List.append_assoc token, ← List.append_assoc front, ← shape,
        List.takeWhile_append_dropWhile]
    · intro c begins
      cases back with
      | nil =>
          have stopped := List.head?_dropWhile_not (· != '/') line
          rw [List.nil_append, Option.mem_def] at begins
          rw [begins] at stopped
          exact .inl (by simpa using stopped)
      | cons first others => exact .inr (parted.right c begins)
  · rintro ⟨front, back, rfl, rfl, more, uncut, whole, left, right⟩
    refine ⟨⟨front, back.takeWhile (· != '/'), ?_, Nat.zero_add _, whole, left, ?_⟩, more⟩
    · rw [← List.append_assoc, List.takeWhile_append_of_pos (bne_of_not_mem uncut),
        List.append_assoc]
    · intro c begins
      cases back with
      | nil => cases begins
      | cons first others =>
          rw [List.takeWhile_cons] at begins
          split at begins
          · next other =>
              cases begins
              exact (right c rfl).resolve_left (bne_iff_ne.mp other)
          · cases begins

/-! ## Tokens of a text -/

/-- Where a token begins: the number of the line, and the number of characters in front of it
there. -/
structure TokenPlace where
  line : Nat
  start : Nat

/-- A place is in front of another one. -/
def TokenPlace.Before (one two : TokenPlace) : Prop :=
  one.line < two.line ∨ one.line = two.line ∧ one.start < two.start

/-- A token is at a place in some lines. -/
def TokenIn (lines : List (List Char)) (place : TokenPlace) (token : List Char) : Prop :=
  ∃ line, lines[place.line]? = some line ∧ TokenAt line place.start token

/-- The tokens of lines and where they begin, if the first of them has this number. -/
def placesFrom (number : Nat) : List (List Char) → List (TokenPlace × List Char)
  | [] => []
  | line :: others =>
    (tokenPlaces line).map (fun entry => (⟨number, entry.1⟩, entry.2)) ++
      placesFrom (number + 1) others

theorem map_snd_placesFrom (number : Nat) (lines : List (List Char)) :
    (placesFrom number lines).map Prod.snd = lines.flatMap tokens := by
  induction lines generalizing number with
  | nil => rfl
  | cons line others ih =>
      rw [placesFrom, List.map_append, ih, List.map_map, List.flatMap_cons, ← map_snd_tokenPlaces]
      rfl

theorem placesFrom_append (number : Nat) (first others : List (List Char)) :
    placesFrom number (first ++ others) =
      placesFrom number first ++ placesFrom (number + first.length) others := by
  induction first generalizing number with
  | nil => rfl
  | cons line behind ih =>
      rw [List.cons_append, placesFrom, ih, placesFrom, List.append_assoc, List.length_cons,
        Nat.add_right_comm, Nat.add_assoc number]

/-- The tokens of lines are those that are in them. -/
theorem mem_placesFrom {number : Nat} {lines : List (List Char)} {place : TokenPlace}
    {token : List Char} :
    (place, token) ∈ placesFrom number lines ↔
      number ≤ place.line ∧ TokenIn lines ⟨place.line - number, place.start⟩ token := by
  induction lines generalizing number with
  | nil => simp [placesFrom, TokenIn]
  | cons line others ih =>
      rw [placesFrom, List.mem_append, List.mem_map, ih]
      constructor
      · rintro (⟨⟨start, word⟩, inside, same⟩ | ⟨above, found, there, stands⟩)
        · cases same
          refine ⟨Nat.le_refl number, line, ?_, mem_tokenPlaces.mp inside⟩
          rw [Nat.sub_self]
          rfl
        · refine ⟨by omega, found, ?_, stands⟩
          have behind : place.line - number = place.line - (number + 1) + 1 := by omega
          rw [behind]
          exact there
      · rintro ⟨above, found, there, stands⟩
        rcases Nat.eq_or_lt_of_le above with same | later
        · subst same
          rw [Nat.sub_self] at there
          cases there
          exact .inl ⟨(place.start, token), mem_tokenPlaces.mpr stands, rfl⟩
        · refine .inr ⟨later, found, ?_, stands⟩
          have behind : place.line - number = place.line - (number + 1) + 1 := by omega
          rw [behind] at there
          exact there

theorem pairwise_placesFrom (number : Nat) (lines : List (List Char)) :
    (placesFrom number lines).Pairwise fun one two => one.1.Before two.1 := by
  induction lines generalizing number with
  | nil => exact .nil
  | cons line others ih =>
      refine List.pairwise_append.mpr ⟨?_, ih _, ?_⟩
      · exact (pairwise_tokenPlaces line).map _ fun one two less => .inr ⟨rfl, less⟩
      · rintro one inside ⟨place, token⟩ behind
        rcases List.mem_map.mp inside with ⟨entry, _, rfl⟩
        exact .inl (mem_placesFrom.mp behind).1

end TextStream
end EffectHost

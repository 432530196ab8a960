import EffectHost.Proofs.DataFile.Available
import EffectHost.Proofs.DataFile.Places
import Mathlib.Data.List.Nodup

/-!
# Reading a text by tokens and by lines

A text can be read token by token and line by line, and the two can be mixed.  What is read next
depends only on what was come upon since the text was last begun: the reader is past all tokens
that are not behind what it came upon, and has begun all lines up to there.  A value is that of
the first token that it is not past, and a string is the first line that has not been begun.
-/

namespace EffectHost

open Number

namespace TextStream

/-! ## What is unread -/

/-- What a reading comes upon. -/
inductive Finding where
  | token (place : TokenPlace)
  | line (number : Nat)
  /-- The end of the text. -/
  | nothing

namespace Finding

/-- The reader is past the tokens that are not behind a token that it read, past those of a line
that it read and of the lines in front of it, and at the end past all of them. -/
def Passes : Finding → TokenPlace → Prop
  | .token place, other => ¬ place.Before other
  | .line number, other => other.line ≤ number
  | .nothing, _ => True

/-- The lines up to that of a token, or up to a line that was read, have been begun, and at the
end all of them. -/
def Begins : Finding → Nat → Prop
  | .token place, number => number ≤ place.line
  | .line last, number => number ≤ last
  | .nothing, _ => True

end Finding

variable {lines : List (List Char)} {log : List Finding}

/-- A token that the reader is not past. -/
def UnreadToken (lines : List (List Char)) (log : List Finding) (place : TokenPlace)
    (token : List Char) : Prop :=
  TokenIn lines place token ∧ ∀ found ∈ log, ¬ found.Passes place

/-- A line that has not been begun. -/
def UnbegunLine (lines : List (List Char)) (log : List Finding) (number : Nat)
    (line : List Char) : Prop :=
  lines[number]? = some line ∧ ∀ found ∈ log, ¬ found.Begins number

theorem unreadToken_concat {found : Finding} {place : TokenPlace} {token : List Char} :
    UnreadToken lines (log ++ [found]) place token ↔
      UnreadToken lines log place token ∧ ¬ found.Passes place := by
  simp only [UnreadToken, List.forall_mem_append, List.forall_mem_singleton, and_assoc]

end TextStream

open TextStream

/-! ## Answers -/

/-- What is done with a text. -/
inductive TextReading where
  | value
  | string
  | rewind

/-- What it results in. -/
inductive TextAnswer where
  | value (value? : Option Float)
  | string (text? : Option String)
  | rewound

/-- How a text of these lines answers.  What was come upon since it was last begun is noted in
order. -/
inductive TextStream.Answers (lines : List (List Char)) :
    List Finding → TextReading → TextAnswer → List Finding → Prop where
  | token {log : List Finding} {place : TokenPlace} {token : List Char}
      (unread : UnreadToken lines log place token)
      (first : ∀ other word, UnreadToken lines log other word → ¬ other.Before place) :
      Answers lines log .value (.value (some (numberPrefix token).1)) (log ++ [.token place])
  | noToken {log : List Finding} (exhausted : ∀ place token, ¬ UnreadToken lines log place token) :
      Answers lines log .value (.value none) (log ++ [.nothing])
  | line {log : List Finding} {number : Nat} {line : List Char}
      (unread : UnbegunLine lines log number line)
      (first : ∀ other words, UnbegunLine lines log other words → number ≤ other) :
      Answers lines log .string (.string (some (String.ofList line))) (log ++ [.line number])
  | noLine {log : List Finding} (exhausted : ∀ number line, ¬ UnbegunLine lines log number line) :
      Answers lines log .string (.string none) (log ++ [.nothing])
  | rewind {log : List Finding} : Answers lines log .rewind .rewound []

/-- How a text of these lines answers readings in a row. -/
inductive TextStream.AnswersAll (lines : List (List Char)) :
    List Finding → List TextReading → List TextAnswer → Prop where
  | nil {log : List Finding} : AnswersAll lines log [] []
  | cons {log next : List Finding} {reading : TextReading} {answer : TextAnswer}
      {readings : List TextReading} {answers : List TextAnswer}
      (first : Answers lines log reading answer next)
      (others : AnswersAll lines next readings answers) :
      AnswersAll lines log (reading :: readings) (answer :: answers)

namespace OpenFile

/-- What a file answers to a reading, and the file afterwards. -/
def answer (file : OpenFile) : TextReading → TextAnswer × OpenFile
  | .value => (.value file.readValue.1, file.readValue.2)
  | .string => (.string file.readString.1, file.readString.2)
  | .rewind => (.rewound, file.rewind)

/-- What a file answers to readings in a row. -/
def answers (file : OpenFile) : List TextReading → List TextAnswer
  | [] => []
  | reading :: readings => (file.answer reading).1 :: (file.answer reading).2.answers readings

end OpenFile

namespace TextStream

/-! ## One answer at most -/

theorem TokenPlace.eq_of_not_before {one two : TokenPlace} (left : ¬ one.Before two)
    (right : ¬ two.Before one) : one = two := by
  rcases one with ⟨line, start⟩
  rcases two with ⟨number, position⟩
  simp only [Before] at left right
  obtain rfl : line = number := by omega
  obtain rfl : start = position := by omega
  rfl

/-- A token is determined by its place. -/
theorem TokenIn.unique {lines : List (List Char)} {place : TokenPlace} {token other : List Char}
    (first : TokenIn lines place token) (second : TokenIn lines place other) : token = other := by
  rcases first with ⟨line, there, stands⟩
  rcases second with ⟨same, also, stands'⟩
  cases there.symm.trans also
  have distinct : ((tokenPlaces line).map Prod.fst).Nodup :=
    List.pairwise_map.mpr ((pairwise_tokenPlaces line).imp Nat.ne_of_lt)
  have equal := List.inj_on_of_nodup_map distinct (mem_tokenPlaces.mpr stands)
    (mem_tokenPlaces.mpr stands') rfl
  exact congrArg Prod.snd equal

theorem Answers.unique {lines : List (List Char)} {log next next' : List Finding}
    {reading : TextReading} {answer answer' : TextAnswer}
    (one : Answers lines log reading answer next)
    (two : Answers lines log reading answer' next') : answer = answer' ∧ next = next' := by
  cases one with
  | token unread first =>
      cases two with
      | token unread' first' =>
          have same := TokenPlace.eq_of_not_before (first' _ _ unread) (first _ _ unread')
          subst same
          rw [unread.1.unique unread'.1]
          exact ⟨rfl, rfl⟩
      | noToken exhausted => exact absurd unread (exhausted _ _)
  | noToken exhausted =>
      cases two with
      | token unread _ => exact absurd unread (exhausted _ _)
      | noToken _ => exact ⟨rfl, rfl⟩
  | line unread first =>
      cases two with
      | line unread' first' =>
          have same := Nat.le_antisymm (first _ _ unread') (first' _ _ unread)
          subst same
          cases unread.1.symm.trans unread'.1
          exact ⟨rfl, rfl⟩
      | noLine exhausted => exact absurd unread (exhausted _ _)
  | noLine exhausted =>
      cases two with
      | line unread _ => exact absurd unread (exhausted _ _)
      | noLine _ => exact ⟨rfl, rfl⟩
  | rewind =>
      cases two
      exact ⟨rfl, rfl⟩

/-! ## The stream keeps the place -/

/-- The first token of some lines is in the first of them that has any. -/
theorem exists_skipped_of_firstToken? {lines unread : List (List Char)} {token : List Char}
    {pending : List (List Char)} (found : firstToken? lines = some (token, pending, unread)) :
    ∃ skipped line, lines = skipped ++ line :: unread ∧ skipped.flatMap tokens = [] ∧
      tokens line = token :: pending := by
  induction lines with
  | nil => cases found
  | cons line others ih =>
      rw [firstToken?] at found
      split at found
      · next parted =>
          cases found
          exact ⟨[], line, rfl, rfl, parted⟩
      · next empty =>
          rcases ih found with ⟨skipped, last, rfl, without, parted⟩
          refine ⟨line :: skipped, last, rfl, ?_, parted⟩
          rw [List.flatMap_cons, empty, without]
          rfl

/-- The stream has come to where the log says.  So many lines have been begun, and these tokens of
them are left. -/
structure Tracks (lines : List (List Char)) (log : List Finding) (begun : List (List Char))
    (left : List (TokenPlace × List Char)) (stream : TextStream) : Prop where
  whole : stream.lines = lines
  split : lines = begun ++ stream.unread
  begins : ∀ number < lines.length,
    (∃ found ∈ log, found.Begins number) ↔ number < begun.length
  pending : stream.pending = left.map Prod.snd
  inside : ∀ entry ∈ left, entry.1.line < begun.length
  unread : ∀ place token, UnreadToken lines log place token ↔
    (place, token) ∈ left ++ placesFrom begun.length stream.unread
  ordered : (left ++ placesFrom begun.length stream.unread).Pairwise fun one two =>
    one.1.Before two.1

namespace Tracks

variable {lines begun : List (List Char)} {log : List Finding}
  {left others : List (TokenPlace × List Char)} {stream : TextStream} {place : TokenPlace}
  {token : List Char}

theorem start (lines : List (List Char)) : Tracks lines [] [] [] ⟨lines, lines, []⟩ where
  whole := rfl
  split := rfl
  begins := by simp
  pending := rfl
  inside := List.forall_mem_nil _
  unread := by
    intro place token
    rw [List.nil_append, mem_placesFrom, UnreadToken]
    simp
  ordered := pairwise_placesFrom 0 lines

/-- The lines that have not been begun are those behind the ones that have. -/
theorem unbegunLine_iff (tracks : Tracks lines log begun left stream) {number : Nat}
    {line : List Char} :
    UnbegunLine lines log number line ↔ lines[number]? = some line ∧ begun.length ≤ number := by
  rw [UnbegunLine, and_congr_right_iff]
  intro there
  rcases List.getElem?_eq_some_iff.mp there with ⟨inside, _⟩
  rw [← Nat.not_lt, ← tracks.begins number inside]
  simp

/-- The first of the tokens that are left is the first one that is unread. -/
theorem first_unread (tracks : Tracks lines log begun left stream)
    (shape : left ++ placesFrom begun.length stream.unread = (place, token) :: others) :
    UnreadToken lines log place token ∧
      (∀ other word, UnreadToken lines log other word → ¬ other.Before place) ∧
      ∀ other word, UnreadToken lines (log ++ [.token place]) other word ↔
        (other, word) ∈ others := by
  have ordered := tracks.ordered
  rw [shape, List.pairwise_cons] at ordered
  have unread := tracks.unread
  simp only [shape, List.mem_cons] at unread
  have apart : ¬ place.Before place := by
    simp only [TokenPlace.Before]
    omega
  refine ⟨(unread place token).mpr (.inl rfl), ?_, ?_⟩
  · intro other word also before
    rcases (unread other word).mp also with same | behind
    · cases same
      exact apart before
    · have after := ordered.1 _ behind
      simp only [TokenPlace.Before] at before after
      omega
  · intro other word
    rw [unreadToken_concat, unread, Finding.Passes, not_not]
    constructor
    · rintro ⟨same | behind, before⟩
      · cases same
        exact absurd before apart
      · exact behind
    · intro behind
      exact ⟨.inr behind, ordered.1 _ behind⟩

theorem begins_concat (tracks : Tracks lines log begun left stream) (found : Finding)
    {number : Nat} (inside : number < lines.length) :
    (∃ earlier ∈ log ++ [found], earlier.Begins number) ↔
      number < begun.length ∨ found.Begins number := by
  rw [← tracks.begins number inside]
  simp [or_and_right, exists_or]

/-- Where no token is left, a reading of a value comes to the end. -/
theorem readValue_of_nil (tracks : Tracks lines log begun [] stream)
    (absent : firstToken? stream.unread = none) :
    stream.readValue = (none, { stream with unread := [] }) ∧
      Answers lines log .value (.value none) (log ++ [.nothing]) ∧
      Tracks lines (log ++ [.nothing]) lines [] { stream with unread := [] } := by
  have without : placesFrom begun.length stream.unread = [] := by
    have empty := map_snd_placesFrom begun.length stream.unread
    rw [firstToken?_eq_none absent] at empty
    exact List.map_eq_nil_iff.mp empty
  have exhausted : ∀ place token, ¬ UnreadToken lines log place token := by
    intro place token unread
    have left := (tracks.unread place token).mp unread
    rw [without] at left
    cases left
  refine ⟨?_, .noToken exhausted, tracks.whole, (List.append_nil lines).symm, ?_, tracks.pending,
    List.forall_mem_nil _, ?_, .nil⟩
  · rw [readValue, nextToken, tracks.pending, List.map_nil]
    simp only [absent, Option.map_none]
  · intro number inside
    rw [tracks.begins_concat .nothing inside]
    exact iff_of_true (.inr trivial) inside
  · intro place token
    exact iff_of_false (fun unread => (unreadToken_concat.mp unread).2 trivial) List.not_mem_nil

/-- Where the line that was begun has tokens left, the first of them is read. -/
theorem readValue_of_cons (tracks : Tracks lines log begun ((place, token) :: left) stream) :
    let next := { stream with pending := left.map Prod.snd }
    stream.readValue = (some (numberPrefix token).1, next) ∧
      Answers lines log .value (.value (some (numberPrefix token).1)) (log ++ [.token place]) ∧
      Tracks lines (log ++ [.token place]) begun left next := by
  rcases tracks.first_unread (List.cons_append ..) with ⟨unread, first, others⟩
  have inside : place.line < begun.length := tracks.inside _ List.mem_cons_self
  refine ⟨?_, .token unread first, tracks.whole, tracks.split, ?_, rfl, ?_, others, ?_⟩
  · rw [readValue, nextToken, tracks.pending, List.map_cons]
    rfl
  · intro number within
    rw [tracks.begins_concat (.token place) within, Finding.Begins]
    omega
  · exact fun entry member => tracks.inside entry (List.mem_cons_of_mem _ member)
  · exact (List.pairwise_cons.mp tracks.ordered).2

/-- The tokens of some lines are those of the first of them that has any, and those behind it. -/
theorem placesFrom_of_firstToken? (number : Nat) {lines pending unread : List (List Char)}
    {token : List Char} (found : firstToken? lines = some (token, pending, unread)) :
    ∃ skipped line start left, lines = skipped ++ line :: unread ∧ left.map Prod.snd = pending ∧
      (∀ entry ∈ left, entry.1.line = number + skipped.length) ∧
      placesFrom number lines = (⟨number + skipped.length, start⟩, token) ::
        (left ++ placesFrom (number + skipped.length + 1) unread) := by
  rcases exists_skipped_of_firstToken? found with ⟨skipped, line, shape, without, parted⟩
  rw [← map_snd_placesFrom number] at without
  rw [← map_snd_tokenPlaces] at parted
  rcases List.map_eq_cons_iff.mp parted with ⟨⟨start, _⟩, others, placed, rfl, rest⟩
  refine ⟨skipped, line, start,
    others.map fun entry => (⟨number + skipped.length, entry.1⟩, entry.2), shape, ?_, ?_, ?_⟩
  · rw [List.map_map, ← rest]
    rfl
  · intro entry member
    rcases List.mem_map.mp member with ⟨other, _, rfl⟩
    rfl
  · rw [shape, placesFrom_append, List.map_eq_nil_iff.mp without, placesFrom, placed]
    rfl

/-- Where it has none left, the first token of the lines behind it is read.  The lines in front of
that token have been begun as well. -/
theorem readValue_of_firstToken? (tracks : Tracks lines log begun [] stream)
    {pending unread : List (List Char)}
    (found : firstToken? stream.unread = some (token, pending, unread)) :
    let next := { stream with pending := pending, unread := unread }
    stream.readValue = (some (numberPrefix token).1, next) ∧ ∃ place begun' left,
      Answers lines log .value (.value (some (numberPrefix token).1)) (log ++ [.token place]) ∧
      Tracks lines (log ++ [.token place]) begun' left next := by
  intro next
  rcases placesFrom_of_firstToken? begun.length found with
    ⟨skipped, line, start, left, shape, own, within, placed⟩
  have count : (begun ++ (skipped ++ [line])).length = begun.length + skipped.length + 1 := by
    simp [Nat.add_assoc]
  rcases tracks.first_unread placed with ⟨isUnread, first, others⟩
  have ordered := tracks.ordered
  rw [List.nil_append, placed] at ordered
  constructor
  · rw [readValue, nextToken, tracks.pending, List.map_nil]
    simp only [found, Option.map_some, next]
  · refine ⟨_, begun ++ (skipped ++ [line]), left, .token isUnread first, tracks.whole, ?_, ?_,
      own.symm, ?_, ?_, ?_⟩
    · rw [tracks.split, shape]
      simp [next]
    · intro number inside
      rw [tracks.begins_concat _ inside, count, Finding.Begins]
      dsimp only
      omega
    · intro entry member
      rw [within entry member, count]
      exact Nat.lt_succ_self _
    · rw [count]
      exact others
    · rw [count]
      exact (List.pairwise_cons.mp ordered).2

/-- A reading of a value comes upon the first token that is unread, and answers with its number. -/
theorem readValue (tracks : Tracks lines log begun left stream) :
    ∃ next begun' left', Answers lines log .value (.value stream.readValue.1) next ∧
      Tracks lines next begun' left' stream.readValue.2 := by
  cases left with
  | cons entry others =>
      rcases tracks.readValue_of_cons with ⟨read, answers, kept⟩
      rw [read]
      exact ⟨_, _, _, answers, kept⟩
  | nil =>
      cases found : firstToken? stream.unread with
      | none =>
          rcases tracks.readValue_of_nil found with ⟨read, answers, kept⟩
          rw [read]
          exact ⟨_, _, _, answers, kept⟩
      | some first =>
          rcases tracks.readValue_of_firstToken? found with
            ⟨read, place, begun', left, answers, kept⟩
          rw [read]
          exact ⟨_, _, _, answers, kept⟩

/-- The next line that has not been begun is read as a whole.  The tokens that were left of the one
in front of it are given up. -/
theorem readString_of_cons (tracks : Tracks lines log begun left stream) {line : List Char}
    {unread : List (List Char)} (shape : stream.unread = line :: unread) :
    let next := { stream with pending := [], unread := unread }
    stream.readString = (some (String.ofList line), next) ∧
      Answers lines log .string (.string (some (String.ofList line)))
        (log ++ [.line begun.length]) ∧
      Tracks lines (log ++ [.line begun.length]) (begun ++ [line]) [] next := by
  have split := tracks.split
  have remains := tracks.unread
  have ordered := tracks.ordered
  rw [shape] at split
  rw [shape, placesFrom, ← List.append_assoc] at ordered
  simp only [shape, placesFrom, List.mem_append] at remains
  have there : lines[begun.length]? = some line := by
    rw [split, List.getElem?_append_right (Nat.le_refl _), Nat.sub_self]
    rfl
  have count : (begun ++ [line]).length = begun.length + 1 := List.length_append
  refine ⟨?_, .line (tracks.unbegunLine_iff.mpr ⟨there, Nat.le_refl _⟩) fun _ _ unbegun =>
    (tracks.unbegunLine_iff.mp unbegun).2, tracks.whole, ?_, ?_, rfl, List.forall_mem_nil _,
    ?_, ?_⟩
  · rw [TextStream.readString, shape]
  · rw [split, List.append_assoc]
    rfl
  · intro number inside
    rw [tracks.begins_concat _ inside, count, Finding.Begins]
    omega
  · intro place token
    rw [unreadToken_concat, remains, count, Finding.Passes, List.nil_append]
    constructor
    · rintro ⟨before | same | behind, past⟩
      · exact absurd (Nat.le_of_lt (tracks.inside _ before)) past
      · rcases List.mem_map.mp same with ⟨entry, _, there⟩
        cases there
        exact absurd (Nat.le_refl _) past
      · exact behind
    · intro behind
      have later := (mem_placesFrom.mp behind).1
      exact ⟨.inr (.inr behind), by omega⟩
  · rw [count]
    exact (List.pairwise_append.mp ordered).2.1

/-- Where all lines have been begun, a reading of a string comes to the end. -/
theorem readString_of_nil (tracks : Tracks lines log begun left stream)
    (shape : stream.unread = []) :
    let next := { stream with pending := [] }
    stream.readString = (none, next) ∧
      Answers lines log .string (.string none) (log ++ [.nothing]) ∧
      Tracks lines (log ++ [.nothing]) begun [] next := by
  have all : lines.length = begun.length := by
    rw [tracks.split, shape, List.append_nil]
  have exhausted : ∀ number line, ¬ UnbegunLine lines log number line := by
    intro number line unbegun
    rcases tracks.unbegunLine_iff.mp unbegun with ⟨there, behind⟩
    rcases List.getElem?_eq_some_iff.mp there with ⟨inside, _⟩
    omega
  have without : placesFrom begun.length stream.unread = [] := by
    rw [shape]
    rfl
  refine ⟨?_, .noLine exhausted, tracks.whole, tracks.split, ?_, rfl, List.forall_mem_nil _,
    ?_, ?_⟩
  · rw [TextStream.readString, shape]
  · intro number inside
    rw [tracks.begins_concat .nothing inside]
    exact iff_of_true (.inr trivial) (by omega)
  · intro place token
    rw [without]
    exact iff_of_false (fun unread => (unreadToken_concat.mp unread).2 trivial) List.not_mem_nil
  · rw [without]
    exact .nil

theorem rewind (tracks : Tracks lines log begun left stream) :
    Tracks lines [] [] [] stream.rewind := by
  rw [TextStream.rewind, tracks.whole]
  exact start lines

/-- Whatever is done with a text, it answers by what was come upon, and keeps track of it. -/
theorem answer (tracks : Tracks lines log begun left stream) (reading : TextReading) :
    ∃ answer next begun' left' stream', (OpenFile.text stream).answer reading =
        (answer, .text stream') ∧
      Answers lines log reading answer next ∧ Tracks lines next begun' left' stream' := by
  cases reading with
  | value =>
      rcases tracks.readValue with ⟨next, begun', left', answers, kept⟩
      exact ⟨_, next, begun', left', _, rfl, answers, kept⟩
  | string =>
      cases shape : stream.unread with
      | cons line unread =>
          rcases tracks.readString_of_cons shape with ⟨read, answers, kept⟩
          refine ⟨_, _, _, _, _, ?_, answers, kept⟩
          rw [OpenFile.answer, OpenFile.readString, read]
      | nil =>
          rcases tracks.readString_of_nil shape with ⟨read, answers, kept⟩
          refine ⟨_, _, _, _, _, ?_, answers, kept⟩
          rw [OpenFile.answer, OpenFile.readString, read]
  | rewind =>
      exact ⟨_, _, _, _, _, rfl, .rewind, tracks.rewind⟩

end Tracks

/-- A text answers all readings as its lines have it, and in no other way. -/
theorem Tracks.answers_iff {lines begun : List (List Char)} {log : List Finding}
    {left : List (TokenPlace × List Char)} {stream : TextStream}
    (tracks : Tracks lines log begun left stream) (readings : List TextReading)
    (answers : List TextAnswer) :
    (OpenFile.text stream).answers readings = answers ↔ AnswersAll lines log readings answers := by
  induction readings generalizing log begun left stream answers with
  | nil =>
      constructor
      · rintro rfl
        exact .nil
      · rintro ⟨⟩
        rfl
  | cons reading others ih =>
      rcases tracks.answer reading with ⟨answer, next, begun', left', stream', given, first, kept⟩
      rw [OpenFile.answers, given]
      constructor
      · rintro rfl
        exact .cons first ((ih kept _).mp rfl)
      · rintro (_ | ⟨first', behind⟩)
        rcases first.unique first' with ⟨rfl, rfl⟩
        rw [(ih kept _).mpr behind]

end TextStream

namespace OpenFile

/-- An opened text has its lines and no others, and is read by them: whatever values and strings
are read from it in whatever order, it answers as its tokens and lines have it, and in no other
way. -/
theorem text_is_read_in_order (text : String) :
    ∃ lines, (∀ other, HasLines text.toList other ↔ other = lines) ∧
      ∀ (readings : List TextReading) (answers : List TextAnswer),
        (OpenFile.text (TextStream.ofText text)).answers readings = answers ↔
          AnswersAll lines [] readings answers :=
  ⟨_, fun _ => hasLines_iff, (Tracks.start _).answers_iff⟩

end OpenFile
end EffectHost

import EffectHost.Text.Blank
import Mathlib.Data.List.TakeWhile

/-!
# Blanks around a text

Trimming takes away the blanks on both sides of a text, and nothing else.  So a text that is
trimmed comes back from any text that has it between blanks.
-/

namespace EffectHost
namespace Text

/-- There is nothing but blanks. -/
def Blanks (text : List Char) : Prop :=
  ∀ c ∈ text, isBlank c = true

/-- A text between blanks. -/
def Padded (inner text : List Char) : Prop :=
  ∃ front back, Blanks front ∧ Blanks back ∧ text = front ++ (inner ++ back)

variable {front inner back text : List Char} {c : Char}

theorem trimStart_append (blanks : Blanks front) (text : List Char) :
    trimStart (front ++ text) = trimStart text :=
  List.dropWhile_append_of_pos blanks

/-- Nothing is taken away in front of a character that is not blank. -/
theorem trimStart_cons (sharp : isBlank c = false) (text : List Char) :
    trimStart (c :: text) = c :: text :=
  List.dropWhile_cons_of_neg (ne_true_of_eq_false sharp)

theorem trimEnd_append (blanks : Blanks back) (text : List Char) :
    trimEnd (text ++ back) = trimEnd text := by
  rw [trimEnd, List.reverse_append, List.dropWhile_append_of_pos, ← trimEnd]
  exact fun c member => blanks c (List.mem_reverse.mp member)

theorem trimEnd_cons (sharp : isBlank c = false) (text : List Char) :
    trimEnd (c :: text) = c :: trimEnd text := by
  have last : [c].dropWhile isBlank = [c] := trimStart_cons sharp []
  rw [trimEnd, trimEnd, List.reverse_cons, List.dropWhile_append, last]
  split
  · next nothing =>
      rw [List.isEmpty_iff.mp nothing]
      rfl
  · rw [List.reverse_append]
    rfl

theorem exists_blanks_trimEnd (text : List Char) :
    ∃ back, Blanks back ∧ text = trimEnd text ++ back := by
  refine ⟨(text.reverse.takeWhile isBlank).reverse, ?_, ?_⟩
  · intro c member
    exact List.mem_takeWhile_imp (List.mem_reverse.mp member)
  · rw [trimEnd, ← List.reverse_append, List.takeWhile_append_dropWhile, List.reverse_reverse]

theorem trimStart_of_blanks (blanks : Blanks text) : trimStart text = [] :=
  List.dropWhile_eq_nil_iff.mpr blanks

theorem trim_append (blanks : Blanks back) (text : List Char) :
    trim (text ++ back) = trim text := by
  rw [trim, trim, trimStart, List.dropWhile_append]
  split
  · next nothing =>
      have none : trimStart text = [] := List.isEmpty_iff.mp nothing
      rw [← trimStart, trimStart_of_blanks blanks, none]
  · exact trimEnd_append blanks _

/-- Trimming takes the blanks around a text away. -/
theorem Padded.trim_eq (padded : Padded inner text) : trim text = trim inner := by
  rcases padded with ⟨front, back, before, behind, rfl⟩
  rw [trim, trimStart_append before, ← trim, trim_append behind]

theorem trim_trimEnd (text : List Char) : trim (trimEnd text) = trim text := by
  rcases exists_blanks_trimEnd text with ⟨back, blanks, whole⟩
  exact (trim_append blanks _).symm.trans (congrArg trim whole.symm)

/-- Behind blanks, a mark is found in front of what it marks. -/
theorem trim_marked (before : Blanks front) (sharp : isBlank c = false) (text : List Char) :
    trim (front ++ c :: text) = c :: trimEnd text := by
  rw [trim, trimStart_append before, trimStart_cons sharp, trimEnd_cons sharp]

/-- There is no blank at either end. -/
def SharpEnds (text : List Char) : Prop :=
  (∀ c ∈ text.head?, isBlank c = false) ∧ ∀ c ∈ text.getLast?, isBlank c = false

/-- There is nothing to trim from a text without blanks at its ends. -/
theorem SharpEnds.trim_eq (sharp : SharpEnds text) : trim text = text := by
  have starts : trimStart text = text := by
    cases text with
    | nil => rfl
    | cons c rest => exact trimStart_cons (sharp.1 c rfl) rest
  have ends : trimEnd text = text := by
    rcases List.eq_nil_or_concat text with rfl | ⟨front, c, rfl⟩
    · rfl
    · rw [List.concat_eq_append] at sharp ⊢
      have last : isBlank c = false := sharp.2 c List.getLast?_concat
      rw [trimEnd, List.reverse_concat, List.dropWhile_cons_of_neg (ne_true_of_eq_false last),
        ← List.reverse_concat, List.reverse_reverse]
  rw [trim, starts, ends]

/-- A text without blanks is trimmed. -/
theorem trim_of_sharp (sharp : ∀ c ∈ text, isBlank c = false) : trim text = text :=
  SharpEnds.trim_eq
    ⟨fun c first => sharp c (List.mem_of_mem_head? first),
      fun c last => sharp c (List.mem_of_mem_getLast? last)⟩

/-- What is left of a text without the blanks around it. -/
def TrimsTo (text inner : List Char) : Prop :=
  Padded inner text ∧ SharpEnds inner

theorem padded_trim (text : List Char) : Padded (trim text) text := by
  rcases exists_blanks_trimEnd (trimStart text) with ⟨back, behind, rest⟩
  refine ⟨text.takeWhile isBlank, back, fun _ => List.mem_takeWhile_imp, behind, ?_⟩
  rw [trim, ← rest, trimStart, List.takeWhile_append_dropWhile]

/-- Where blanks are dropped, what is left does not begin with one. -/
theorem isBlank_of_mem_head?_dropWhile (left : c ∈ (text.dropWhile isBlank).head?) :
    isBlank c = false := by
  have first := List.head?_dropWhile_not isBlank text
  rw [Option.mem_def.mp left] at first
  exact first

theorem sharpEnds_trim (text : List Char) : SharpEnds (trim text) := by
  constructor
  · intro c first
    cases rest : trimStart text with
    | nil =>
        rw [trim, rest] at first
        cases first
    | cons mark behind =>
        have left : mark ∈ (text.dropWhile isBlank).head? := by
          rw [← trimStart, rest]
          rfl
        have sharp := isBlank_of_mem_head?_dropWhile left
        rw [trim, rest, trimEnd_cons sharp] at first
        rw [← Option.some.inj first, sharp]
  · intro c last
    rw [trim, trimEnd, List.getLast?_reverse] at last
    exact isBlank_of_mem_head?_dropWhile last

theorem trimsTo_iff : TrimsTo text inner ↔ trim text = inner := by
  constructor
  · rintro ⟨padded, sharp⟩
    rw [padded.trim_eq, sharp.trim_eq]
  · rintro rfl
    exact ⟨padded_trim text, sharpEnds_trim text⟩

/-- A character that is not blank is in a padded text only if it is in the text itself. -/
theorem Padded.mem_inner (padded : Padded inner text) (sharp : isBlank c = false)
    (member : c ∈ text) : c ∈ inner := by
  rcases padded with ⟨front, back, before, behind, rfl⟩
  rcases List.mem_append.mp member with ahead | other
  · rw [before c ahead] at sharp
    cases sharp
  · rcases List.mem_append.mp other with inside | after
    · exact inside
    · rw [behind c after] at sharp
      cases sharp

end Text
end EffectHost

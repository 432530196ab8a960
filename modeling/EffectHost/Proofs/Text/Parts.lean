import EffectHost.Text.Blank
import Mathlib.Data.List.TakeWhile

/-!
# Parts of a text

A text is parted behind a word with which it begins, or at the first place of a mark.  In either
case the parts, put together again, are the text.
-/

namespace EffectHost
namespace Text

theorem afterPrefix?_eq_some_iff {lead text rest : List Char} :
    afterPrefix? lead text = some rest ↔ text = lead ++ rest := by
  unfold afterPrefix?
  split
  · next begins =>
      rcases List.isPrefixOf_iff_prefix.mp begins with ⟨behind, rfl⟩
      simp
  · next differs =>
      constructor
      · nofun
      · rintro rfl
        exact absurd (List.isPrefixOf_iff_prefix.mpr (List.prefix_append lead rest)) differs

/-- A text begins with at most one of two words of which neither begins with the other. -/
theorem afterPrefix?_of_apart {lead other text rest : List Char}
    (apart : ¬ lead <+: other ∧ ¬ other <+: lead) (begins : afterPrefix? lead text = some rest) :
    afterPrefix? other text = none := by
  cases again : afterPrefix? other text with
  | none => rfl
  | some behind =>
      have first : lead <+: text := ⟨rest, (afterPrefix?_eq_some_iff.mp begins).symm⟩
      have second : other <+: text := ⟨behind, (afterPrefix?_eq_some_iff.mp again).symm⟩
      rcases List.prefix_or_prefix_of_prefix first second with inside | inside
      · exact absurd inside apart.1
      · exact absurd inside apart.2

/-- Characters of a kind are taken up to the first of another kind. -/
theorem span_append {kind : Char → Bool} {front rest : List Char}
    (all : ∀ c ∈ front, kind c = true) (stops : ∀ c ∈ rest.head?, kind c = false) :
    (front ++ rest).takeWhile kind = front ∧ (front ++ rest).dropWhile kind = rest := by
  rw [List.takeWhile_append_of_pos all, List.dropWhile_append_of_pos all]
  cases rest with
  | nil => exact ⟨List.append_nil front, rfl⟩
  | cons c behind =>
      have other : ¬ kind c = true := ne_true_of_eq_false (stops c rfl)
      rw [List.takeWhile_cons_of_neg other, List.dropWhile_cons_of_neg other]
      exact ⟨List.append_nil front, rfl⟩

/-- What is in front of the first place of a mark. -/
theorem bne_of_not_mem {mark : Char} {text : List Char} (clear : mark ∉ text) :
    ∀ c ∈ text, (c != mark) = true := by
  intro c member
  rw [bne_iff_ne]
  rintro rfl
  exact clear member

theorem takeWhile_bne_append {mark : Char} {front : List Char} (clear : mark ∉ front)
    (back : List Char) : (front ++ mark :: back).takeWhile (· != mark) = front := by
  rw [List.takeWhile_append_of_pos (bne_of_not_mem clear), List.takeWhile_cons_of_neg (by simp),
    List.append_nil]

theorem splitFirst?_append {mark : Char} {front : List Char} (clear : mark ∉ front)
    (back : List Char) : splitFirst? mark (front ++ mark :: back) = some (front, back) := by
  have keeps := bne_of_not_mem clear
  unfold splitFirst?
  rw [List.dropWhile_append_of_pos keeps, List.takeWhile_append_of_pos keeps]
  simp

theorem splitFirst?_of_not_mem {mark : Char} {text : List Char} (clear : mark ∉ text) :
    splitFirst? mark text = none := by
  unfold splitFirst?
  rw [List.dropWhile_eq_nil_iff.mpr (bne_of_not_mem clear)]

/-- A text is parted at the first place of the mark. -/
theorem splitFirst?_eq_some_iff {mark : Char} {text front back : List Char} :
    splitFirst? mark text = some (front, back) ↔ mark ∉ front ∧ text = front ++ mark :: back := by
  constructor
  · intro split
    by_cases member : mark ∈ text
    · rcases List.eq_append_cons_of_mem member with ⟨before, behind, rfl, clear⟩
      rw [splitFirst?_append clear] at split
      cases split
      exact ⟨clear, rfl⟩
    · rw [splitFirst?_of_not_mem member] at split
      cases split
  · rintro ⟨clear, rfl⟩
    exact splitFirst?_append clear back

/-- A text without the mark is not parted. -/
theorem splitFirst?_eq_none_iff {mark : Char} {text : List Char} :
    splitFirst? mark text = none ↔ mark ∉ text := by
  constructor
  · intro whole member
    rcases List.eq_append_cons_of_mem member with ⟨before, behind, rfl, clear⟩
    rw [splitFirst?_append clear] at whole
    cases whole
  · exact splitFirst?_of_not_mem

/-- What holds of the pieces and of what stands between them holds of them all. -/
theorem forall_mem_intercalate {Holds : Char → Prop} {gap : List Char} {list : List (List Char)}
    (between : ∀ c ∈ gap, Holds c) (each : ∀ word ∈ list, ∀ c ∈ word, Holds c) :
    ∀ c ∈ List.intercalate gap list, Holds c := by
  match list with
  | [] => simp
  | first :: rest =>
      induction rest generalizing first with
      | nil => simpa using each
      | cons second rest ih =>
          rw [List.forall_mem_cons] at each
          rw [List.intercalate_cons_cons, List.forall_mem_append, List.forall_mem_append]
          exact ⟨⟨each.1, between⟩, ih second each.2⟩

theorem not_mem_intercalate {mark : Char} {gap : List Char} {list : List (List Char)}
    (between : mark ∉ gap) (each : ∀ word ∈ list, mark ∉ word) :
    mark ∉ List.intercalate gap list := by
  have other : ∀ c ∈ List.intercalate gap list, c ≠ mark :=
    forall_mem_intercalate (fun c inside same => between (same ▸ inside))
      (fun word listed c inside same => each word listed (same ▸ inside))
  exact fun member => other mark member rfl

end Text
end EffectHost

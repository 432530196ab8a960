import EffectHost.Proofs.Text.Parts
import EffectHost.Script.Header
import Mathlib.Data.List.Basic
import Mathlib.Tactic.SplitIfs

/-!
# What a line declares

A line declares something by the word that it begins with.  The leading words are so different
that no line begins with two of them, so it does not matter in which order they are looked for.
-/

namespace EffectHost

open Text

/-! ## Leading words -/

/-- A row of leading words, each with a reader of what follows it. -/
abbrev LeadTable (α : Type) := List (String × (List Char → α))

namespace LeadTable

variable {α : Type} {table : LeadTable α} {lead : String} {read : List Char → α}
  {line rest : List Char}

/-- What the first leading word of the table makes of a line. -/
def find? (table : LeadTable α) (line : List Char) : Option α :=
  table.findSome? fun entry => (afterPrefix? entry.1.toList line).map entry.2

/-- Neither of two leading words begins with the other. -/
def Apart (first second : String) : Prop :=
  ¬ first.toList <+: second.toList ∧ ¬ second.toList <+: first.toList

instance (first second : String) : Decidable (Apart first second) :=
  inferInstanceAs (Decidable (_ ∧ _))

/-- No line begins with two of the leading words. -/
def Distinct (table : LeadTable α) : Prop :=
  (table.map Prod.fst).Pairwise Apart

instance (table : LeadTable α) : Decidable table.Distinct :=
  inferInstanceAs (Decidable (List.Pairwise _ _))

/-- The order of the table does not matter: a line is read by the entry that it begins with. -/
theorem find?_of_begins (distinct : table.Distinct) (member : (lead, read) ∈ table)
    (begins : afterPrefix? lead.toList line = some rest) : table.find? line = some (read rest) := by
  induction table with
  | nil => cases member
  | cons entry others ih =>
      rw [Distinct, List.map_cons, List.pairwise_cons] at distinct
      rw [find?, List.findSome?_cons]
      rcases List.mem_cons.mp member with rfl | behind
      · rw [begins]
        rfl
      · have apart := distinct.1 lead (List.mem_map_of_mem (f := Prod.fst) behind)
        rw [afterPrefix?_of_apart ⟨apart.2, apart.1⟩ begins]
        exact ih distinct.2 behind

theorem find?_eq_none (differs : ∀ entry ∈ table, afterPrefix? entry.1.toList line = none) :
    table.find? line = none := by
  rw [find?, List.findSome?_eq_none_iff]
  intro entry member
  rw [differs entry member]
  rfl

theorem exists_of_find?_eq_some {value : α} (found : table.find? line = some value) :
    ∃ entry ∈ table, ∃ rest, afterPrefix? entry.1.toList line = some rest ∧ entry.2 rest = value := by
  rcases List.exists_of_findSome?_eq_some found with ⟨entry, member, here⟩
  rcases Option.map_eq_some_iff.mp here with ⟨rest, begins, read⟩
  exact ⟨entry, member, rest, begins, read⟩

end LeadTable

/-! ## Declarations -/

/-- A slider line is the word, a decimal number from one to sixty-four, a colon and the
declaration. -/
theorem Slider.splitLine?_eq_some_iff {line text : List Char} {slot : Fin sliderSlots} :
    splitLine? line = some (slot, text) ↔
      ∃ digits, digits ≠ [] ∧ (∀ c ∈ digits, isDigit c = true) ∧
        digitsValue digits = slot + 1 ∧ line = "slider".toList ++ digits ++ ':' :: text := by
  constructor
  · intro read
    rcases Option.bind_eq_some_iff.mp read with ⟨behind, begins, readBehind⟩
    rcases Option.bind_eq_some_iff.mp readBehind with ⟨⟨digits, rest⟩, parts, readParts⟩
    rcases splitFirst?_eq_some_iff.mp parts with ⟨_, rfl⟩
    dsimp only at readParts
    split_ifs at readParts with bad fits
    cases readParts
    simp only [Bool.or_eq_true, List.isEmpty_iff, Bool.not_eq_true', not_or,
      Bool.not_eq_false, List.all_eq_true] at bad
    refine ⟨digits, bad.1, bad.2, ?_, ?_⟩
    · dsimp only
      omega
    · rw [afterPrefix?_eq_some_iff.mp begins, List.append_assoc]
  · rintro ⟨digits, nonempty, all, value, rfl⟩
    have colon : ':' ∉ digits := by
      intro member
      cases all _ member
    have begins : afterPrefix? "slider".toList ("slider".toList ++ digits ++ ':' :: text) =
        some (digits ++ ':' :: text) := by
      rw [afterPrefix?_eq_some_iff, List.append_assoc]
    have bound : 0 < digitsValue digits ∧ digitsValue digits ≤ sliderSlots := by
      have := slot.isLt
      omega
    have good : ¬ (digits.isEmpty || !digits.all isDigit) = true := by
      simpa [nonempty] using all
    have place : (⟨digitsValue digits - 1, by omega⟩ : Fin sliderSlots) = slot := by
      apply Fin.ext
      dsimp only
      omega
    unfold splitLine?
    rw [begins, Option.bind_eq_bind, Option.bind_some, splitFirst?_append colon,
      Option.bind_eq_bind, Option.bind_some, if_neg good]
    dsimp only
    rw [dif_pos bound, place]

namespace Declaration

theorem distinct_readers : LeadTable.Distinct readers := by
  decide

/-- No slider line begins with another leading word. -/
theorem apart_slider : ∀ entry ∈ readers, LeadTable.Apart "slider" entry.1 := by
  decide

/-- The leading word of a line that declares this. -/
def lead : Declaration → String
  | .description _ => "desc:"
  | .author _ => "author:"
  | .tags _ => "tags:"
  | .inPin _ => "in_pin:"
  | .outPin _ => "out_pin:"
  | .options _ => "options:"
  | .importFile _ => "import"
  | .dataFile _ _ => "filename:"
  | .slider _ _ => "slider"

theorem lead_of_read {entry : String × (List Char → Option Declaration)} (member : entry ∈ readers)
    {rest : List Char} {declaration : Declaration} (read : entry.2 rest = some declaration) :
    declaration.lead = entry.1 := by
  simp only [readers, List.mem_cons, List.not_mem_nil, or_false] at member
  rcases member with rfl | rfl | rfl | rfl | rfl | rfl | rfl | rfl
  case inr.inr.inr.inr.inr.inr.inl =>
    dsimp only at read
    split at read
    · cases read
      rfl
    · cases read
  case inr.inr.inr.inr.inr.inr.inr =>
    rcases Option.bind_eq_some_iff.mp read with ⟨parts, _, read⟩
    rcases Option.bind_eq_some_iff.mp read with ⟨index, _, read⟩
    cases read
    rfl
  all_goals
    cases read
    rfl

section Kinds

variable {line rest : List Char} {lead : String} {read : List Char → Option Declaration}
  {declaration : Declaration}

/-- The declaration of a line is read behind its leading word, or it is that of a slider. -/
theorem ofLine?_cases (line : List Char) :
    (∃ entry ∈ readers, ∃ rest, afterPrefix? entry.1.toList line = some rest ∧
      ofLine? line = entry.2 rest) ∨
    ofLine? line = (Slider.splitLine? line).map fun parts => .slider parts.1 parts.2 := by
  rw [ofLine?]
  split
  · next declaration found =>
      rcases LeadTable.exists_of_find?_eq_some found with ⟨entry, member, rest, begins, rfl⟩
      exact .inl ⟨entry, member, rest, begins, rfl⟩
  · exact .inr rfl

theorem ofLine?_of_begins (member : (lead, read) ∈ readers)
    (begins : afterPrefix? lead.toList line = some rest) : ofLine? line = read rest := by
  have found : LeadTable.find? readers line = some (read rest) :=
    LeadTable.find?_of_begins distinct_readers member begins
  unfold LeadTable.find? at found
  rw [ofLine?, found]

theorem afterPrefix?_of_splitLine? {parts : Fin sliderSlots × List Char}
    (parted : Slider.splitLine? line = some parts) :
    ∃ rest, afterPrefix? "slider".toList line = some rest := by
  rcases Slider.splitLine?_eq_some_iff.mp parted with ⟨digits, _, _, _, shape⟩
  refine ⟨digits ++ ':' :: parts.2, ?_⟩
  rw [afterPrefix?_eq_some_iff, shape, List.append_assoc]

theorem ofLine?_of_splitLine? {parts : Fin sliderSlots × List Char}
    (parted : Slider.splitLine? line = some parts) :
    ofLine? line = some (.slider parts.1 parts.2) := by
  rcases afterPrefix?_of_splitLine? parted with ⟨behind, begins⟩
  rcases ofLine?_cases line with ⟨entry, listed, rest, begun, _⟩ | read
  · rw [afterPrefix?_of_apart (apart_slider entry listed) begins] at begun
    cases begun
  · rw [read, parted]
    rfl

theorem lead_ne_slider (other : Slider.splitLine? line = none)
    (declares : ofLine? line = some declaration) : declaration.lead ≠ "slider" := by
  rcases ofLine?_cases line with ⟨entry, listed, rest, begins, read⟩ | read
  · rw [lead_of_read listed (read.symm.trans declares)]
    rintro slider
    apply (apart_slider entry listed).1
    exact slider ▸ List.prefix_rfl
  · rw [read, other] at declares
    cases declares

/-- A line begins with the leading word of what it declares. -/
theorem begins_of_ofLine? (declares : ofLine? line = some declaration) :
    ∃ rest, afterPrefix? declaration.lead.toList line = some rest := by
  rcases ofLine?_cases line with ⟨entry, listed, rest, begins, read⟩ | read
  · rw [lead_of_read listed (read.symm.trans declares)]
    exact ⟨rest, begins⟩
  · rcases Option.map_eq_some_iff.mp (read.symm.trans declares) with ⟨parts, parted, rfl⟩
    exact afterPrefix?_of_splitLine? parted

end Kinds

end Declaration

end EffectHost

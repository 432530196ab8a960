import EffectHost.Disk.Basic
import Mathlib.Data.List.Basic

/-!
# Paths into a folder

A path that continues that of a folder leads on from where that of the folder leads.
-/

namespace EffectHost

namespace Path

/-- A name that a path leads through, unlike the pieces that stay where they are or go back. -/
structure IsPlain (name : String) : Prop where
  nonempty : name ≠ ""
  slashless : '/' ∉ name.toList
  notHere : name ≠ "."
  notUp : name ≠ ".."

instance (name : String) : Decidable (IsPlain name) :=
  decidable_of_iff (name ≠ "" ∧ '/' ∉ name.toList ∧ name ≠ "." ∧ name ≠ "..")
    ⟨fun holds => ⟨holds.1, holds.2.1, holds.2.2.1, holds.2.2.2⟩,
      fun plain => ⟨plain.nonempty, plain.slashless, plain.notHere, plain.notUp⟩⟩

section Plain

variable {folder name more : String} {names : List String}

theorem IsPlain.isAbsolute (plain : IsPlain name) : isAbsolute name = false := by
  unfold Path.isAbsolute
  rw [beq_eq_false_iff_ne]
  intro slash
  exact plain.slashless (List.mem_of_mem_head? slash)

theorem IsPlain.stepOf? (plain : IsPlain name) (isFirst : Bool) :
    Path.stepOf? isFirst name = some (.name name) := by
  unfold Path.stepOf?
  simp [plain.nonempty, plain.notHere, plain.notUp]

theorem IsPlain.pieces (plain : IsPlain name) : Path.pieces name = [name] := by
  unfold Path.pieces
  rw [List.splitOn_eq_singleton plain.slashless, List.map_singleton, String.ofList_toList]

/-- The text of a path through names. -/
abbrev through (names : List String) : String :=
  "/".intercalate names

theorem through_cons (nonempty : names ≠ []) :
    through (name :: names) = name ++ "/" ++ through names :=
  String.intercalate_cons_of_ne_nil nonempty

theorem pieces_through (nonempty : names ≠ []) (plain : ∀ name ∈ names, IsPlain name) :
    pieces (through names) = names := by
  rw [pieces, through, String.toList_intercalate]
  have slashless : ∀ text ∈ names.map String.toList, '/' ∉ text := by
    rw [List.forall_mem_map]
    exact fun name member => (plain name member).slashless
  rw [show "/".toList = ['/'] from rfl, List.splitOn_intercalate '/' slashless (by simpa),
    List.map_map]
  have same : String.ofList ∘ String.toList = id := funext fun _ => String.ofList_toList
  rw [same, List.map_id]

theorem isAbsolute_append (nonempty : folder ≠ "") :
    isAbsolute (folder ++ more) = isAbsolute folder := by
  unfold isAbsolute
  rw [String.toList_append, List.head?_append_of_ne_nil _ (by simpa)]

theorem isAbsolute_through (nonempty : names ≠ []) (plain : ∀ name ∈ names, IsPlain name) :
    isAbsolute (through names) = false := by
  rcases List.exists_cons_of_ne_nil nonempty with ⟨first, others, rfl⟩
  have here := plain first List.mem_cons_self
  cases others with
  | nil => exact here.isAbsolute
  | cons second others =>
      rw [through_cons (List.cons_ne_nil second others), String.append_assoc,
        isAbsolute_append here.nonempty, here.isAbsolute]

theorem steps_through (nonempty : names ≠ []) (plain : ∀ name ∈ names, IsPlain name) :
    steps (through names) = names.map Step.name := by
  unfold steps
  rw [pieces_through nonempty plain, isAbsolute_through nonempty plain]
  rcases List.exists_cons_of_ne_nil nonempty with ⟨first, others, rfl⟩
  have named : ∀ name ∈ others, stepOf? false name = some (.name name) :=
    fun name member => (plain name (List.mem_cons_of_mem first member)).stepOf? false
  dsimp only
  rw [(plain first List.mem_cons_self).stepOf?, List.filterMap_congr named,
    List.filterMap_eq_map']
  rfl

/-- The text of a folder as it stands in front of what is in it. -/
def opened (folder : String) : String :=
  if folder.toList.getLast? == some '/' then folder else folder ++ "/"

theorem join_eq_opened (named : folder ≠ "") (relative : isAbsolute more = false) :
    join folder more = opened folder ++ more := by
  unfold join opened
  rw [relative, Bool.false_or, if_neg (by simpa using named)]
  split <;> rfl

theorem join_ne_empty (named : folder ≠ "") (plain : IsPlain name) : join folder name ≠ "" := by
  rw [join_eq_opened named plain.isAbsolute]
  intro empty
  exact plain.nonempty (String.append_eq_empty_iff.mp empty).2

theorem opened_eq (folder : String) : opened folder = folder ∨ opened folder = folder ++ "/" := by
  unfold opened
  split
  · exact .inl rfl
  · exact .inr rfl

theorem opened_join (named : folder ≠ "") (plain : IsPlain name) :
    opened (join folder name) = opened folder ++ name ++ "/" := by
  have ends : name.toList.getLast?.isSome := by
    rw [List.getLast?_isSome]
    exact mt String.toList_eq_nil_iff.mp plain.nonempty
  have closed : (join folder name).toList.getLast? ≠ some '/' := by
    rw [join_eq_opened named plain.isAbsolute, String.toList_append, List.getLast?_append,
      Option.or_of_isSome ends]
    intro slash
    exact plain.slashless (List.mem_of_getLast? slash)
  rw [← join_eq_opened named plain.isAbsolute]
  exact if_neg (by simpa using closed)

/-- A path through names leads from name to name. -/
theorem join_through (named : folder ≠ "") (nonempty : names ≠ [])
    (plain : ∀ name ∈ names, IsPlain name) :
    join folder (through names) = names.foldl join folder := by
  induction names generalizing folder with
  | nil => exact absurd rfl nonempty
  | cons first others ih =>
      have here := plain first List.mem_cons_self
      have behind : ∀ name ∈ others, IsPlain name :=
        fun name member => plain name (List.mem_cons_of_mem first member)
      rw [List.foldl_cons]
      by_cases last : others = []
      · rw [last]
        rfl
      · rw [← ih (join_ne_empty named here) last behind,
          join_eq_opened named (isAbsolute_through nonempty plain),
          join_eq_opened (join_ne_empty named here) (isAbsolute_through last behind),
          opened_join named here, through_cons last]
        simp only [String.append_assoc]

/-- A path that continues that of a folder goes through its pieces first. -/
theorem pieces_join (named : folder ≠ "") :
    ∃ front, (pieces folder = front ∨ pieces folder = front ++ [""]) ∧
      ∀ more, isAbsolute more = false → pieces (join folder more) = front ++ pieces more := by
  have parts (text more : List Char) (path : String) (split : path.toList = text ++ '/' :: more) :
      pieces path = (text.splitOn '/').map String.ofList ++ (more.splitOn '/').map String.ofList := by
    rw [pieces, split, List.splitOn_append_cons_self, List.map_append]
  by_cases slash : folder.toList.getLast? = some '/'
  · rcases List.getLast?_eq_some_iff.mp slash with ⟨text, shape⟩
    refine ⟨(text.splitOn '/').map String.ofList, .inr (parts text [] folder shape), ?_⟩
    intro more relative
    apply parts
    rw [join_eq_opened named relative, opened, if_pos (by simpa using slash),
      String.toList_append, shape, List.append_assoc, List.singleton_append]
  · refine ⟨pieces folder, .inl rfl, ?_⟩
    intro more relative
    apply parts
    rw [join_eq_opened named relative, opened, if_neg (by simpa using slash),
      String.toList_append, String.toList_append, List.append_assoc]
    rfl

end Plain

end Path

namespace Disk

variable {disk : Disk} {folder name : String}

/-- A slash at the end changes nothing for the name behind it. -/
theorem follow_empty_bind (location : Location) :
    (disk.follow location "").bind (disk.follow · name) = disk.follow location name := by
  cases here : disk.item? location with
  | none =>
      unfold follow
      rw [here]
      rfl
  | some item =>
      cases item with
      | folder =>
          have stays : disk.follow location "" = .ok location := by
            unfold follow
            rw [here]
            rfl
          rw [stays]
          rfl
      | file bytes =>
          unfold follow
          rw [here]
          rfl

theorem refusal?_eq_none_iff {path : String} :
    refusal? path = none ↔
      '\x00' ∉ path.toList ∧ path ≠ "" ∧ path.utf8ByteSize ≤ longestPath := by
  unfold refusal?
  split_ifs with nul empty long
  · simp_all
  · simp_all
  · simpa using fun _ _ => long
  · simp_all

theorem refusal?_of_append {more : String} (named : folder ≠ "")
    (accepted : refusal? (folder ++ more) = none) : refusal? folder = none := by
  rw [refusal?_eq_none_iff, String.toList_append, String.utf8ByteSize_append, List.mem_append,
    not_or] at accepted
  rw [refusal?_eq_none_iff]
  exact ⟨accepted.1.1, named, by omega⟩

theorem origin_append {more : String} (named : folder ≠ "") :
    disk.origin (folder ++ more) = disk.origin folder := by
  unfold origin
  rw [Path.isAbsolute_append named]

theorem foldlM_follow_concat (front : List String) (piece : String) (start : Location) :
    (front ++ [piece]).foldlM disk.follow start =
      (front.foldlM disk.follow start).bind (disk.follow · piece) := by
  rw [List.foldlM_append]
  simp only [List.foldlM_cons, List.foldlM_nil, bind_pure]
  rfl

/-- Behind a slash a path goes on from where it has led. -/
theorem locate_slash (named : folder ≠ "") (plain : Path.IsPlain name)
    (accepted : refusal? (folder ++ "/" ++ name) = none) :
    disk.locate (folder ++ "/" ++ name) = (disk.locate folder).bind (disk.follow · name) := by
  have parts : Path.pieces (folder ++ "/" ++ name) = Path.pieces folder ++ [name] := by
    rw [← plain.pieces, Path.pieces, String.toList_append, String.toList_append, List.append_assoc]
    exact (congrArg (List.map String.ofList) (List.splitOn_append_cons_self _ _)).trans
      List.map_append
  rw [String.append_assoc] at accepted parts ⊢
  unfold locate
  rw [accepted, refusal?_of_append named accepted, origin_append named, parts]
  exact foldlM_follow_concat (Path.pieces folder) name (disk.origin folder)

/-- The way to an entry of a folder goes to the folder first. -/
theorem locate_join (named : folder ≠ "") (plain : Path.IsPlain name)
    (accepted : refusal? (Path.join folder name) = none) :
    disk.locate (Path.join folder name) = (disk.locate folder).bind (disk.follow · name) := by
  rcases Path.pieces_join named with ⟨front, ends, continued⟩
  have parts := continued name plain.isAbsolute
  rw [plain.pieces] at parts
  have same : refusal? folder = none ∧
      disk.origin (Path.join folder name) = disk.origin folder := by
    rw [Path.join_eq_opened named plain.isAbsolute] at accepted ⊢
    rcases Path.opened_eq folder with same | longer
    · rw [same] at accepted ⊢
      exact ⟨refusal?_of_append named accepted, origin_append named⟩
    · rw [longer, String.append_assoc] at accepted ⊢
      exact ⟨refusal?_of_append named accepted, origin_append named⟩
  unfold locate
  rw [accepted, same.1, same.2, parts]
  dsimp only
  rcases ends with here | here
  · rw [foldlM_follow_concat, here]
  · rw [here, foldlM_follow_concat, foldlM_follow_concat]
    cases front.foldlM disk.follow (disk.origin folder) with
    | error fault => rfl
    | ok location => exact (follow_empty_bind location).symm

end Disk
end EffectHost

import EffectHost.DataFile.Table
import Mathlib.Algebra.Order.Group.Nat
import Mathlib.Algebra.Order.Interval.Finset.Basic
import Mathlib.Data.List.DropRight
import Mathlib.Data.Nat.Count
import Mathlib.Order.Bounds.Basic
import Mathlib.Order.Interval.Finset.Nat

/-!
# Open files as a map of handles

To its users the table is a map: handle zero is the serializer, and each of the handles
one to sixty-three is free or an open file.  `MapStep` says what a request does to such a
map and what it answers.  The table holds a list instead, with gaps where files were closed
in the middle and without any at the end.  What makes the list as good as the map is that
it never holds more than sixty-three entries, and this every request keeps.
-/

namespace EffectHost

/-- An operation on an open file with an answer of some kind.  What is a serializer stays
one. -/
structure FileOperation (α : Type) where
  perform : OpenFile → α × OpenFile
  keepsSerializer : ∀ state, ∃ next, (perform (.serializer state)).2 = .serializer next

/-- What can be asked of the open files. -/
inductive FileRequest (α : Type) where
  | insert (file : OpenFile)
  | close (handle : Int)
  | clear
  | operate (handle : Int) (operation : FileOperation α)

/-- What is answered: the handle of the file, whether it was closed, or the answer of the
operation if the handle is open. -/
inductive FileAnswer (α : Type) where
  | inserted (result : Except Failure Nat)
  | closed (result : Except Failure Unit)
  | cleared
  | operated (result : Option α)

/-- The open file behind each handle. -/
abbrev HandleMap := Int → Option OpenFile

namespace HandleMap

/-- A handle that a file can have and none has. -/
def IsFree (files : HandleMap) (handle : Nat) : Prop :=
  0 < handle ∧ handle < maxFileHandles ∧ files handle = none

/-- Only the serializer is open, and it is idle. -/
def start : HandleMap :=
  Function.update (fun _ => none) 0 (some (.serializer {}))

end HandleMap

open HandleMap Function

/-- What a request does to a map of handles, and its answer. -/
inductive MapStep {α : Type} :
    HandleMap → FileRequest α → FileAnswer α → HandleMap → Prop where
  | inserted {files : HandleMap} {handle : Nat} (file : OpenFile)
      (least : IsLeast {handle | files.IsFree handle} handle) :
      MapStep files (.insert file) (.inserted (.ok handle)) (update files handle (some file))
  | full {files : HandleMap} (file : OpenFile) (none : ∀ handle, ¬ files.IsFree handle) :
      MapStep files (.insert file) (.inserted (.error FileTable.exhausted)) files
  | closed {files : HandleMap} {handle : Int} (past : handle ≠ 0)
      (isOpen : files handle ≠ none) :
      MapStep files (.close handle) (.closed (.ok ())) (update files handle none)
  | kept {files : HandleMap} {handle : Int} (cannot : handle = 0 ∨ files handle = none) :
      MapStep files (.close handle) (.closed (.error (.unknownHandle handle))) files
  | cleared (files : HandleMap) :
      MapStep files .clear .cleared (update (fun _ => none) 0 (files 0))
  | operated {files : HandleMap} {handle : Int} {file : OpenFile}
      (operation : FileOperation α) (isOpen : files handle = some file) :
      MapStep files (.operate handle operation) (.operated (some (operation.perform file).1))
        (update files handle (some (operation.perform file).2))
  | missed {files : HandleMap} {handle : Int} (operation : FileOperation α)
      (isClosed : files handle = none) :
      MapStep files (.operate handle operation) (.operated none) files

/-- What requests do to a map of handles one after another, and their answers. -/
inductive MapRun {α : Type} :
    HandleMap → List (FileRequest α) → List (FileAnswer α) → HandleMap → Prop where
  | nil (files : HandleMap) : MapRun files [] [] files
  | cons {files middle after : HandleMap} {request : FileRequest α} {answer : FileAnswer α}
      {requests : List (FileRequest α)} {answers : List (FileAnswer α)}
      (first : MapStep files request answer middle)
      (others : MapRun middle requests answers after) :
      MapRun files (request :: requests) (answer :: answers) after

/-- A request has one result. -/
theorem MapStep.unique {α : Type} {files after other : HandleMap} {request : FileRequest α}
    {answer answer' : FileAnswer α} (first : MapStep files request answer after)
    (second : MapStep files request answer' other) : answer = answer' ∧ after = other := by
  cases first with
  | inserted file least =>
      cases second with
      | inserted _ least' =>
          cases least.unique least'
          exact ⟨rfl, rfl⟩
      | full _ none => exact absurd least.1 (none _)
  | full file none =>
      cases second with
      | inserted _ least => exact absurd least.1 (none _)
      | full => exact ⟨rfl, rfl⟩
  | closed past isOpen =>
      cases second with
      | closed => exact ⟨rfl, rfl⟩
      | kept cannot => exact absurd cannot (by rintro (zero | isFree) <;> contradiction)
  | kept cannot =>
      cases second with
      | closed past isOpen => exact absurd cannot (by rintro (zero | isFree) <;> contradiction)
      | kept => exact ⟨rfl, rfl⟩
  | cleared =>
      cases second
      exact ⟨rfl, rfl⟩
  | operated operation isOpen =>
      cases second with
      | operated _ isOpen' =>
          cases isOpen.symm.trans isOpen'
          exact ⟨rfl, rfl⟩
      | missed _ isClosed => cases isOpen.symm.trans isClosed
  | missed operation isClosed =>
      cases second with
      | operated _ isOpen => cases isClosed.symm.trans isOpen
      | missed => exact ⟨rfl, rfl⟩

theorem MapRun.unique {α : Type} {files after other : HandleMap}
    {requests : List (FileRequest α)} {answers answers' : List (FileAnswer α)}
    (first : MapRun files requests answers after)
    (second : MapRun files requests answers' other) : answers = answers' ∧ after = other := by
  induction first generalizing answers' with
  | nil =>
      cases second
      exact ⟨rfl, rfl⟩
  | cons step run ih =>
      cases second with
      | cons step' run' =>
          rcases step.unique step' with ⟨rfl, rfl⟩
          rcases ih run' with ⟨rfl, rfl⟩
          exact ⟨rfl, rfl⟩

namespace FileTable

variable {α : Type} {table : FileTable}

/-- Carry out a request.  One that fails leaves the table as it is. -/
def act (table : FileTable) : FileRequest α → FileAnswer α × FileTable
  | .insert file =>
    match table.insert file with
    | .ok (handle, next) => (.inserted (.ok handle), next)
    | .error failure => (.inserted (.error failure), table)
  | .close handle =>
    match table.close handle with
    | .ok next => (.closed (.ok ()), next)
    | .error failure => (.closed (.error failure), table)
  | .clear => (.cleared, table.clear)
  | .operate handle operation =>
    let done := table.withFile handle operation.perform
    (.operated done.1, done.2)

/-- Carry out requests one after another. -/
def run (table : FileTable) : List (FileRequest α) → List (FileAnswer α) × FileTable
  | [] => ([], table)
  | request :: others =>
    let done := table.act request
    let rest := done.2.run others
    (done.1 :: rest.1, rest.2)

/-- The list of a table has no more entries than there are handles. -/
def Fits (table : FileTable) : Prop :=
  table.files.length < maxFileHandles

/-! ## Handles and positions -/

theorem position?_succ (position : Nat) : position? (position + 1 : Nat) = some position := by
  rw [position?, if_pos (by omega)]
  congr 1
  omega

theorem position?_of_not_pos {handle : Int} (low : ¬ 0 < handle) : position? handle = none :=
  if_neg low

/-- A handle is zero, before it, or that of a position. -/
theorem handle_cases (handle : Int) :
    handle = 0 ∨ handle < 0 ∨ ∃ position : Nat, handle = (position + 1 : Nat) := by
  rcases lt_trichotomy handle 0 with before | zero | past
  · exact Or.inr (Or.inl before)
  · exact Or.inl zero
  · exact Or.inr (Or.inr ⟨(handle - 1).toNat, by omega⟩)

@[simp]
theorem get?_zero (table : FileTable) : table.get? 0 = some (.serializer table.serializer) :=
  rfl

theorem get?_of_neg {handle : Int} (before : handle < 0) : table.get? handle = none := by
  rw [get?, if_neg (by omega), position?_of_not_pos (by omega)]
  rfl

@[simp]
theorem get?_succ (table : FileTable) (position : Nat) :
    table.get? (position + 1 : Nat) = table.files[position]?.join := by
  rw [get?, if_neg (by omega), position?_succ]
  rfl

@[simp]
theorem put_serializer (table : FileTable) (state : Serializer) :
    table.put 0 (.serializer state) = { table with serializer := state } :=
  rfl

@[simp]
theorem put_succ (table : FileTable) (position : Nat) (file : OpenFile) :
    table.put (position + 1 : Nat) file =
      { table with files := table.files.set position (some file) } := by
  rw [put.eq_def, if_neg (by omega), position?_succ]

/-- Two tables have the same files if their serializers and their positions agree. -/
theorem get?_eq_of {files : HandleMap} (serializer : files 0 = table.get? 0)
    (before : ∀ handle < 0, files handle = none)
    (positions : ∀ position : Nat, files (position + 1 : Nat) = table.files[position]?.join) :
    table.get? = files := by
  funext handle
  rcases handle_cases handle with rfl | negative | ⟨position, rfl⟩
  · exact serializer.symm
  · rw [get?_of_neg negative, before handle negative]
  · rw [get?_succ, positions]

/-- A table that holds another list of files is another map at one handle if the list is
another one at one position. -/
theorem get?_replaced {files : List (Option OpenFile)} {position : Nat} {file? : Option OpenFile}
    (replaced : ∀ other, files[other]?.join =
      if other = position then file? else table.files[other]?.join) :
    ({ table with files := files } : FileTable).get? =
      update table.get? (position + 1 : Nat) file? := by
  apply get?_eq_of
  · exact update_of_ne (by omega) _ _
  · intro handle before
    rw [update_of_ne (by omega), get?_of_neg before]
  · intro other
    rw [replaced other]
    by_cases same : other = position
    · rw [if_pos same, same, update_self]
    · rw [if_neg same, update_of_ne (by omega), get?_succ]

theorem join_set {files : List (Option OpenFile)} {position : Nat}
    (inside : position < files.length) (file? : Option OpenFile) (other : Nat) :
    (files.set position file?)[other]?.join =
      if other = position then file? else files[other]?.join := by
  rw [List.getElem?_set]
  by_cases same : position = other
  · rw [if_pos same, if_pos inside, if_pos same.symm]
    rfl
  · rw [if_neg same, if_neg (Ne.symm same)]

theorem join_concat (files : List (Option OpenFile)) (file? : Option OpenFile) (other : Nat) :
    (files ++ [file?])[other]?.join =
      if other = files.length then file? else files[other]?.join := by
  rcases lt_trichotomy other files.length with inside | last | past
  · rw [List.getElem?_append_left inside, if_neg inside.ne]
  · rw [last, List.getElem?_concat_length, if_pos rfl]
    rfl
  · rw [List.getElem?_eq_none (by simp; omega), List.getElem?_eq_none (by omega),
      if_neg past.ne']

/-- What is given up at the end was free. -/
theorem join_trimmed (files : List (Option OpenFile)) (position : Nat) :
    (trimmed files)[position]?.join = files[position]?.join := by
  induction files using List.reverseRecOn with
  | nil => rfl
  | append_singleton front last ih =>
      cases last with
      | some file =>
          exact congrArg (fun kept : List (Option OpenFile) => kept[position]?.join)
            (List.rdropWhile_concat_neg Option.isNone front (some file) Bool.false_ne_true)
      | none =>
          have dropped : trimmed (front ++ [none]) = trimmed front :=
            List.rdropWhile_concat_pos Option.isNone front none rfl
          rw [dropped, ih, List.getElem?_append]
          split
          · rfl
          · rename_i outside
            rw [List.getElem?_eq_none (by omega)]
            cases position - front.length <;> rfl

theorem length_trimmed_le (files : List (Option OpenFile)) :
    (trimmed files).length ≤ files.length :=
  (List.rdropWhile_prefix Option.isNone files).length_le

/-! ## What each request does -/

theorem isOpen_lt {position : Nat} (isOpen : table.files[position]?.join ≠ none) :
    position < table.files.length := by
  by_contra outside
  rw [List.getElem?_eq_none (by omega)] at isOpen
  exact isOpen rfl

/-- The handles past those in the list are free. -/
theorem lt_of_isOpen (fits : table.Fits) {handle : Int} (isOpen : table.get? handle ≠ none) :
    0 ≤ handle ∧ handle < maxFileHandles := by
  rcases handle_cases handle with rfl | before | ⟨position, rfl⟩
  · exact ⟨le_refl 0, by decide⟩
  · exact absurd (get?_of_neg before) isOpen
  · rw [get?_succ] at isOpen
    have inside := isOpen_lt isOpen
    have room : table.files.length < maxFileHandles := fits
    omega

/-- Putting a file back changes what is behind its handle only. -/
theorem get?_put {handle : Int} {file next : OpenFile} (isOpen : table.get? handle = some file)
    (keeps : handle = 0 → ∃ state, next = .serializer state) :
    (table.put handle next).get? = update table.get? handle (some next) := by
  rcases handle_cases handle with rfl | before | ⟨position, rfl⟩
  · rcases keeps rfl with ⟨state, rfl⟩
    apply get?_eq_of
    · rw [update_self]
      rfl
    · intro handle before
      rw [update_of_ne (by omega), get?_of_neg before]
    · intro position
      rw [update_of_ne (by omega), get?_succ]
      rfl
  · rw [get?_of_neg before] at isOpen
    cases isOpen
  · have inside : position < table.files.length := by
      apply isOpen_lt
      rw [← get?_succ, isOpen]
      exact Option.some_ne_none file
    rw [put_succ]
    exact get?_replaced fun other => join_set inside _ other

theorem mapStep_operate (table : FileTable) (handle : Int) (operation : FileOperation α) :
    let request : FileRequest α := .operate handle operation
    MapStep table.get? request (table.act request).1 (table.act request).2.get? := by
  intro request
  simp only [request, act, withFile]
  cases isOpen : table.get? handle with
  | none => exact .missed operation isOpen
  | some file =>
      dsimp only
      have keeps : handle = 0 → ∃ state, (operation.perform file).2 = .serializer state := by
        rintro rfl
        cases isOpen
        exact operation.keepsSerializer table.serializer
      rw [get?_put isOpen keeps]
      exact .operated operation isOpen

/-- Everything before the first gap is open. -/
theorem not_isFree_before_gap {position : Nat}
    (taken : ∀ other < position, table.files[other]?.join ≠ none) {handle : Nat}
    (below : handle < position + 1) : ¬ IsFree table.get? handle := by
  rintro ⟨past, _, free⟩
  obtain ⟨other, rfl⟩ : ∃ other, handle = other + 1 := ⟨handle - 1, by omega⟩
  rw [get?_succ] at free
  exact taken other (by omega) free

theorem isLeast_gap {position : Nat} (room : position + 1 < maxFileHandles)
    (free : table.files[position]?.join = none)
    (taken : ∀ other < position, table.files[other]?.join ≠ none) :
    IsLeast {handle | IsFree table.get? handle} (position + 1) := by
  refine ⟨⟨by omega, room, ?_⟩, ?_⟩
  · rw [get?_succ, free]
  · intro handle found
    by_contra below
    exact not_isFree_before_gap taken (by omega) found

/-- The first gap is filled if there is one. -/
theorem mapStep_insert_gap (fits : table.Fits) (file : OpenFile) {position : Nat}
    (gap : table.files.findIdx? Option.isNone = some position) :
    MapStep table.get? (.insert file : FileRequest α) (.inserted (.ok (position + 1)))
      ({ table with files := table.files.set position (some file) } : FileTable).get? := by
  rcases List.findIdx?_eq_some_iff_getElem.mp gap with ⟨inside, free, taken⟩
  have least : IsLeast {handle | IsFree table.get? handle} (position + 1) := by
    apply isLeast_gap
    · exact lt_of_le_of_lt inside fits
    · rw [List.getElem?_eq_getElem inside, Option.isNone_iff_eq_none.mp free]
      rfl
    · intro other before isFree
      rw [List.getElem?_eq_getElem (by omega)] at isFree
      exact taken other before (Option.isNone_iff_eq_none.mpr isFree)
  rw [get?_replaced fun other => join_set inside (some file) other]
  exact .inserted file least

theorem taken_of_no_gap (gap : table.files.findIdx? Option.isNone = none) :
    ∀ other < table.files.length, table.files[other]?.join ≠ none := by
  intro other inside isFree
  have isOpen := List.findIdx?_eq_none_iff.mp gap _ (List.getElem_mem inside)
  rw [List.getElem?_eq_getElem inside] at isFree
  rw [show table.files[other] = none from isFree] at isOpen
  cases isOpen

/-- Where there is no gap, the file goes behind all others. -/
theorem mapStep_insert_behind (file : OpenFile)
    (gap : table.files.findIdx? Option.isNone = none)
    (room : table.files.length + 1 < maxFileHandles) :
    MapStep table.get? (.insert file : FileRequest α) (.inserted (.ok (table.files.length + 1)))
      ({ table with files := table.files ++ [some file] } : FileTable).get? := by
  have least : IsLeast {handle | IsFree table.get? handle} (table.files.length + 1) := by
    apply isLeast_gap room
    · rw [List.getElem?_eq_none (le_refl _)]
      rfl
    · exact taken_of_no_gap gap
  rw [get?_replaced fun other => join_concat table.files (some file) other]
  exact .inserted file least

theorem mapStep_insert (fits : table.Fits) (file : OpenFile) :
    let request : FileRequest α := .insert file
    MapStep table.get? request (table.act request).1 (table.act request).2.get? := by
  intro request
  simp only [request, act, insert]
  cases gap : table.files.findIdx? Option.isNone with
  | some position => exact mapStep_insert_gap fits file gap
  | none =>
      dsimp only
      by_cases room : table.files.length + 1 < maxFileHandles
      · rw [if_pos room]
        exact mapStep_insert_behind file gap room
      · rw [if_neg room]
        refine .full file fun handle free => not_isFree_before_gap (taken_of_no_gap gap) ?_ free
        have bounded := free.2.1
        omega

theorem mapStep_close (table : FileTable) (handle : Int) :
    let request : FileRequest α := .close handle
    MapStep table.get? request (table.act request).1 (table.act request).2.get? := by
  intro request
  simp only [request, act, close]
  rcases handle_cases handle with rfl | before | ⟨position, rfl⟩
  · exact .kept (Or.inl rfl)
  · rw [position?_of_not_pos (by omega)]
    exact .kept (Or.inr (get?_of_neg before))
  · rw [position?_succ]
    dsimp only
    by_cases isOpen : table.files[position]?.join = none
    · rw [if_neg (by rw [isOpen]; exact Bool.false_ne_true)]
      exact .kept (Or.inr (by rw [get?_succ, isOpen]))
    · rw [if_pos (Option.isSome_iff_ne_none.mpr isOpen)]
      dsimp only
      rw [get?_replaced fun other => (join_trimmed _ other).trans
        (join_set (isOpen_lt isOpen) none other)]
      exact .closed (by omega) (by rwa [get?_succ])

theorem mapStep_clear (table : FileTable) :
    let request : FileRequest α := .clear
    MapStep table.get? request (table.act request).1 (table.act request).2.get? := by
  intro request
  have cleared : table.clear.get? = update (fun _ => none) 0 (table.get? 0) := by
    apply get?_eq_of
    · rw [update_self]
      rfl
    · exact fun handle before => update_of_ne (by omega) _ _
    · exact fun position => update_of_ne (by omega) _ _
  simp only [request, act]
  rw [cleared]
  exact .cleared table.get?

/-- Every request does to the table what it does to the map. -/
theorem mapStep_act (fits : table.Fits) (request : FileRequest α) :
    MapStep table.get? request (table.act request).1 (table.act request).2.get? := by
  cases request with
  | insert file => exact mapStep_insert fits file
  | close handle => exact mapStep_close table handle
  | clear => exact mapStep_clear table
  | operate handle operation => exact mapStep_operate table handle operation

/-! ## Any number of requests -/

theorem length_put (table : FileTable) (handle : Int) (file : OpenFile) :
    (table.put handle file).files.length = table.files.length := by
  rw [put.eq_def]
  split
  · cases file <;> rfl
  · split
    · exact List.length_set
    · rfl

theorem fits_insert (fits : table.Fits) {file : OpenFile} {handle : Nat} {next : FileTable}
    (inserted : table.insert file = .ok (handle, next)) : next.Fits := by
  rw [insert] at inserted
  split at inserted
  · cases inserted
    exact lt_of_eq_of_lt List.length_set fits
  · split at inserted
    · rename_i more
      cases inserted
      exact lt_of_eq_of_lt List.length_append more
    · cases inserted

theorem fits_close (fits : table.Fits) {handle : Int} {next : FileTable}
    (closed : table.close handle = .ok next) : next.Fits := by
  rw [close] at closed
  split at closed
  · split at closed
    · cases closed
      exact lt_of_le_of_lt (length_trimmed_le _) (lt_of_eq_of_lt List.length_set fits)
    · cases closed
  · cases closed

theorem fits_act (fits : table.Fits) (request : FileRequest α) :
    (table.act request).2.Fits := by
  cases request with
  | insert file =>
      simp only [act]
      cases inserted : table.insert file with
      | ok done => exact fits_insert fits inserted
      | error failure => exact fits
  | close handle =>
      simp only [act]
      cases closed : table.close handle with
      | ok next => exact fits_close fits closed
      | error failure => exact fits
  | clear => exact Nat.zero_lt_succ _
  | operate handle operation =>
      simp only [act, withFile]
      cases table.get? handle with
      | none => exact fits
      | some file => exact lt_of_eq_of_lt (length_put table handle _) fits

theorem fits_run (fits : table.Fits) (requests : List (FileRequest α)) :
    (table.run requests).2.Fits := by
  induction requests generalizing table with
  | nil => exact fits
  | cons request others ih => exact ih (fits_act fits request)

theorem mapRun_run (fits : table.Fits) (requests : List (FileRequest α)) :
    MapRun table.get? requests (table.run requests).1 (table.run requests).2.get? := by
  induction requests generalizing table with
  | nil => exact .nil table.get?
  | cons request others ih =>
      exact .cons (mapStep_act fits request) (ih (fits_act fits request))

/-- The files of a list, counted by position. -/
theorem countP_isSome_eq_count (files : List (Option OpenFile)) {bound : Nat}
    (short : files.length ≤ bound) :
    files.countP Option.isSome =
      Nat.count (fun position => files[position]?.join ≠ none) bound := by
  induction files generalizing bound with
  | nil =>
      rw [List.countP_nil, Nat.count_of_forall_not fun position _ => by simp]
  | cons first others ih =>
      rw [List.length_cons] at short
      obtain ⟨less, rfl⟩ : ∃ less, bound = less + 1 := ⟨bound - 1, by omega⟩
      rw [List.countP_cons, Nat.count_succ', ih (Nat.le_of_succ_le_succ short)]
      cases first <;> rfl

/-- The open files, counted by handle. -/
theorem openCount_eq (fits : table.Fits) :
    table.openCount = 1 +
      ((Finset.Ico 1 maxFileHandles).filter
        fun handle : Nat => table.get? handle ≠ none).card := by
  have handles : Finset.Ico 1 maxFileHandles =
      (Finset.range (maxFileHandles - 1)).map (addRightEmbedding 1) := by
    rw [Finset.range_eq_Ico, Finset.map_add_right_Ico]
    rfl
  rw [handles, Finset.filter_map, Finset.card_map, openCount,
    countP_isSome_eq_count table.files (Nat.le_sub_one_of_lt fits),
    Nat.count_eq_card_filter_range]
  congr 3
  funext position
  exact congrArg (· ≠ none) (get?_succ table position).symm

/-- The open files are a map of handles.  For all requests, of whatever operations, the answers
and the files behind the handles are those of the map.  Handle zero is the serializer, no file
has a handle past sixty-three, and the files are counted. -/
theorem open_files_are_a_map_of_handles (requests : List (FileRequest α)) :
    let table := (run {} requests).2
    (∀ answers files, MapRun HandleMap.start requests answers files ↔
      answers = (run {} requests).1 ∧ files = table.get?) ∧
    table.get? 0 = some (.serializer table.serializer) ∧
    (∀ handle, table.get? handle ≠ none → 0 ≤ handle ∧ handle < maxFileHandles) ∧
    table.openCount = 1 +
      ((Finset.Ico 1 maxFileHandles).filter
        fun handle : Nat => table.get? handle ≠ none).card := by
  have fits : ({} : FileTable).Fits := Nat.zero_lt_succ _
  have start : ({} : FileTable).get? = HandleMap.start := by
    apply get?_eq_of
    · rfl
    · exact fun handle before => update_of_ne (by omega) _ _
    · exact fun position => update_of_ne (by omega) _ _
  have run := mapRun_run fits requests
  rw [start] at run
  refine ⟨fun answers files => ⟨fun other => other.unique run, ?_⟩, get?_zero _,
    fun handle => lt_of_isOpen (fits_run fits requests), openCount_eq (fits_run fits requests)⟩
  rintro ⟨rfl, rfl⟩
  exact run

end FileTable
end EffectHost

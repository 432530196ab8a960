import EffectHost.Script.Imports
import Mathlib.Data.List.Chain
import Mathlib.Data.List.Nodup
import Mathlib.Data.List.Perm.Subperm
import Mathlib.Logic.Relation

/-!
# Which units a script loads, and in what order

The import lines of a script span a graph whose nodes are units, each read by some path.
Loading walks this graph in depth.  At any time the units whose imports are being loaded form
a chain of import lines down from the script, and the files met so far are those of the chain
and those of the completed units, each once.  A completed unit has all its imports among these
files.  An import that is not completed before it lies on the chain, and from there the chain
leads down to the unit.

A file may be read by several paths, and relative imports are looked for from the path that
was used.  So the graph of the units is a graph of files only where the lines of a file lead
to the same files by whatever path the file is read.
-/

namespace EffectHost
namespace Imports

open Relation Text

/-! ## The graph of the import lines -/

/-- Where the file of a unit is. -/
def place? (disk : Disk) (unit : ScriptUnit) : Option Location :=
  unit.path.bind fun path => (disk.locate path).toOption

/-- The import line stands for a path by which `next` is read. -/
def Finds (disk : Disk) (root? : Option String) (unit : ScriptUnit) (name : String)
    (next : ScriptUnit) : Prop :=
  ∃ path, resolve? disk name unit.folder? root? = some path ∧ ScriptUnit.load disk path = .ok next

/-- Some import line of `unit` finds `next`. -/
def Leads (disk : Disk) (root? : Option String) (unit next : ScriptUnit) : Prop :=
  ∃ name ∈ unit.header.imports, Finds disk root? unit name next

/-- Import lines lead from `unit` to `other`, directly or through other units. -/
def Reaches (disk : Disk) (root? : Option String) (unit other : ScriptUnit) : Prop :=
  ReflTransGen (Leads disk root?) unit other

/-- Some import line of `unit` stands for no file, or for one that cannot be read as a
script. -/
def Blocked (disk : Disk) (root? : Option String) (unit : ScriptUnit) : Prop :=
  ∃ name ∈ unit.header.imports, ∀ next, ¬ Finds disk root? unit name next

/-- The file to which an import line leads. -/
def target? (disk : Disk) (root? : Option String) (unit : ScriptUnit) (name : String) :
    Option Location :=
  (resolve? disk name unit.folder? root?).bind fun path => (disk.locate path).toOption

/-- By whatever path a file is read on the way from `main`, its import lines lead to the
same files. -/
def Steady (disk : Disk) (root? : Option String) (main : ScriptUnit) : Prop :=
  ∀ unit other, Reaches disk root? main unit → Reaches disk root? main other →
    place? disk unit = place? disk other →
      ∀ name ∈ unit.header.imports, target? disk root? unit name = target? disk root? other name

/-- The units form a chain of import lines below `main`, and all their files differ. -/
structure SimpleChain (disk : Disk) (root? : Option String) (main : ScriptUnit)
    (chain : List ScriptUnit) : Prop where
  linked : (main :: chain).IsChain (Leads disk root?)
  apart : ((main :: chain).map (place? disk)).Nodup

/-- What is true of the units that a script loads. -/
structure Arranged (disk : Disk) (root? : Option String) (main : ScriptUnit)
    (units : List ScriptUnit) : Prop where
  /-- No file is there twice, and that of the script is not there. -/
  apart : ((main :: units).map (place? disk)).Nodup
  /-- Every unit is imported, directly or through others. -/
  reached : ∀ unit ∈ units, Reaches disk root? main unit
  /-- Nothing that is there is blocked, and what it imports is there. -/
  closed : ∀ unit ∈ main :: units, ¬ Blocked disk root? unit ∧
    ∀ next, Leads disk root? unit next → place? disk next ∈ (main :: units).map (place? disk)
  /-- What a unit imports stands before it, unless import lines lead back to the unit. -/
  behind : ∀ front unit back, units = front ++ unit :: back →
    ∀ next, Leads disk root? unit next → place? disk next ≠ place? disk main →
      place? disk next ∈ front.map (place? disk) ∨
        ∃ again, Reaches disk root? main again ∧ place? disk again = place? disk next ∧
          Reaches disk root? again unit

section Graph

variable {disk : Disk} {root? : Option String} {main unit other next : ScriptUnit}
  {path name : String}

theorem ok_of_toOption {Fault Value : Type} {result : Except Fault Value} {value : Value}
    (succeeds : result.toOption = some value) : result = .ok value := by
  cases result with
  | error fault => cases succeeds
  | ok found => exact congrArg Except.ok (Option.some.inj succeeds)

theorem Finds.unique (one : Finds disk root? unit name next)
    (two : Finds disk root? unit name other) : next = other := by
  rcases one with ⟨path, resolved, read⟩
  rcases two with ⟨again, resolvedAgain, readAgain⟩
  have same : path = again := Option.some.inj (resolved.symm.trans resolvedAgain)
  rw [same] at read
  exact Except.ok.inj (read.symm.trans readAgain)

theorem load_eq_ok : ScriptUnit.load disk path = .ok unit ↔
    ∃ bytes parsed, disk.read path = .ok bytes ∧
      ScriptUnit.parse (Utf8.decode bytes) = .ok parsed ∧ { parsed with path := some path } = unit := by
  rw [ScriptUnit.load]
  constructor
  · intro loaded
    split at loaded
    · cases loaded
    · next bytes found =>
        cases parsed : ScriptUnit.parse (Utf8.decode bytes) with
        | error failure =>
            rw [parsed] at loaded
            cases loaded
        | ok read =>
            rw [parsed] at loaded
            exact ⟨bytes, read, found, parsed, Except.ok.inj loaded⟩
  · rintro ⟨bytes, parsed, found, readable, rfl⟩
    rw [found]
    show Except.map _ _ = _
    rw [readable]
    rfl

theorem folder_of_load (loaded : ScriptUnit.load disk path = .ok unit) :
    unit.folder? = Path.parent? path := by
  rcases load_eq_ok.mp loaded with ⟨_, _, _, _, rfl⟩
  rfl

theorem place_of_load (loaded : ScriptUnit.load disk path = .ok unit) :
    place? disk unit = (disk.locate path).toOption := by
  rcases load_eq_ok.mp loaded with ⟨_, _, _, _, rfl⟩
  rfl

theorem locate_of_load (loaded : ScriptUnit.load disk path = .ok unit) :
    ∃ location, disk.locate path = .ok location := by
  rcases load_eq_ok.mp loaded with ⟨bytes, _, found, _, _⟩
  cases located : disk.locate path with
  | ok location => exact ⟨location, rfl⟩
  | error fault =>
      rw [Disk.read, located] at found
      cases found

/-- Only the file decides what is read from it. -/
theorem load_elsewhere {again : String} (loaded : ScriptUnit.load disk path = .ok unit)
    (same : disk.locate again = disk.locate path) :
    ScriptUnit.load disk again = .ok { unit with path := some again } := by
  have alike : disk.read again = disk.read path := by
    rw [Disk.read, Disk.read, same]
  rcases load_eq_ok.mp loaded with ⟨bytes, parsed, found, readable, rfl⟩
  exact load_eq_ok.mpr ⟨bytes, parsed, alike.trans found, readable, rfl⟩

theorem Finds.place (found : Finds disk root? unit name next) :
    place? disk next = target? disk root? unit name := by
  rcases found with ⟨path, resolved, read⟩
  rw [place_of_load read, target?, resolved]
  rfl

/-- An import line that leads to the file of a unit finds a unit there. -/
theorem exists_finds_of_target (read : ScriptUnit.load disk path = .ok next)
    (target : target? disk root? unit name = place? disk next) :
    ∃ own, Finds disk root? unit name own ∧ place? disk own = place? disk next := by
  rcases locate_of_load read with ⟨location, located⟩
  have place : place? disk next = some location := by
    rw [place_of_load read, located]
    rfl
  rw [place, target?, Option.bind_eq_some_iff] at target
  rcases target with ⟨found, resolved, leads⟩
  have there : disk.locate found = .ok location := ok_of_toOption leads
  have readThere := load_elsewhere read (there.trans located.symm)
  refine ⟨_, ⟨found, resolved, readThere⟩, ?_⟩
  rw [place_of_load readThere, there, place]
  rfl

/-- What is reached from a script that was read has been read, too. -/
theorem Reaches.read {start : String} (loaded : ScriptUnit.load disk start = .ok main)
    (reached : Reaches disk root? main unit) : ∃ path, ScriptUnit.load disk path = .ok unit := by
  induction reached with
  | refl => exact ⟨start, loaded⟩
  | tail _ leads _ =>
      rcases leads with ⟨_, _, path, _, read⟩
      exact ⟨path, read⟩

/-- Two reached units of one file have the same header. -/
theorem Reaches.header_eq {start : String} (loaded : ScriptUnit.load disk start = .ok main)
    (reached : Reaches disk root? main unit) (again : Reaches disk root? main other)
    (same : place? disk unit = place? disk other) : unit.header = other.header := by
  rcases reached.read loaded with ⟨path, read⟩
  rcases again.read loaded with ⟨path', read'⟩
  rcases locate_of_load read with ⟨location, located⟩
  rcases locate_of_load read' with ⟨location', located'⟩
  rw [place_of_load read, place_of_load read', located, located'] at same
  have equal : location = location' := Option.some.inj same
  have moved := load_elsewhere read' (located.trans (equal ▸ located'.symm))
  rw [Except.ok.inj (read.symm.trans moved)]

end Graph

/-! ## The walk -/

section Walk

variable (disk : Disk) (root? : Option String) (main : ScriptUnit)

/-- The units whose imports are being loaded, the innermost in front. -/
inductive Stacked : List ScriptUnit → Prop
  | start : Stacked [main]
  | push {unit next : ScriptUnit} {below : List ScriptUnit} (leads : Leads disk root? unit next)
      (under : Stacked (unit :: below)) : Stacked (next :: unit :: below)

/-- The imports of a completed unit are in front of it, or among known units from which import
lines lead to it. -/
def Completed (known front : List ScriptUnit) (unit : ScriptUnit) : Prop :=
  ∀ name ∈ unit.header.imports, ∃ next, Finds disk root? unit name next ∧
    (place? disk next ∈ front.map (place? disk) ∨
      ∃ again ∈ known, place? disk again = place? disk next ∧ Reaches disk root? again unit)

/-- What is true of the progress while the imports of the units of the stack are loaded. -/
structure Sound (stack : List ScriptUnit) (progress : Progress) : Prop where
  /-- The files met are those of the stack and of the completed units. -/
  seen : ∀ location, location ∈ progress.seen ↔
    some location ∈ (stack ++ progress.units).map (place? disk)
  apart : ((stack ++ progress.units).map (place? disk)).Nodup
  reached : ∀ unit ∈ progress.units, Reaches disk root? main unit
  completed : ∀ front unit back, progress.units = front ++ unit :: back →
    Completed disk root? (stack ++ progress.units) front unit

/-- The import line has been dealt with: its file is among those met. -/
def Settled (stack : List ScriptUnit) (progress : Progress) (unit : ScriptUnit) (name : String) :
    Prop :=
  ∃ next, Finds disk root? unit name next ∧
    place? disk next ∈ (stack ++ progress.units).map (place? disk)

/-- Loading the imports must fail: something reached is blocked, or some simple chain of
imports is too long. -/
def Doomed : Prop :=
  (∃ unit, Reaches disk root? main unit ∧ Blocked disk root? unit) ∨
    ∃ chain, SimpleChain disk root? main chain ∧ maxImportDepth ≤ chain.length

/-- The progress is sound again, nothing got lost, and the import lines have been dealt with;
or there is a reason to fail. -/
def Outcome (stack : List ScriptUnit) (before : Progress) (unit : ScriptUnit)
    (names : List String) : Except Failure Progress → Prop
  | .ok after => Sound disk root? main stack after ∧ before.units <+: after.units ∧
      ∀ name ∈ names, Settled disk root? stack after unit name
  | .error _ => Doomed disk root? main

/-- What is done about one import line. -/
def follow (links : Nat) (unit : ScriptUnit) (progress : Progress) (name : String) :
    Except Failure Progress :=
  match resolve? disk name unit.folder? root? with
  | none =>
    .error (.unusable (unit.path.getD "") ("cannot find import '" ++ name ++ "'"))
  | some path =>
    match disk.locate path with
    | .error fault => .error (.unreadable path fault)
    | .ok location =>
      if progress.seen.contains location then .ok progress
      else do
        let imported ← ScriptUnit.load disk path
        let inner ← visit disk root? links imported
          { progress with seen := location :: progress.seen }
        .ok { inner with units := inner.units ++ [imported] }

end Walk

section Steps

variable {disk : Disk} {root? : Option String} {main unit next : ScriptUnit}
  {stack below : List ScriptUnit} {progress : Progress}

theorem visit_succ (links : Nat) :
    visit disk root? (links + 1) unit progress =
      unit.header.imports.foldlM (follow disk root? links unit) progress := by
  rw [visit]
  rfl

theorem Stacked.reaches_top (stacked : Stacked disk root? main (unit :: below)) :
    ∀ lower ∈ unit :: below, Reaches disk root? lower unit := by
  generalize shape : unit :: below = stack at stacked
  induction stacked generalizing unit below with
  | start =>
      cases shape
      intro lower member
      rw [List.mem_singleton.mp member]
      exact .refl
  | push leads _ ih =>
      cases shape
      intro lower member
      rcases List.mem_cons.mp member with rfl | member
      · exact .refl
      · exact (ih rfl lower member).tail leads

theorem Stacked.reached (stacked : Stacked disk root? main stack) :
    ∀ unit ∈ stack, Reaches disk root? main unit := by
  induction stacked with
  | start =>
      intro unit member
      rw [List.mem_singleton.mp member]
      exact .refl
  | push leads _ ih =>
      intro unit member
      rcases List.mem_cons.mp member with rfl | member
      · exact (ih _ List.mem_cons_self).tail leads
      · exact ih unit member

/-- Read from below, the stack is a chain of import lines. -/
theorem Stacked.linked (stacked : Stacked disk root? main stack) :
    ∃ chain, stack.reverse = main :: chain ∧ (main :: chain).IsChain (Leads disk root?) := by
  induction stacked with
  | start => exact ⟨[], rfl, .singleton main⟩
  | @push unit next below leads _ ih =>
      rcases ih with ⟨chain, turned, linked⟩
      refine ⟨chain ++ [next], ?_, ?_⟩
      · rw [List.reverse_cons, turned, List.cons_append]
      · have last : (main :: chain).getLast? = some unit := by
          rw [← turned, List.getLast?_reverse]
          rfl
        rw [← List.cons_append, List.isChain_append]
        refine ⟨linked, .singleton next, ?_⟩
        intro upper isLast lower isHead
        rw [last] at isLast
        cases isLast
        cases isHead
        exact leads

theorem Completed.mono {known more front : List ScriptUnit} (within : known ⊆ more)
    (completed : Completed disk root? known front unit) :
    Completed disk root? more front unit := by
  intro name listed
  rcases completed name listed with ⟨next, found, before | ⟨again, member, same, reaches⟩⟩
  · exact ⟨next, found, .inl before⟩
  · exact ⟨next, found, .inr ⟨again, within member, same, reaches⟩⟩

theorem Settled.mono {after : Progress} {name : String}
    (further : progress.units <+: after.units)
    (settled : Settled disk root? stack progress unit name) :
    Settled disk root? stack after unit name := by
  rcases settled with ⟨next, found, member⟩
  have more : stack ++ progress.units ⊆ stack ++ after.units :=
    List.append_subset.mpr ⟨List.subset_append_left _ _,
      List.Subset.trans further.subset (List.subset_append_right _ _)⟩
  exact ⟨next, found, List.map_subset _ more member⟩

/-- A file that was not met before is put on the stack. -/
theorem Sound.enter {path : String} {location : Location}
    (sound : Sound disk root? main stack progress) (loaded : ScriptUnit.load disk path = .ok next)
    (located : disk.locate path = .ok location) (fresh : location ∉ progress.seen) :
    Sound disk root? main (next :: stack) { progress with seen := location :: progress.seen } where
  seen := by
    intro other
    have place : place? disk next = some location := by
      rw [place_of_load loaded, located]
      rfl
    rw [List.cons_append, List.map_cons, List.mem_cons, List.mem_cons, place, Option.some.injEq,
      sound.seen other]
  apart := by
    have place : place? disk next = some location := by
      rw [place_of_load loaded, located]
      rfl
    rw [List.cons_append, List.map_cons, List.nodup_cons, place, ← sound.seen location]
    exact ⟨fresh, sound.apart⟩
  reached := sound.reached
  completed := fun front unit back parted =>
    (sound.completed front unit back parted).mono (List.subset_cons_self _ _)

/-- A unit whose imports have been dealt with goes from the stack to the completed units. -/
theorem Sound.leave (sound : Sound disk root? main (next :: stack) progress)
    (stacked : Stacked disk root? main (next :: stack))
    (settled : ∀ name ∈ next.header.imports, Settled disk root? (next :: stack) progress next name) :
    Sound disk root? main stack { progress with units := progress.units ++ [next] } := by
  have moved : (stack ++ (progress.units ++ [next])).Perm (next :: stack ++ progress.units) := by
    rw [← List.append_assoc, List.cons_append]
    exact List.perm_append_singleton _ _
  have places := moved.map (place? disk)
  refine ⟨?_, ?_, ?_, ?_⟩
  · intro location
    rw [sound.seen location, places.mem_iff]
  · exact places.nodup_iff.mpr sound.apart
  · intro unit member
    rcases List.mem_append.mp member with old | new
    · exact sound.reached unit old
    · rw [List.mem_singleton.mp new]
      exact stacked.reached next List.mem_cons_self
  · intro front unit back parted
    have known : next :: stack ++ progress.units ⊆ stack ++ (progress.units ++ [next]) :=
      moved.symm.subset
    rcases List.eq_nil_or_concat back with rfl | ⟨others, last, rfl⟩
    · -- The unit that has just been completed.
      have ends := List.append_inj' parted rfl
      cases ends.2
      rw [← ends.1]
      intro name listed
      rcases settled name listed with ⟨imported, found, member⟩
      rcases List.mem_map.mp member with ⟨again, met, same⟩
      rcases List.mem_append.mp met with open' | done
      · exact ⟨imported, found, .inr ⟨again, known met, same, stacked.reaches_top again open'⟩⟩
      · exact ⟨imported, found, .inl (same ▸ List.mem_map_of_mem done)⟩
    · -- A unit that had been completed before.
      have regrouped : progress.units ++ [next] = front ++ unit :: others ++ [last] := by
        rw [List.append_assoc, List.cons_append, ← @List.concat_eq_append _ others]
        exact parted
      have ends := List.append_inj' regrouped rfl
      exact (sound.completed front unit others ends.1).mono known

theorem Stacked.doomed {name : String} (stacked : Stacked disk root? main (unit :: below))
    (listed : name ∈ unit.header.imports) (lost : ∀ next, ¬ Finds disk root? unit name next) :
    Doomed disk root? main :=
  .inl ⟨unit, stacked.reached unit List.mem_cons_self, name, listed, lost⟩

theorem Stacked.doomed_of_unread {name path : String}
    (stacked : Stacked disk root? main (unit :: below)) (listed : name ∈ unit.header.imports)
    (resolved : resolve? disk name unit.folder? root? = some path)
    (unread : ∀ next, ScriptUnit.load disk path ≠ .ok next) : Doomed disk root? main := by
  refine stacked.doomed listed ?_
  rintro next ⟨path', resolved', read⟩
  rw [resolved] at resolved'
  cases resolved'
  exact unread next read

/-- What fails on the way fails, and what has progressed goes on from there. -/
theorem Outcome.bind {inner : List ScriptUnit} {before : Progress} {upper : ScriptUnit}
    {names done : List String} {first : Except Failure Progress}
    {others : Progress → Except Failure Progress}
    (outcome : Outcome disk root? main inner before upper done first)
    (rest : ∀ after, Sound disk root? main inner after → before.units <+: after.units →
      (∀ name ∈ done, Settled disk root? inner after upper name) →
        Outcome disk root? main stack progress unit names (others after)) :
    Outcome disk root? main stack progress unit names (first >>= others) := by
  cases first with
  | error failure => exact outcome
  | ok after =>
      rcases outcome with ⟨sound, further, settled⟩
      exact rest after sound further settled

/-- A file that was met can be read, by whatever path. -/
theorem Sound.readable {start path : String} {location : Location}
    (loaded : ScriptUnit.load disk start = .ok main) (stacked : Stacked disk root? main stack)
    (sound : Sound disk root? main stack progress) (located : disk.locate path = .ok location)
    (met : location ∈ progress.seen) :
    ∃ next, ScriptUnit.load disk path = .ok next ∧
      place? disk next ∈ (stack ++ progress.units).map (place? disk) := by
  have member := (sound.seen location).mp met
  rcases List.mem_map.mp member with ⟨again, known, place⟩
  have reached : Reaches disk root? main again := by
    rcases List.mem_append.mp known with onStack | done
    · exact stacked.reached again onStack
    · exact sound.reached again done
  rcases reached.read loaded with ⟨path', read⟩
  rcases locate_of_load read with ⟨location', located'⟩
  rw [place_of_load read, located'] at place
  have equal : location' = location := Option.some.inj place
  have next := load_elsewhere read (located.trans (equal ▸ located'.symm))
  refine ⟨_, next, ?_⟩
  rw [place_of_load next, located]
  exact member

/-- The imports of a file that was not met before are loaded, and then it is completed. -/
theorem fresh_outcome {links : Nat} {name path : String} {location : Location}
    (deeper : ∀ next progress, Stacked disk root? main (next :: unit :: below) →
      Sound disk root? main (next :: unit :: below) progress →
        Outcome disk root? main (next :: unit :: below) progress next next.header.imports
          (visit disk root? links next progress))
    (stacked : Stacked disk root? main (unit :: below))
    (sound : Sound disk root? main (unit :: below) progress) (listed : name ∈ unit.header.imports)
    (resolved : resolve? disk name unit.folder? root? = some path)
    (located : disk.locate path = .ok location) (fresh : location ∉ progress.seen)
    (read : ScriptUnit.load disk path = .ok next) :
    Outcome disk root? main (unit :: below) progress unit [name]
      (visit disk root? links next { progress with seen := location :: progress.seen } >>=
        fun inner => .ok { inner with units := inner.units ++ [next] }) := by
  have pushed := stacked.push ⟨name, listed, path, resolved, read⟩
  refine (deeper next _ pushed (sound.enter read located fresh)).bind ?_
  intro inner soundInside further settled
  refine ⟨soundInside.leave pushed settled, further.trans (List.prefix_append _ _), ?_⟩
  refine List.forall_mem_singleton.mpr ⟨next, ⟨path, resolved, read⟩, List.mem_map_of_mem ?_⟩
  exact List.mem_append_right _ (List.mem_append_right _ (List.mem_singleton_self _))

/-- One import line has one of the two outcomes, if the imports of the file behind it have. -/
theorem follow_outcome {start : String} {links : Nat} {name : String}
    (loaded : ScriptUnit.load disk start = .ok main)
    (deeper : ∀ next progress, Stacked disk root? main (next :: unit :: below) →
      Sound disk root? main (next :: unit :: below) progress →
        Outcome disk root? main (next :: unit :: below) progress next next.header.imports
          (visit disk root? links next progress))
    (stacked : Stacked disk root? main (unit :: below))
    (sound : Sound disk root? main (unit :: below) progress) (listed : name ∈ unit.header.imports) :
    Outcome disk root? main (unit :: below) progress unit [name]
      (follow disk root? links unit progress name) := by
  rw [follow]
  cases resolved : resolve? disk name unit.folder? root? with
  | none =>
      refine stacked.doomed listed ?_
      rintro next ⟨path, impossible, _⟩
      rw [resolved] at impossible
      cases impossible
  | some path =>
      dsimp only
      cases located : disk.locate path with
      | error fault =>
          refine stacked.doomed_of_unread listed resolved fun next read => ?_
          rcases locate_of_load read with ⟨location, impossible⟩
          rw [located] at impossible
          cases impossible
      | ok location =>
          dsimp only
          by_cases met : location ∈ progress.seen
          · rw [if_pos (List.contains_iff_mem.mpr met)]
            rcases sound.readable loaded stacked located met with ⟨next, read, member⟩
            exact ⟨sound, List.prefix_rfl,
              List.forall_mem_singleton.mpr ⟨next, ⟨path, resolved, read⟩, member⟩⟩
          · rw [if_neg fun contained => met (List.contains_iff_mem.mp contained)]
            cases read : ScriptUnit.load disk path with
            | error failure =>
                refine stacked.doomed_of_unread listed resolved fun next impossible => ?_
                rw [read] at impossible
                cases impossible
            | ok next => exact fresh_outcome deeper stacked sound listed resolved located met read

/-- So has the whole row of import lines. -/
theorem foldlM_outcome {start : String} {links : Nat}
    (loaded : ScriptUnit.load disk start = .ok main)
    (deeper : ∀ next progress, Stacked disk root? main (next :: unit :: below) →
      Sound disk root? main (next :: unit :: below) progress →
        Outcome disk root? main (next :: unit :: below) progress next next.header.imports
          (visit disk root? links next progress))
    (stacked : Stacked disk root? main (unit :: below)) {names : List String}
    (listed : names ⊆ unit.header.imports) (progress : Progress)
    (sound : Sound disk root? main (unit :: below) progress) :
    Outcome disk root? main (unit :: below) progress unit names
      (names.foldlM (follow disk root? links unit) progress) := by
  induction names generalizing progress with
  | nil => exact ⟨sound, List.prefix_rfl, fun name impossible => nomatch impossible⟩
  | cons name names ih =>
      rw [List.foldlM_cons]
      have first := follow_outcome loaded deeper stacked sound (listed List.mem_cons_self)
      refine first.bind fun middle soundMiddle further settled => ?_
      have rest := ih (fun other member => listed (List.mem_cons_of_mem _ member)) middle soundMiddle
      cases folded : names.foldlM (follow disk root? links unit) middle with
      | error failure =>
          rw [folded] at rest
          exact rest
      | ok after =>
          rw [folded] at rest
          rcases rest with ⟨soundAfter, furtherAfter, settledAfter⟩
          refine ⟨soundAfter, further.trans furtherAfter, ?_⟩
          intro other member
          rcases List.mem_cons.mp member with rfl | member
          · exact (settled other (List.mem_singleton_self _)).mono furtherAfter
          · exact settledAfter other member

/-- A stack as deep as allowed is a simple chain that is too long. -/
theorem Sound.too_deep (sound : Sound disk root? main (unit :: below) progress)
    (stacked : Stacked disk root? main (unit :: below)) (deep : maxImportDepth ≤ below.length) :
    Doomed disk root? main := by
  rcases stacked.linked with ⟨chain, turned, linked⟩
  have apart : ((unit :: below).map (place? disk)).Nodup := by
    have all := sound.apart
    rw [List.map_append] at all
    exact (List.nodup_append.mp all).1
  have size : chain.length = below.length := by
    have sizes := congrArg List.length turned
    rw [List.length_reverse, List.length_cons, List.length_cons] at sizes
    omega
  refine .inr ⟨chain, ⟨linked, ?_⟩, size ▸ deep⟩
  rw [← turned, List.map_reverse]
  exact List.pairwise_reverse.mpr (apart.imp Ne.symm)

theorem visit_outcome {start : String} (loaded : ScriptUnit.load disk start = .ok main) (links : Nat)
    (unit : ScriptUnit) (below : List ScriptUnit) (progress : Progress)
    (depth : below.length + links = maxImportDepth)
    (stacked : Stacked disk root? main (unit :: below))
    (sound : Sound disk root? main (unit :: below) progress) :
    Outcome disk root? main (unit :: below) progress unit unit.header.imports
      (visit disk root? links unit progress) := by
  induction links generalizing unit below progress with
  | zero =>
      rw [visit]
      cases imports : unit.header.imports with
      | nil => exact ⟨sound, List.prefix_rfl, fun name impossible => nomatch impossible⟩
      | cons name names => exact sound.too_deep stacked (Nat.le_of_eq depth.symm)
  | succ links ih =>
      rw [visit_succ]
      refine foldlM_outcome loaded ?_ stacked (List.Subset.refl _) progress sound
      intro next within pushed soundWithin
      refine ih next (unit :: below) within ?_ pushed soundWithin
      rw [List.length_cons]
      omega

end Steps

/-! ## What is loaded -/

section Results

variable {disk : Disk} {root? : Option String} {main : ScriptUnit} {path : String}
  {units : List ScriptUnit}

theorem sound_start :
    Sound disk root? main [main]
      { seen := (main.path.bind fun path => (disk.locate path).toOption).toList } where
  seen := by
    intro location
    rw [Option.mem_toList]
    exact (Option.mem_def.trans eq_comm).trans List.mem_singleton.symm
  apart := List.nodup_singleton _
  reached := fun unit impossible => nomatch impossible
  completed := by
    intro front unit back impossible
    cases front <;> cases impossible

theorem Settled.closed {known : List ScriptUnit} {unit : ScriptUnit}
    (settled : ∀ name ∈ unit.header.imports, ∃ next, Finds disk root? unit name next ∧
      place? disk next ∈ known.map (place? disk)) :
    ¬ Blocked disk root? unit ∧
      ∀ next, Leads disk root? unit next → place? disk next ∈ known.map (place? disk) := by
  constructor
  · rintro ⟨name, listed, lost⟩
    rcases settled name listed with ⟨next, found, _⟩
    exact lost next found
  · rintro next ⟨name, listed, found⟩
    rcases settled name listed with ⟨other, foundOther, member⟩
    rw [found.unique foundOther]
    exact member

theorem Sound.arranged {progress : Progress} (sound : Sound disk root? main [main] progress)
    (settled : ∀ name ∈ main.header.imports, Settled disk root? [main] progress main name) :
    Arranged disk root? main progress.units where
  apart := sound.apart
  reached := sound.reached
  closed := by
    intro unit member
    refine @Settled.closed disk root? (main :: progress.units) unit ?_
    rcases List.mem_cons.mp member with rfl | member
    · exact settled
    · intro name listed
      rcases List.append_of_mem member with ⟨front, back, parted⟩
      rcases sound.completed front unit back parted name listed with ⟨next, found, before | again⟩
      · have within : front ⊆ main :: progress.units := by
          rw [parted]
          exact fun other earlier => List.mem_cons_of_mem _ (List.mem_append_left _ earlier)
        exact ⟨next, found, List.map_subset _ within before⟩
      · rcases again with ⟨other, known, same, _⟩
        exact ⟨next, found, same ▸ List.mem_map_of_mem known⟩
  behind := by
    intro front unit back parted next leads _
    rcases leads with ⟨name, listed, found⟩
    rcases sound.completed front unit back parted name listed with ⟨other, foundOther, place⟩
    rw [found.unique foundOther]
    rcases place with before | ⟨again, known, same, reaches⟩
    · exact .inl before
    · refine .inr ⟨again, ?_, same, reaches⟩
      rcases List.mem_cons.mp known with rfl | member
      · exact .refl
      · exact sound.reached again member

/-- Loading ends with arranged units, or there was a reason to fail. -/
theorem load_outcome (loaded : ScriptUnit.load disk path = .ok main) :
    match load disk root? main with
    | .ok units => Arranged disk root? main units
    | .error _ => Doomed disk root? main := by
  have stacked : Stacked disk root? main [main] := .start
  have walked := visit_outcome loaded maxImportDepth main [] _ (Nat.zero_add _) stacked sound_start
  rw [load]
  cases visited : visit disk root? maxImportDepth main
      { seen := (main.path.bind fun path => (disk.locate path).toOption).toList } with
  | error failure =>
      rw [visited] at walked
      exact walked
  | ok progress =>
      rw [visited] at walked
      exact walked.1.arranged walked.2.2

/-- Where the lines of files are steady, whatever a reached unit of a loaded file imports is
loaded, too. -/
theorem Arranged.follows (loaded : ScriptUnit.load disk path = .ok main)
    (steady : Steady disk root? main) (arranged : Arranged disk root? main units)
    {unit : ScriptUnit} (reached : Reaches disk root? main unit)
    (there : place? disk unit ∈ (main :: units).map (place? disk)) :
    ¬ Blocked disk root? unit ∧
      ∀ next, Leads disk root? unit next → place? disk next ∈ (main :: units).map (place? disk) := by
  rcases List.mem_map.mp there with ⟨twin, member, same⟩
  have twinReached : Reaches disk root? main twin := by
    rcases List.mem_cons.mp member with rfl | member
    · exact .refl
    · exact arranged.reached twin member
  have headers := reached.header_eq loaded twinReached same.symm
  refine Settled.closed fun name listed => ?_
  have listedThere : name ∈ twin.header.imports := headers ▸ listed
  -- The line finds a file for the twin, and so it does for the unit.
  have open' : ∃ next, Finds disk root? twin name next := by
    by_contra lost
    exact (arranged.closed twin member).1 ⟨name, listedThere, not_exists.mp lost⟩
  rcases open' with ⟨next, found⟩
  have target := steady unit twin reached twinReached same.symm name listed
  rw [← found.place] at target
  have place := (arranged.closed twin member).2 next ⟨name, listedThere, found⟩
  rcases found with ⟨_, _, read⟩
  rcases exists_finds_of_target read target with ⟨own, foundOwn, samePlace⟩
  exact ⟨own, foundOwn, samePlace ▸ place⟩

/-- Where the lines of files are steady, the file of whatever is reached is loaded. -/
theorem Arranged.complete (loaded : ScriptUnit.load disk path = .ok main)
    (steady : Steady disk root? main) (arranged : Arranged disk root? main units)
    {unit : ScriptUnit} (reached : Reaches disk root? main unit) :
    place? disk unit ∈ (main :: units).map (place? disk) := by
  induction reached with
  | refl => exact List.mem_cons_self
  | tail reached leads ih => exact (arranged.follows loaded steady reached ih).2 _ leads

end Results

/-! ## Paths that are enough -/

section Paths

variable {disk : Disk} {root? : Option String} {main unit : ScriptUnit} {start : String}
  {paths : List String}

/-- The import lines of the files at these paths stand for these paths only. -/
def Encloses (disk : Disk) (root? : Option String) (paths : List String) : Prop :=
  ∀ path ∈ paths, ∀ unit ∈ (ScriptUnit.load disk path).toOption, ∀ name ∈ unit.header.imports,
    ∀ next ∈ resolve? disk name unit.folder? root?, next ∈ paths

instance : Decidable (Encloses disk root? paths) :=
  inferInstanceAs (Decidable (∀ path ∈ paths, ∀ unit ∈ (ScriptUnit.load disk path).toOption,
    ∀ name ∈ unit.header.imports, ∀ next ∈ resolve? disk name unit.folder? root?, next ∈ paths))

/-- What a path leads to can be told from the names of the imports. -/
theorem exists_load {path : String} {imports : List String}
    (read : (ScriptUnit.load disk path).toOption.map (fun unit => unit.header.imports) =
      some imports) :
    ∃ unit, ScriptUnit.load disk path = .ok unit ∧ unit.header.imports = imports := by
  rcases Option.map_eq_some_iff.mp read with ⟨unit, loaded, listed⟩
  exact ⟨unit, ok_of_toOption loaded, listed⟩

theorem leads_of_load {path next name : String} {imported : ScriptUnit}
    (loaded : ScriptUnit.load disk path = .ok unit) (listed : name ∈ unit.header.imports)
    (resolved : resolve? disk name (Path.parent? path) root? = some next)
    (read : ScriptUnit.load disk next = .ok imported) : Leads disk root? unit imported :=
  ⟨name, listed, next, folder_of_load loaded ▸ resolved, read⟩

theorem mem_toOption_of_load {path : String} (loaded : ScriptUnit.load disk path = .ok unit) :
    unit ∈ (ScriptUnit.load disk path).toOption := by
  rw [loaded]
  rfl

/-- Units that are reached from one of the paths are read by the paths. -/
theorem Encloses.read (encloses : Encloses disk root? paths) (member : start ∈ paths)
    (loaded : ScriptUnit.load disk start = .ok main) (reached : Reaches disk root? main unit) :
    ∃ path ∈ paths, ScriptUnit.load disk path = .ok unit := by
  induction reached with
  | refl => exact ⟨start, member, loaded⟩
  | tail _ leads ih =>
      rcases ih with ⟨path, within, read⟩
      rcases leads with ⟨name, listed, next, resolved, readNext⟩
      exact ⟨next, encloses path within _ (mem_toOption_of_load read) name listed next resolved,
        readNext⟩

/-- A simple chain has fewer links than there are paths. -/
theorem Encloses.length_lt (encloses : Encloses disk root? paths) (member : start ∈ paths)
    (loaded : ScriptUnit.load disk start = .ok main) {chain : List ScriptUnit}
    (simple : SimpleChain disk root? main chain) : chain.length < paths.length := by
  have reaches : (main :: chain).IsChain (ReflTransGen (Leads disk root?)) :=
    simple.linked.imp fun _ _ => .single
  have within : (main :: chain).map (place? disk) ⊆
      paths.map fun path => (disk.locate path).toOption := by
    intro place placed
    rcases List.mem_map.mp placed with ⟨unit, onChain, rfl⟩
    have reached : Reaches disk root? main unit := by
      rcases List.mem_cons.mp onChain with rfl | below
      · exact .refl
      · exact (List.pairwise_cons.mp reaches.pairwise).1 unit below
    rcases encloses.read member loaded reached with ⟨path, known, read⟩
    rw [place_of_load read]
    exact List.mem_map_of_mem known
  have fits := (simple.apart.subperm within).length_le
  rw [List.length_map, List.length_map, List.length_cons] at fits
  exact fits

/-- If every line of the paths finds a script, nothing that is reached is blocked. -/
theorem Encloses.not_blocked (encloses : Encloses disk root? paths) (member : start ∈ paths)
    (loaded : ScriptUnit.load disk start = .ok main)
    (found : ∀ path ∈ paths, ∀ unit ∈ (ScriptUnit.load disk path).toOption,
      ∀ name ∈ unit.header.imports, ∃ next ∈ resolve? disk name unit.folder? root?,
        (ScriptUnit.load disk next).toOption.isSome = true) :
    ∀ unit, Reaches disk root? main unit → ¬ Blocked disk root? unit := by
  rintro unit reached ⟨name, listed, lost⟩
  rcases encloses.read member loaded reached with ⟨path, known, read⟩
  rcases found path known unit (mem_toOption_of_load read) name listed with
    ⟨next, resolved, readable⟩
  rcases Option.isSome_iff_exists.mp readable with ⟨imported, succeeds⟩
  exact lost imported ⟨next, resolved, ok_of_toOption succeeds⟩

/-- Paths to one file are enough to compare if they are all that there are. -/
theorem Encloses.steady (encloses : Encloses disk root? paths) (member : start ∈ paths)
    (loaded : ScriptUnit.load disk start = .ok main)
    (alike : ∀ path ∈ paths, ∀ other ∈ paths,
      (disk.locate path).toOption = (disk.locate other).toOption →
        ∀ unit ∈ (ScriptUnit.load disk path).toOption, ∀ name ∈ unit.header.imports,
          ∀ twin ∈ (ScriptUnit.load disk other).toOption,
            target? disk root? unit name = target? disk root? twin name) :
    Steady disk root? main := by
  intro unit twin reached reachedTwin same name listed
  rcases encloses.read member loaded reached with ⟨path, known, read⟩
  rcases encloses.read member loaded reachedTwin with ⟨other, knownTwin, readTwin⟩
  rw [place_of_load read, place_of_load readTwin] at same
  exact alike path known other knownTwin same unit (mem_toOption_of_load read) name listed twin
    (mem_toOption_of_load readTwin)

end Paths

/-! ## The law of imports -/

/-- **The imports of a script are the files that its import lines reach, each once, and behind
what they import.**  Loading always ends.  If it succeeds, the units are arranged, and all
reached files are there wherever a file's lines do not depend on the path by which it is read.
It succeeds if nothing that is reached is blocked and no simple chain of imports is too long.
It fails if something that is reached is blocked, again wherever lines do not depend on paths. -/
theorem load_follows_lines {disk : Disk} {root? : Option String} {main : ScriptUnit}
    {path : String} (loaded : ScriptUnit.load disk path = .ok main) :
    (∀ units, load disk root? main = .ok units →
      Arranged disk root? main units ∧
        (Steady disk root? main → ∀ unit, Reaches disk root? main unit →
          place? disk unit ∈ (main :: units).map (place? disk))) ∧
    ((∀ unit, Reaches disk root? main unit → ¬ Blocked disk root? unit) →
      (∀ chain, SimpleChain disk root? main chain → chain.length < maxImportDepth) →
        ∃ units, load disk root? main = .ok units) ∧
    (Steady disk root? main →
      (∃ unit, Reaches disk root? main unit ∧ Blocked disk root? unit) →
        ∃ failure, load disk root? main = .error failure) := by
  have outcome := @load_outcome disk root? main path loaded
  refine ⟨?_, ?_, ?_⟩
  · intro units done
    rw [done] at outcome
    exact ⟨outcome, fun steady unit reached => outcome.complete loaded steady reached⟩
  · intro clear short
    cases result : load disk root? main with
    | ok units => exact ⟨units, rfl⟩
    | error failure =>
        rw [result] at outcome
        rcases outcome with ⟨unit, reached, blocked⟩ | ⟨chain, simple, long⟩
        · exact absurd blocked (clear unit reached)
        · exact absurd (short chain simple) (Nat.not_lt.mpr long)
  · rintro steady ⟨unit, reached, blocked⟩
    cases result : load disk root? main with
    | error failure => exact ⟨failure, rfl⟩
    | ok units =>
        rw [result] at outcome
        have there := outcome.complete loaded steady reached
        exact absurd blocked (outcome.follows loaded steady reached there).1

/-- Two scripts import a third one, by different paths, that imports one of them and the first
script.  Next to them lies a script that imports a file that is not there. -/
def ring : Disk :=
  ((((Disk.empty.addFile ["a"] "import b\nimport c\n".toUTF8).addFile
    ["b"] "import d\n".toUTF8).addFile
    ["c"] "import ./d\nimport c\n".toUTF8).addFile
    ["d"] "import b\nimport a\n".toUTF8).addFile
    ["alone"] "import x\n".toUTF8

theorem load_follows_lines_ring :
    (∃ main units, ScriptUnit.load ring "/a" = .ok main ∧ load ring none main = .ok units ∧
      Arranged ring none main units ∧ ∀ unit, Reaches ring none main unit →
        place? ring unit ∈ (main :: units).map (place? ring)) ∧
    ∃ main failure, ScriptUnit.load ring "/alone" = .ok main ∧
      load ring none main = .error failure := by
  constructor
  · have read : ∃ unit, ScriptUnit.load ring "/a" = .ok unit ∧
        unit.header.imports = ["b", "c"] := exists_load (by decide +kernel)
    rcases read with ⟨main, loaded, _⟩
    have encloses : Encloses ring none ["/a", "/b", "/c", "/d", "/./d"] := by decide +kernel
    have steady : Steady ring none main :=
      encloses.steady List.mem_cons_self loaded (by decide +kernel)
    have law := @load_follows_lines ring none main "/a" loaded
    have succeeds := law.2.1
      (encloses.not_blocked List.mem_cons_self loaded (by decide +kernel))
      (fun chain simple => Nat.lt_trans (encloses.length_lt List.mem_cons_self loaded simple)
        (by decide))
    rcases succeeds with ⟨units, done⟩
    rcases law.1 units done with ⟨arranged, complete⟩
    exact ⟨main, units, loaded, done, arranged, complete steady⟩
  · have read : ∃ unit, ScriptUnit.load ring "/alone" = .ok unit ∧
        unit.header.imports = ["x"] := exists_load (by decide +kernel)
    rcases read with ⟨main, loaded, imports⟩
    have encloses : Encloses ring none ["/alone"] := by decide +kernel
    have steady : Steady ring none main :=
      encloses.steady List.mem_cons_self loaded (by decide +kernel)
    have blocked : Blocked ring none main := by
      refine ⟨"x", imports ▸ List.mem_cons_self, ?_⟩
      rintro next ⟨path, impossible, _⟩
      have lost : resolve? ring "x" (Path.parent? "/alone") none = none := by decide +kernel
      rw [folder_of_load loaded, lost] at impossible
      cases impossible
    rcases (load_follows_lines loaded).2.2 steady ⟨main, .refl, blocked⟩ with ⟨failure, fails⟩
    exact ⟨main, failure, loaded, fails⟩

/-- A script that imports a file by two paths.  By one of them the file finds another file than
by the other, and one file less. -/
def crossing : Disk :=
  ((((Disk.empty.addFile ["p", "main"] "import x\nimport sub/../x\n".toUTF8).addFile
    ["p", "x"] "import ../Y\nimport ../Z\n".toUTF8).addFile
    ["y"] ByteArray.empty).addFile
    ["z"] ByteArray.empty).addFile
    ["p", "sub", "z"] ByteArray.empty

theorem crossing_misses_file :
    ∃ main units, ScriptUnit.load crossing "/p/main" = .ok main ∧
      load crossing none main = .ok units ∧
      (∃ missed, Reaches crossing none main missed ∧
        place? crossing missed ∉ (main :: units).map (place? crossing)) ∧
      ∃ blocked, Reaches crossing none main blocked ∧ Blocked crossing none blocked := by
  have readMain : ∃ unit, ScriptUnit.load crossing "/p/main" = .ok unit ∧
      unit.header.imports = ["x", "sub/../x"] := exists_load (by decide +kernel)
  have readAgain : ∃ unit, ScriptUnit.load crossing "/p/sub/../x" = .ok unit ∧
      unit.header.imports = ["../Y", "../Z"] := exists_load (by decide +kernel)
  have readMissed : ∃ unit, ScriptUnit.load crossing "/p/sub/z" = .ok unit ∧
      unit.header.imports = [] := exists_load (by decide +kernel)
  rcases readMain with ⟨main, loaded, imports⟩
  rcases readAgain with ⟨again, loadedAgain, importsAgain⟩
  rcases readMissed with ⟨missed, loadedMissed, _⟩
  have second : "sub/../x" ∈ main.header.imports := by
    rw [imports]
    decide
  have last : "../Z" ∈ again.header.imports := by
    rw [importsAgain]
    decide
  have toAgain : Leads crossing none main again :=
    leads_of_load loaded second (by decide +kernel) loadedAgain
  have toMissed : Leads crossing none again missed :=
    leads_of_load loadedAgain last (by decide +kernel) loadedMissed
  have places : (((ScriptUnit.load crossing "/p/main").bind (load crossing none)).toOption.map
      (List.map (place? crossing))) = some [some ["y"], some ["z"], some ["p", "x"]] := by
    decide +kernel
  rw [loaded] at places
  rcases Option.map_eq_some_iff.mp places with ⟨units, done, placed⟩
  refine ⟨main, units, loaded, ok_of_toOption done, ⟨missed, .tail (.single toAgain) toMissed, ?_⟩,
    again, .single toAgain, "../Y", by rw [importsAgain]; decide, ?_⟩
  · rw [List.map_cons, placed, place_of_load loaded, place_of_load loadedMissed]
    decide +kernel
  · rintro next ⟨path, impossible, _⟩
    have lost : resolve? crossing "../Y" (Path.parent? "/p/sub/../x") none = none := by
      decide +kernel
    rw [folder_of_load loadedAgain, lost] at impossible
    cases impossible

end Imports
end EffectHost

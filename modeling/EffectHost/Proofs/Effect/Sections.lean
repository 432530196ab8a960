import EffectHost.Effect.Sections
import EffectHost.Proofs.Code.Programs

/-!
# Compiling all sections or none

Sections are compiled one after another, and the first one that fails takes the programs
of all others with it.  A run over some sections is described by the machines in between:
the programs that it added carry fresh numbers, and all others are as they were.  Giving
up the added ones therefore restores exactly the programs at the beginning.
-/

namespace EffectHost

open Code

/-- Every machine takes the code of the section. -/
def Section.Compiles (part : Section) (resolve : String → Option Cell) : Prop :=
  ∀ machine : Machine, ∃ id, (machine.compile part.text resolve).1 = .ok id

/-- Every machine finds the same fault in the code of the section. -/
def Section.FailsWith (part : Section) (resolve : String → Option Cell) (fault : Fault) :
    Prop :=
  ∀ machine : Machine, (machine.compile part.text resolve).1 = .error fault

theorem Section.compiles_iff (part : Section) (resolve : String → Option Cell) :
    part.Compiles resolve ↔ fault? part.text = none := by
  constructor
  · intro compiles
    rcases compiles {} with ⟨id, compiled⟩
    exact Machine.fault?_of_ok compiled
  · intro sound machine
    rw [Machine.compile_fst, sound]
    exact ⟨machine.code.nextProgram, rfl⟩

theorem Section.failsWith_iff (part : Section) (resolve : String → Option Cell)
    (fault : Fault) : part.FailsWith resolve fault ↔ fault? part.text = some fault := by
  constructor
  · intro fails
    exact Machine.fault?_of_error (fails {})
  · intro found machine
    rw [Machine.compile_fst, found]

/-- The code of some sections goes through a machine: one program for each of them, in
order, and the machine at the end. -/
inductive CompilesTo (resolve : String → Option Cell) :
    Machine → List Section → List Nat → Machine → Prop where
  | nil (machine : Machine) : CompilesTo resolve machine [] [] machine
  | cons {machine next last : Machine} {part : Section} {others : List Section} {id : Nat}
      {ids : List Nat} (first : machine.compile part.text resolve = (.ok id, next))
      (rest : CompilesTo resolve next others ids last) :
      CompilesTo resolve machine (part :: others) (id :: ids) last

namespace CompilesTo

variable {resolve : String → Option Cell} {machine last : Machine} {parts : List Section}
  {ids : List Nat}

theorem length_eq (run : CompilesTo resolve machine parts ids last) :
    ids.length = parts.length := by
  induction run with
  | nil => rfl
  | cons _ _ ih => rw [List.length_cons, List.length_cons, ih]

theorem compiles (run : CompilesTo resolve machine parts ids last) :
    ∀ part ∈ parts, part.Compiles resolve := by
  induction run with
  | nil => exact List.forall_mem_nil _
  | cons first _ ih =>
      exact List.forall_mem_cons.mpr ⟨(Section.compiles_iff _ resolve).mpr
        (Machine.fault?_of_ok (congrArg Prod.fst first)), ih⟩

/-- The numbers of the new programs were not in use, and are given out upwards. -/
theorem fresh (run : CompilesTo resolve machine parts ids last) :
    machine.code.nextProgram ≤ last.code.nextProgram ∧
      ∀ id ∈ ids, machine.code.nextProgram ≤ id ∧ id < last.code.nextProgram := by
  induction run with
  | nil => exact ⟨Nat.le_refl _, List.forall_mem_nil _⟩
  | cons first rest ih =>
      rcases Machine.compile_adds first with ⟨number, following, _⟩
      rcases ih with ⟨grown, later⟩
      refine ⟨by omega, List.forall_mem_cons.mpr ⟨by omega, ?_⟩⟩
      intro id member
      have bounds := later id member
      omega

theorem nodup (run : CompilesTo resolve machine parts ids last) : ids.Nodup := by
  induction run with
  | nil => exact List.nodup_nil
  | cons first rest ih =>
      rcases Machine.compile_adds first with ⟨_, following, _⟩
      refine List.nodup_cons.mpr ⟨?_, ih⟩
      intro again
      have bounds := rest.fresh.2 _ again
      omega

/-- Every other program is as it was. -/
theorem others_eq (run : CompilesTo resolve machine parts ids last) (id : Nat)
    (other : id ∉ ids) : last.code.programs[id]? = machine.code.programs[id]? := by
  induction run with
  | nil => rfl
  | @cons _ _ _ _ _ first _ _ _ ih =>
      rename_i compiled _
      rcases Machine.compile_adds compiled with ⟨_, _, program, added⟩
      have different := List.ne_of_not_mem_cons other
      rw [ih (List.not_mem_of_not_mem_cons other), added, Std.HashMap.getElem?_insert]
      simp [different.symm]

/-- The machine ends up with the programs that it had and the new ones. -/
theorem mem_programs (run : CompilesTo resolve machine parts ids last) (id : Nat) :
    id ∈ last.code.programs ↔ id ∈ machine.code.programs ∨ id ∈ ids := by
  induction run with
  | nil => simp
  | cons first _ ih =>
      rcases Machine.compile_adds first with ⟨_, _, program, added⟩
      rw [ih, added, Std.HashMap.mem_insert, beq_iff_eq, List.mem_cons]
      grind

/-- Each of the new programs is what compiling the section in its place gave, and compiling
the sections behind it did not touch it. -/
theorem program_eq (run : CompilesTo resolve machine parts ids last) (position : Nat)
    (part : Section) (id : Nat) (there : parts[position]? = some part)
    (number : ids[position]? = some id) :
    ∃ (before next : Machine) (program : Program),
      before.compile part.text resolve = (.ok id, next) ∧
      next.code.programs[id]? = some program ∧ last.code.programs[id]? = some program := by
  induction run generalizing position with
  | nil => cases there
  | @cons start next _ _ _ _ _ first rest ih =>
      cases position with
      | succ position => exact ih position there number
      | zero =>
          cases there
          cases number
          rcases Machine.compile_adds first with ⟨_, following, program, added⟩
          have here : next.code.programs[id]? = some program := by
            rw [added, Std.HashMap.getElem?_insert_self]
          refine ⟨start, next, program, first, here, ?_⟩
          rw [rest.others_eq, here]
          intro again
          have bounds := rest.fresh.2 id again
          omega

theorem numbered (run : CompilesTo resolve machine parts ids last)
    (numbered : machine.Numbered) : last.Numbered := by
  induction run with
  | nil => exact numbered
  | @cons start _ _ part _ _ _ first _ ih =>
      have here := numbered.compile part.text resolve
      rw [first] at here
      exact ih here

/-- Giving the new programs up restores the programs at the beginning. -/
theorem programs_freeAll (run : CompilesTo resolve machine parts ids last)
    (numbered : machine.Numbered) (id : Nat) :
    (last.freeAll ids).code.programs[id]? = machine.code.programs[id]? := by
  rw [Machine.programs_freeAll]
  by_cases added : id ∈ ids
  · rw [if_pos added]
    -- New numbers lie above all old ones, so that no old program is given up with them.
    symm
    apply Std.HashMap.getElem?_eq_none
    intro old
    have below := numbered id old
    have above := run.fresh.2 id added
    omega
  · rw [if_neg added]
    exact run.others_eq id added

end CompilesTo

namespace CompiledSections

variable {resolve : String → Option Cell} {machine last : Machine} {parts : List Section}
  {done : CompiledSections}

/-- Where all sections compile, their programs stand behind those that were there. -/
theorem compileAll_ok {sections : CompiledSections}
    (compiled : compileAll resolve parts done machine = (.ok sections, last)) :
    ∃ ids, CompilesTo resolve machine parts ids last ∧
      sections.programs = done.programs ++ (parts.map Section.kind).zip ids := by
  induction parts generalizing done machine with
  | nil =>
      cases compiled
      exact ⟨[], CompilesTo.nil _, (List.append_nil _).symm⟩
  | cons part others ih =>
      rw [compileAll] at compiled
      split at compiled
      · next id next first =>
          rcases ih compiled with ⟨ids, rest, programs⟩
          refine ⟨id :: ids, CompilesTo.cons first rest, ?_⟩
          rw [programs, List.append_assoc]
          rfl
      · cases compiled

/-- Where a section does not compile, those in front of it did, and all are given up. -/
theorem compileAll_error {failure : Failure}
    (failed : compileAll resolve parts done machine = (.error failure, last)) :
    ∃ (passed : List Section) (part : Section) (others : List Section) (ids : List Nat)
      (before next : Machine) (fault : Fault),
      parts = passed ++ part :: others ∧ CompilesTo resolve machine passed ids before ∧
        before.compile part.text resolve = (.error fault, next) ∧
        failure = failureOf part fault ∧ last = next.freeAll (done.ids ++ ids) := by
  induction parts generalizing done machine with
  | nil => cases failed
  | cons part others ih =>
      rw [compileAll] at failed
      split at failed
      · next id next first =>
          rcases ih failed with ⟨passed, culprit, behind, ids, before, after, fault, split,
            run, stopped, named, emptied⟩
          refine ⟨part :: passed, culprit, behind, id :: ids, before, after, fault, ?_,
            CompilesTo.cons first run, stopped, named, ?_⟩
          · rw [split]
            rfl
          · rw [emptied, CompiledSections.ids, List.map_append, List.append_assoc]
            rfl
      · next fault next stopped =>
          cases failed
          refine ⟨[], part, others, [], machine, next, fault, rfl, CompilesTo.nil machine,
            stopped, rfl, ?_⟩
          rw [List.append_nil]
          rfl

theorem samePrograms_prepare (script : LoadedScript) (machine : Machine) :
    Machine.SamePrograms machine (prepare script machine) :=
  ⟨rfl, rfl⟩

/-- A script that compiles: its sections went through the machine one after another. -/
theorem compile_ok {script : LoadedScript} {options : CompileOptions}
    {sections : CompiledSections}
    (compiled : compile resolve script options machine = (.ok sections, last)) :
    CompilesTo resolve (prepare script machine) (script.sectionsToCompile options)
        sections.ids last ∧
      sections.programs.map Prod.fst = (script.sectionsToCompile options).map Section.kind := by
  rcases compileAll_ok compiled with ⟨ids, run, programs⟩
  have sameLength : ((script.sectionsToCompile options).map Section.kind).length =
      ids.length := by
    rw [List.length_map, run.length_eq]
  change sections.programs = _ at programs
  rw [CompiledSections.ids, programs]
  change CompilesTo _ _ _ ((List.zip _ ids).map Prod.snd) last ∧ (List.zip _ ids).map Prod.fst = _
  rw [List.map_snd_zip (Nat.le_of_eq sameLength.symm),
    List.map_fst_zip (Nat.le_of_eq sameLength)]
  exact ⟨run, rfl⟩

/-- A script that does not compile: one of its sections is to blame, and the programs are
those that the machine had before. -/
theorem compile_error {script : LoadedScript} {options : CompileOptions} {failure : Failure}
    (numbered : machine.Numbered)
    (failed : compile resolve script options machine = (.error failure, last)) :
    (∃ (passed : List Section) (part : Section) (others : List Section) (fault : Fault),
      script.sectionsToCompile options = passed ++ part :: others ∧
        (∀ earlier ∈ passed, earlier.Compiles resolve) ∧ part.FailsWith resolve fault ∧
        failure = failureOf part fault) ∧
      last.Numbered ∧ ∀ id : Nat, last.code.programs[id]? = machine.code.programs[id]? := by
  rcases compileAll_error failed with ⟨passed, part, others, ids, before, next, fault, split,
    run, stopped, named, emptied⟩
  have prepared := numbered.of_samePrograms (samePrograms_prepare script machine)
  have same := Machine.samePrograms_compile stopped
  refine ⟨⟨passed, part, others, fault, split, run.compiles,
    (Section.failsWith_iff part resolve fault).mpr
      (Machine.fault?_of_error (congrArg Prod.fst stopped)), named⟩, ?_, ?_⟩
  · rw [emptied]
    exact ((run.numbered prepared).of_samePrograms same).freeAll _
  · intro id
    have restored := run.programs_freeAll prepared id
    rw [Machine.programs_freeAll] at restored
    rw [emptied, Machine.programs_freeAll, same.programs]
    exact restored

/-- The kinds of which one section is compiled. -/
theorem filter_includes (options : CompileOptions) :
    SectionKind.single.filter options.includes =
      [.slider, .block, .sample] ++ (if options.skipDrawing then [] else [.gfx]) ++
        if options.skipSerialize then [] else [.serialize] := by
  rcases options with ⟨skipDrawing, skipSerialize⟩
  cases skipDrawing <;> cases skipSerialize <;> rfl

/-- The sections to compile, unit by unit and kind by kind. -/
theorem sectionsToCompile_eq (main : ScriptUnit) (imports : List ScriptUnit)
    (bankPath? : Option String) (options : CompileOptions) :
    let kinds : List SectionKind :=
      [.slider, .block, .sample] ++ (if options.skipDrawing then [] else [.gfx]) ++
        if options.skipSerialize then [] else [.serialize]
    (LoadedScript.mk main imports bankPath?).sectionsToCompile options =
      imports.filterMap (fun unit => unit.section? .init) ++ (main.section? .init).toList ++
        kinds.filterMap fun kind =>
          (main :: imports).findSome? fun unit => unit.section? kind := by
  intro kinds
  have own : [main].filterMap (fun unit => unit.section? .init) =
      (main.section? .init).toList := by
    cases found : main.section? .init <;> simp [found]
  rw [LoadedScript.sectionsToCompile, LoadedScript.initSections, filter_includes,
    List.filterMap_append, own]
  rfl

/-- Compiling is all or nothing.  The sections that are selected are the init sections of
the imported units and then that of the main one, and of every other kind that is not left
out the section of the first unit that has one, the main unit first.  If all of them
compile, the result has a program for each of them in this order, and these are the only
programs that are new.  Otherwise the failure is that of the first one that does not
compile, and the programs are those that were there before. -/
theorem compile_all_or_nothing {machine : Machine} (reachable : machine.Reachable)
    (main : ScriptUnit) (imports : List ScriptUnit) (bankPath? : Option String)
    (options : CompileOptions) (resolve : String → Option Cell) :
    let kinds : List SectionKind :=
      [.slider, .block, .sample] ++ (if options.skipDrawing then [] else [.gfx]) ++
        if options.skipSerialize then [] else [.serialize]
    let selected : List Section :=
      imports.filterMap (fun unit => unit.section? .init) ++ (main.section? .init).toList ++
        kinds.filterMap fun kind => (main :: imports).findSome? fun unit => unit.section? kind
    let compiled := compile resolve ⟨main, imports, bankPath?⟩ options machine
    ((∃ sections, compiled.1 = .ok sections) ↔ ∀ part ∈ selected, part.Compiles resolve) ∧
    (∀ sections, compiled.1 = .ok sections →
      sections.programs.map Prod.fst = selected.map Section.kind ∧ sections.ids.Nodup ∧
      (∀ id ∈ sections.ids, id ∉ machine.code.programs) ∧
      (∀ id ∉ sections.ids,
        compiled.2.code.programs[id]? = machine.code.programs[id]?) ∧
      ∀ (position : Nat) (part : Section) (id : Nat), selected[position]? = some part →
        sections.ids[position]? = some id →
        ∃ (before next : Machine) (program : Program),
          before.compile part.text resolve = (.ok id, next) ∧
          next.code.programs[id]? = some program ∧
          compiled.2.code.programs[id]? = some program) ∧
    ∀ failure, compiled.1 = .error failure →
      (∃ (passed : List Section) (part : Section) (others : List Section) (fault : Fault),
        selected = passed ++ part :: others ∧
          (∀ earlier ∈ passed, earlier.Compiles resolve) ∧ part.FailsWith resolve fault ∧
          failure = failureOf part fault) ∧
      ∀ id : Nat, compiled.2.code.programs[id]? = machine.code.programs[id]? := by
  intro kinds selected compiled
  have selection : (LoadedScript.mk main imports bankPath?).sectionsToCompile options =
      selected := sectionsToCompile_eq main imports bankPath? options
  have numbered := reachable.numbered
  cases answer : compile resolve ⟨main, imports, bankPath?⟩ options machine with
  | mk result last =>
      have answered : compiled = (result, last) := answer
      rw [answered]
      cases result with
      | ok sections =>
          rcases compile_ok answer with ⟨run, kindsKept⟩
          rw [selection] at run kindsKept
          refine ⟨?_, ?_, ?_⟩
          · exact iff_of_true ⟨sections, rfl⟩ run.compiles
          · intro same named
            cases named
            refine ⟨kindsKept, run.nodup, ?_, run.others_eq, run.program_eq⟩
            intro id added old
            have below := numbered id old
            have above := (run.fresh.2 id added).1
            exact Nat.not_lt_of_le above below
          · intro failure failed
            cases failed
      | error failure =>
          rcases compile_error numbered answer with ⟨culprit, _, restored⟩
          rw [selection] at culprit
          refine ⟨?_, ?_, ?_⟩
          · apply iff_of_false
            · rintro ⟨sections, compiles⟩
              cases compiles
            · intro all
              rcases culprit with ⟨passed, part, others, fault, split, _, fails, _⟩
              have here : part ∈ selected := by
                rw [split]
                exact List.mem_append_right passed List.mem_cons_self
              have faultless := (Section.compiles_iff part resolve).mp (all part here)
              rw [(Section.failsWith_iff part resolve fault).mp fails] at faultless
              cases faultless
          · intro sections succeeded
            cases succeeded
          · intro same named
            cases named
            exact ⟨culprit, restored⟩

/-- A machine that has a program already.  The init section of an imported unit compiles, and
its program is given up again since the sample section of the main unit does not. -/
theorem compile_all_or_nothing_sample :
    let before := (({} : Machine).compile "a = b;" fun _ => none).2
    let imported : ScriptUnit := { sections := [⟨.init, 1, "b = c;", 0, 0⟩] }
    let main : ScriptUnit := { sections := [⟨.sample, 3, "c = $;", 0, 0⟩] }
    let compiled := compile (fun _ => none) ⟨main, [imported], none⟩ {} before
    (∃ failure, compiled.1 = .error failure) ∧
      ∀ id : Nat, compiled.2.code.programs[id]? = before.code.programs[id]? := by
  intro before imported main compiled
  have law := compile_all_or_nothing (Machine.Reachable.compile "a = b;" (fun _ => none) .new)
    main [imported] none {} fun _ => none
  cases answer : compiled.1 with
  | error failure => exact ⟨⟨failure, rfl⟩, (law.2.2 failure answer).2⟩
  | ok sections =>
      have faultless := law.1.mp ⟨sections, answer⟩ ⟨.sample, 3, "c = $;", 0, 0⟩
        (List.mem_cons_of_mem _ List.mem_cons_self)
      rw [Section.compiles_iff] at faultless
      have faulty : (fault? "c = $;").isSome = true := by decide +kernel
      rw [faultless] at faulty
      cases faulty

end CompiledSections
end EffectHost

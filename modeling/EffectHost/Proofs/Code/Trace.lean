import EffectHost.Proofs.Code.Mirror
import EffectHost.Proofs.Code.Run

/-!
# The calls that code makes

A host that notes every call before it answers runs code as the host that it watches does.
What it has noted in the end is the list of calls that the code makes, each with the state in
which it is made.
-/

namespace EffectHost

open Code

/-- A call of a host function. -/
structure TracedCall (σ : Type) where
  name : String
  args : List Arg
  /-- What the function finds. -/
  state : Store × σ

namespace CodeHost

variable {σ : Type}

/-- The host that notes the calls of another. -/
def recorded (host : CodeHost σ) : CodeHost (σ × List (TracedCall σ)) where
  call name args state :=
    let found := (state.1, state.2.1)
    let done := host.call name args found
    (done.1, done.2.1, done.2.2, state.2.2 ++ [⟨name, args, found⟩])

/-- Noting calls changes nothing else. -/
theorem mirrors_recorded (host : CodeHost σ) :
    host.recorded.Mirrors host (fun _ => True) id
      fun one two => two = (one.1, one.2.1) where
  get := by
    rintro one _ cell rfl _
    rfl
  readItem := by
    rintro one _ position rfl
    rfl
  set := by
    rintro one _ cell value rfl _
    rfl
  writeItem := by
    rintro one _ position value rfl
    rfl
  call := by
    rintro one _ name args rfl _
    have same : args.map (Arg.rename id) = args := by
      refine (List.map_congr_left fun arg _ => ?_).trans (List.map_id args)
      rw [Arg.rename, Option.map_id]
      rfl
    rw [same]
    exact ⟨rfl, rfl⟩

end CodeHost

namespace Code

variable {σ : Type} {host : CodeHost σ}

/-- The calls that a program makes. -/
def calls (host : CodeHost σ) (program : Program) (state : Store × σ) : List (TracedCall σ) :=
  (run host.recorded program (state.1, state.2, [])).2.2

/-- A recorded run is the run. -/
theorem run_recorded (host : CodeHost σ) (program : Program) (store : Store) (outer : σ)
    (past : List (TracedCall σ)) :
    run host program (store, outer) =
      ((run host.recorded program (store, outer, past)).1,
        (run host.recorded program (store, outer, past)).2.1) := by
  have same : (fun one two => two = (one.1, one.2.1)) (store, outer, past) (store, outer) := rfl
  have within : program.Within fun _ => True := fun _ _ => trivial
  have ran := run_mirrors host.mirrors_recorded within same
  rwa [Program.rename, relabelAll_id] at ran

/-- What holds at first and is preserved by noting each call holds in the end, of what the host
keeps and of the calls together. -/
theorem calls_preserves (host : CodeHost σ) (holds : σ → List (TracedCall σ) → Prop)
    (call : ∀ (name : String) (args : List Arg) (state : Store × σ) (past : List (TracedCall σ)),
      holds state.2 past →
        holds (host.call name args state).2.2 (past ++ [⟨name, args, state⟩]))
    (program : Program) (state : Store × σ) (before : holds state.2 []) :
    holds (run host program state).2 (calls host program state) := by
  have preserves : host.recorded.Preserves fun state => holds state.2.1 state.2.2 :=
    ⟨fun _ _ _ _ before => before, fun _ _ _ _ before => before,
      fun name args state => call name args (state.1, state.2.1) state.2.2⟩
  have ran := run_preserves preserves program (state.1, state.2, []) before
  rw [run_recorded host program state.1 state.2 []]
  exact ran

end Code
end EffectHost

import EffectHost.Effect.Painting

/-!
# Calls from the wrong role

Sending and receiving MIDI belongs to the audio role, and the keyboard and all that draws to
the drawing role.  Every one of these functions asks who is calling before it changes anything,
so that a misplaced call is a step that stands still: its value is zero, and the store, the
surroundings and the rig, with the surface in it, are what they were.  A sequence of calls by any
callers therefore goes on as if its misplaced calls had not been made.
-/

namespace EffectHost

/-! ## Where a function belongs -/

namespace HostFunction

/-- The role to which a function belongs; none if any role may call it. -/
def role? : HostFunction → Option Role
  | .midiSend | .midiSendMemory | .midiSendText | .midiSendExclusive
  | .midiReceive | .midiReceiveMemory | .midiReceiveText => some .audio
  | .nextKey => some .drawing
  | _ => none

/-- The names of the functions on MIDI. -/
def midiNames : List String :=
  ["midisend", "midisend_buf", "midisend_str", "midisyx", "midirecv", "midirecv_buf",
    "midirecv_str"]

/-- The role to which a name belongs: MIDI to the audio role, and what begins like a drawing
function to the drawing role. -/
def roleOfName? (name : String) : Option Role :=
  if name ∈ midiNames then some .audio
  else if isDrawingName name then some .drawing
  else none

theorem mem_named_of_ofName? {name : String} {function : HostFunction}
    (found : ofName? name = some function) : (function, name) ∈ named := by
  rcases Option.map_eq_some_iff.mp found with ⟨entry, first, rfl⟩
  have same : entry.2 = name := by simpa using List.find?_some first
  rw [← same]
  exact List.mem_of_find?_eq_some first

/-- The role of a function can be told from its name. -/
theorem role?_of_ofName? {name : String} {function : HostFunction}
    (found : ofName? name = some function) : function.role? = roleOfName? name := by
  have each : ∀ entry ∈ named, entry.1.role? = roleOfName? entry.2 := by decide
  exact each (function, name) (mem_named_of_ofName? found)

/-- A name that is that of no function belongs to no role, unless it is a drawing name. -/
theorem roleOfName?_of_unknown {name : String} (unknown : ofName? name = none) :
    roleOfName? name = if isDrawingName name then some .drawing else none := by
  have each : ∀ other ∈ midiNames, ofName? other ≠ none := by decide
  exact if_neg fun member => each name member unknown

/-! ## Functions stand still -/

theorem send_of_role_ne {caller : Caller} (other : caller.role ≠ .audio)
    (sender : Store → MidiLog → List Arg → Float × MidiLog) (args : List Arg)
    (state : State) : send caller sender args state = (0.0, state) := by
  rw [send, Caller.mayUseMidi, decide_eq_false other, Bool.false_and]
  rfl

theorem receive_of_role_ne {caller : Caller} (other : caller.role ≠ .audio)
    (accept? : Option MidiFunctions.Acceptance) (state : State) :
    receive caller accept? state = (0.0, state) := by
  cases accept? with
  | none => rfl
  | some accept =>
      rw [receive, Caller.mayUseMidi, decide_eq_false other, Bool.false_and]
      rfl

theorem key_of_role_ne {caller : Caller} (other : caller.role ≠ .drawing) (args : List Arg)
    (state : State) : key caller args state = (0.0, state) := by
  rw [key, Caller.mayUseKeyboard, decide_eq_false other, Bool.false_and]
  rfl

/-- A function that belongs to another role than its caller does nothing. -/
theorem run_of_role_ne {function : HostFunction} {role : Role}
    (belongs : function.role? = some role) {caller : Caller} (other : caller.role ≠ role)
    (facts : Facts) (args : List Arg) (state : State) :
    function.run facts caller args state = (0.0, state) := by
  cases function with
  | midiSend | midiSendMemory | midiSendText | midiSendExclusive =>
      cases belongs
      exact send_of_role_ne other _ args state
  | midiReceive =>
      cases belongs
      exact receive_of_role_ne other (some (MidiFunctions.acceptShort args)) state
  | midiReceiveMemory =>
      cases belongs
      exact receive_of_role_ne other (MidiFunctions.memoryAcceptance? args) state
  | midiReceiveText =>
      cases belongs
      exact receive_of_role_ne other
        (some (MidiFunctions.acceptText args (argValue args 1))) state
  | nextKey =>
      cases belongs
      exact key_of_role_ne other args state
  | sliderChange | sliderAutomate | sliderShow | fileOpen | fileClose | fileRewind
  | fileValue | fileBlock | fileAvailable | fileAudioShape | fileIsText | fileString =>
      cases belongs

end HostFunction

/-! ## Calls in a row -/

variable {σ : Type}

/-- A call of a function by name, with all that its caller brings along. -/
structure HostCall (σ : Type) where
  facts : Facts
  caller : Caller
  /-- How to paint, if the caller has something to paint on. -/
  painter? : Option (Painter σ)
  name : String
  args : List Arg

namespace HostCall

/-- The function belongs to another role than that of its caller. -/
def Misplaced (call : HostCall σ) : Prop :=
  ∃ role, HostFunction.roleOfName? call.name = some role ∧ call.caller.role ≠ role

/-- Call the function: its value, if there is such a function, and the effect afterwards. -/
def perform (call : HostCall σ) (effect : Effect σ) : Option Float × Effect σ :=
  let done := (Effect.scriptHost call.facts call.caller call.painter?).call call.name call.args
    (effect.store, effect.around, effect.rig)
  (done.1, ⟨done.2.1, done.2.2.1, done.2.2.2⟩)

/-- Call functions one after another. -/
def performAll : List (HostCall σ) → Effect σ → List (Option Float) × Effect σ
  | [], effect => ([], effect)
  | call :: others, effect =>
    let done := call.perform effect
    let rest := performAll others done.2
    (done.1 :: rest.1, rest.2)

/-- A misplaced call stands still. -/
theorem perform_of_misplaced {call : HostCall σ} (misplaced : call.Misplaced)
    (effect : Effect σ) : call.perform effect = (some 0.0, effect) := by
  rcases misplaced with ⟨role, belongs, other⟩
  rw [perform, Effect.scriptHost]
  dsimp only
  cases found : HostFunction.ofName? call.name with
  | some function =>
      have own : function.role? = some role := (HostFunction.role?_of_ofName? found).trans belongs
      dsimp only
      rw [HostFunction.run_of_role_ne own other]
  | none =>
      -- Only drawing names are left, and these are the business of the drawing role.
      rw [HostFunction.roleOfName?_of_unknown found] at belongs
      split at belongs
      · next drawing =>
          cases belongs
          simp only [drawing, if_true, if_neg other]
      · cases belongs

theorem performAll_append (first second : List (HostCall σ)) (effect : Effect σ) :
    performAll (first ++ second) effect =
      ((performAll first effect).1 ++ (performAll second (performAll first effect).2).1,
        (performAll second (performAll first effect).2).2) := by
  induction first generalizing effect with
  | nil => rfl
  | cons call others ih => simp only [List.cons_append, performAll, ih]

theorem performAll_of_misplaced {calls : List (HostCall σ)}
    (misplaced : ∀ call ∈ calls, call.Misplaced) (effect : Effect σ) :
    performAll calls effect = (List.replicate calls.length (some 0.0), effect) := by
  induction calls with
  | nil => rfl
  | cons call others ih =>
      rw [List.forall_mem_cons] at misplaced
      rw [performAll, perform_of_misplaced misplaced.1, ih misplaced.2]
      rfl

/-- Whoever calls what, with whatever arguments: the value of a misplaced call is zero, and the
calls behind it find everything as if it had not been made, so that all other values and the
effect at the end stay the same without it.  A sequence of nothing but misplaced calls leaves
the whole effect as it is: both MIDI logs and their cursors, the waiting keys, the surface, all
variables, memory and strings. -/
theorem misplaced_calls_stand_still (effect : Effect σ) :
    (∀ (before after : List (HostCall σ)) (call : HostCall σ), call.Misplaced →
      let begun := performAll before effect
      let ended := performAll after begun.2
      performAll (before ++ call :: after) effect = (begun.1 ++ some 0.0 :: ended.1, ended.2) ∧
        performAll (before ++ after) effect = (begun.1 ++ ended.1, ended.2)) ∧
    ∀ calls : List (HostCall σ), (∀ call ∈ calls, call.Misplaced) →
      performAll calls effect = (List.replicate calls.length (some 0.0), effect) := by
  refine ⟨?_, fun calls misplaced => performAll_of_misplaced misplaced effect⟩
  intro before after call misplaced begun ended
  refine ⟨?_, performAll_append before after effect⟩
  rw [performAll_append, performAll, perform_of_misplaced misplaced]

/-- Between two messages sent from the audio role, the drawing role tries to send one and the
audio role to paint.  The two messages are logged, and nothing has been painted. -/
theorem misplaced_calls_stand_still_between :
    let painter : Painter Nat :=
      { size := fun _ => (4, 3), scale := fun _ => 1.0, reset := fun _ => 0
        call := fun _ _ effect => (1.0, effect.attach 1)
        takeDirty := fun surface => (true, surface) }
    let call (role : Role) (name : String) : HostCall Nat :=
      { facts := {}, caller := ⟨role, true, true⟩, painter? := some painter
        name := name, args := [⟨0.0, none⟩, ⟨144.0, none⟩, ⟨60.0, none⟩, ⟨1.0, none⟩] }
    let sent := call .audio "midisend"
    let effect : Effect Nat := (Effect.new Disk.empty {}).attach 0
    (call .drawing "midisend").Misplaced ∧ (call .audio "gfx_rect").Misplaced ∧
      (performAll [sent, call .drawing "midisend", sent] effect).1 =
        [some 144.0, some 0.0, some 144.0] ∧
      performAll [call .audio "gfx_rect", call .drawing "midisend"] effect =
        ([some 0.0, some 0.0], effect) := by
  intro painter call sent effect
  have sending : (call .drawing "midisend").Misplaced := ⟨.audio, by decide, by decide⟩
  have painting : (call .audio "gfx_rect").Misplaced := ⟨.drawing, by decide, by decide⟩
  have law := misplaced_calls_stand_still effect
  refine ⟨sending, painting, ?_, ?_⟩
  · have stood := (law.1 [sent] [sent] (call .drawing "midisend") sending).1
    refine (congrArg Prod.fst stood).trans ?_
    decide +kernel
  · exact law.2 [call .audio "gfx_rect", call .drawing "midisend"] (by simp [sending, painting])

end HostCall
end EffectHost

import EffectHost.Effect.Basic

/-!
# Drawing passes

A drawing pass runs the drawing section of the script on a surface that the host
attaches.  The first pass, and every pass after a new start was asked for, sets up the
drawing variables, the mouse and the keyboard afresh.  While a pass goes on, the machine
is in use.
-/

namespace EffectHost

/-- How to paint on surfaces of a kind. -/
structure Painter (σ : Type) where
  /-- Width and height in points. -/
  size : σ → Nat × Nat
  /-- Pixels for each point. -/
  scale : σ → Float
  /-- Forget what belongs to an earlier script. -/
  reset : σ → σ
  /-- Run a drawing function for an effect that is in the middle of a pass on its
  surface. -/
  call : String → List Arg → Effect σ → Float × Effect σ
  /-- Whether something was painted since the last time this was asked. -/
  takeDirty : σ → Bool × σ

namespace Effect

variable {σ : Type}

/-! ## Keyboard and mouse -/

/-- Tell a key press or release.  Before the first pass nobody listens. -/
def setKey (effect : Effect σ) (key : Nat) (pressed : Bool) : Effect σ :=
  if effect.rig.drawing.isReady && key != 0 then
    let keyboard := effect.around.keyboard
    { effect with
      around := { effect.around with
        keyboard := if pressed then keyboard.press key else keyboard.release key } }
  else effect

/-- The bits by which scripts know held modifier keys and mouse buttons, each with the bit
by which the host does. -/
def modifierBits : List (Nat × Nat) :=
  [(1, 8), (2, 4), (4, 16), (8, 32)]

@[inherit_doc modifierBits]
def buttonBits : List (Nat × Nat) :=
  [(1, 1), (2, 64), (4, 2)]

/-- Translate a set of bits. -/
def translateBits (table : List (Nat × Nat)) (held : Nat) : Nat :=
  table.foldl (fun total (here, there) =>
    if held &&& here != 0 then total + there else total) 0

/-- What the wheel adds to its variable for each step. -/
def wheelStep : Float := 120.0

/-- Tell the mouse. -/
def setMouse (effect : Effect σ) (modifiers : Nat) (x y : Int) (buttons : Nat)
    (wheel sideWheel : Float) : Effect σ :=
  if effect.rig.drawing.isReady then
    let store := effect.store
    { effect with
      store := store.writeAll
        [ (.mouseX, Float.ofInt x), (.mouseY, Float.ofInt y),
          (.mouseWheel, store.read .mouseWheel + wheelStep * wheel),
          (.mouseSideWheel, store.read .mouseSideWheel + wheelStep * sideWheel),
          (.mouseButtons, Float.ofNat
            (translateBits modifierBits modifiers + translateBits buttonBits buttons)) ] }
  else effect

/-! ## Passes -/

/-- Attach a surface.  The next pass begins afresh on it. -/
def attach (effect : Effect σ) (surface : σ) : Effect σ :=
  effect.updateDrawing fun drawing =>
    { drawing with surface? := some surface, isReady := false, initRequested := true }

/-- The drawing and mouse variables at the beginning of a fresh pass. -/
def freshValues : List (HostVariable × Float) :=
  [ (.gfxRed, 1.0), (.gfxGreen, 1.0), (.gfxBlue, 1.0), (.gfxAlpha, 1.0), (.gfxAlpha2, 1.0),
    (.gfxWidth, 0.0), (.gfxHeight, 0.0), (.gfxX, 0.0), (.gfxY, 0.0), (.gfxMode, 0.0),
    (.gfxTextHeight, 0.0), (.gfxDestination, -1.0), (.gfxClear, 0.0), (.gfxRetina, 0.0),
    (.mouseWheel, 0.0), (.mouseSideWheel, 0.0), (.mouseButtons, 0.0) ]

/-- Begin afresh on a surface. -/
def setUpDrawing (effect : Effect σ) (painter : Painter σ) (surface : σ) : Effect σ where
  store := effect.store.writeAll freshValues
  around := { effect.around with keyboard := {} }
  rig := { effect.rig with
    drawing := { effect.rig.drawing with
      surface? := some (painter.reset surface)
      isReady := true
      initRequested := false } }

/-- Begin afresh if that is due. -/
def setUpDueDrawing (effect : Effect σ) (painter : Painter σ) (surface : σ) : Effect σ :=
  let drawing := effect.rig.drawing
  if drawing.initRequested || !drawing.isReady then effect.setUpDrawing painter surface
  else effect

/-- The size of a surface as the script sees it. -/
def sizeValues (painter : Painter σ) (wantsRetina : Bool) (surface : σ) :
    List (HostVariable × Float) :=
  let size := painter.size surface
  let width := Float.ofNat size.1
  let height := Float.ofNat size.2
  let scale := if wantsRetina then painter.scale surface else 1.0
  if 1.0 < scale then
    [(.gfxRetina, scale), (.gfxWidth, width * scale), (.gfxHeight, height * scale)]
  else [(.gfxWidth, width), (.gfxHeight, height)]

/-- The caller of code in a drawing pass. -/
def drawingCaller : Caller where
  role := .drawing
  hasKeyboard := true

/-- Who runs code for a caller that may have something to paint with.  Drawing functions
belong to the drawing role; for any other caller, and without a painter, they do nothing. -/
def scriptHost (facts : Facts) (caller : Caller) (painter? : Option (Painter σ)) :
    CodeHost (Surroundings × Rig σ) where
  call name args state :=
    let (store, around, rig) := state
    match HostFunction.ofName? name with
    | some function =>
      let (result, store, around) := function.run facts caller args (store, around)
      (some result, store, around, rig)
    | none =>
      if HostFunction.isDrawingName name then
        match if caller.role = .drawing then painter? else none with
        | some painter =>
          let (result, effect) := painter.call name args ⟨store, around, rig⟩
          (some result, effect.store, effect.around, effect.rig)
        | none => (some 0.0, store, around, rig)
      else (none, store, around, rig)

/-- Who runs code that draws. -/
def drawingHost (facts : Facts) (painter : Painter σ) : CodeHost (Surroundings × Rig σ) :=
  scriptHost facts drawingCaller (some painter)

/-- In a drawing pass every drawing function goes to the painter. -/
theorem drawingHost_call (facts : Facts) (painter : Painter σ) (name : String)
    (args : List Arg) (store : Store) (around : Surroundings) (rig : Rig σ) :
    (drawingHost facts painter).call name args (store, around, rig) =
      match HostFunction.ofName? name with
      | some function =>
        let done := function.run facts drawingCaller args (store, around)
        (some done.1, done.2.1, done.2.2, rig)
      | none =>
        if HostFunction.isDrawingName name then
          let done := painter.call name args ⟨store, around, rig⟩
          (some done.1, done.2.store, done.2.around, done.2.rig)
        else (none, store, around, rig) :=
  rfl

/-- A caller with nothing to paint with calls functions as code in a cycle does. -/
theorem scriptHost_none_call (facts : Facts) (caller : Caller) (name : String)
    (args : List Arg) (store : Store) (around : Surroundings) (rig : Rig σ) :
    (scriptHost facts caller none).call name args (store, around, rig) =
      let done := HostFunction.call facts caller name args (store, around)
      (done.1, done.2.1, done.2.2, rig) := by
  simp only [scriptHost, HostFunction.call, ite_self]
  cases HostFunction.ofName? name with
  | some function => rfl
  | none =>
    dsimp only
    split <;> rfl

/-- Mark the machine as in use, or as free. -/
def setBusy (effect : Effect σ) (busy : Bool) : Effect σ :=
  effect.updateDrawing fun drawing => { drawing with isBusy := busy }

/-- Run a program that draws. -/
def runDrawing (effect : Effect σ) (painter : Painter σ) (program : Program) : Effect σ :=
  let busy := effect.setBusy true
  let (store, around, rig) := Code.run (drawingHost effect.facts painter) program
    (busy.store, busy.around, busy.rig)
  setBusy ⟨store, around, rig⟩ false

/-- Ask whether something was painted. -/
def takeDirty (effect : Effect σ) (painter : Painter σ) : Bool × Effect σ :=
  match effect.rig.drawing.surface? with
  | some surface =>
    let asked := painter.takeDirty surface
    (asked.1, effect.updateDrawing fun drawing => { drawing with surface? := some asked.2 })
  | none => (false, effect)

/-- Tell the script the size of the surface. -/
def tellSize (effect : Effect σ) (painter : Painter σ) (surface : σ) : Effect σ :=
  { effect with
    store := effect.store.writeAll
      (sizeValues painter effect.rig.drawing.wantsRetina surface) }

/-- Run one drawing pass, if there is something to run and something to paint on.  The
result tells whether the surface changed. -/
def runPass (effect : Effect σ) (painter : Painter σ) : Bool × Effect σ :=
  match effect.program? .gfx, effect.rig.drawing.surface? with
  | some program, some surface =>
    let ready := effect.setUpDueDrawing painter surface
    let current := ready.rig.drawing.surface?.getD surface
    ((ready.tellSize painter current).runDrawing painter program).takeDirty painter
  | _, _ => (false, effect)

/-- Run one drawing pass, if what there is to know of the script is at hand. -/
def draw (effect : Effect σ) (painter : Painter σ) : Bool × Effect σ :=
  if effect.hasInfo then effect.runPass painter else (false, effect)

end Effect
end EffectHost

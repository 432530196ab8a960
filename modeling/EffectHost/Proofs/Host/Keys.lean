import EffectHost.Host.Function
import Mathlib.Data.List.Basic

/-!
# What the keyboard remembers

The keyboard remembers which presses wait and which keys are down, and forgets all else.  A
ledger keeps everything that was told of keys since drawing began afresh, and what became of each
press: it waits, it was taken by the script, or it had to make room for a later one.  The keyboard
is what the ledger says: at the front of the presses some are gone, and the others are those that
wait; and a key is down if the last that was told of it is a press.
-/

namespace EffectHost

/-! ## Presses and what becomes of them -/

/-- What became of a press. -/
inductive KeyPress.Fate where
  | waits
  /-- The script took it. -/
  | taken
  /-- It made room for a later one. -/
  | displaced
deriving DecidableEq

/-- A press of a key. -/
structure KeyPress where
  key : Nat
  fate : KeyPress.Fate := .waits
deriving DecidableEq

namespace KeyPress

variable {presses : List KeyPress} {keys : List Nat} {key : Nat} {fate : Fate}

/-- The keys of the presses that wait, in the order in which they were pressed. -/
def waiting (presses : List KeyPress) : List Nat :=
  (presses.filter fun press => press.fate = .waits).map KeyPress.key

/-- Decide about the oldest press that waits. -/
def settleOldest (fate : Fate) : List KeyPress → List KeyPress
  | [] => []
  | press :: others =>
    if press.fate = .waits then { press with fate := fate } :: others
    else press :: settleOldest fate others

/-- If 32 presses wait, the oldest of them makes room for another one. -/
def makeRoom (presses : List KeyPress) : List KeyPress :=
  if (waiting presses).length = 32 then settleOldest .displaced presses else presses

/-- Some presses at the front are gone, and those behind them, of these keys, wait. -/
def Queue (presses : List KeyPress) (keys : List Nat) : Prop :=
  ∃ gone, presses = gone ++ keys.map (KeyPress.mk · .waits) ∧ ∀ press ∈ gone, press.fate ≠ .waits

theorem waiting_of_gone {gone : List KeyPress} (settled : ∀ press ∈ gone, press.fate ≠ .waits)
    (keys : List Nat) : waiting (gone ++ keys.map (KeyPress.mk · .waits)) = keys := by
  have none : gone.filter (fun press => press.fate = .waits) = [] :=
    List.filter_eq_nil_iff.mpr fun press member => by simpa using settled press member
  have all : (keys.map (KeyPress.mk · .waits)).filter (fun press => press.fate = .waits) =
      keys.map (KeyPress.mk · .waits) :=
    List.filter_eq_self.mpr (by simp)
  rw [waiting, List.filter_append, none, all, List.nil_append, List.map_map]
  exact List.map_id keys

theorem settleOldest_append {gone : List KeyPress}
    (settled : ∀ press ∈ gone, press.fate ≠ .waits) (others : List KeyPress) :
    settleOldest fate (gone ++ others) = gone ++ settleOldest fate others := by
  induction gone with
  | nil => rfl
  | cons press gone ih =>
      rcases List.forall_mem_cons.mp settled with ⟨first, rest⟩
      rw [List.cons_append, settleOldest, if_neg first, ih rest, List.cons_append]

/-- Whatever becomes of a press, its key is the same. -/
theorem map_key_settleOldest (fate : Fate) (presses : List KeyPress) :
    (settleOldest fate presses).map KeyPress.key = presses.map KeyPress.key := by
  induction presses with
  | nil => rfl
  | cons press others ih =>
      rw [settleOldest]
      split
      · rfl
      · rw [List.map_cons, List.map_cons, ih]

theorem map_key_makeRoom (presses : List KeyPress) :
    (makeRoom presses).map KeyPress.key = presses.map KeyPress.key := by
  rw [makeRoom]
  split
  · exact map_key_settleOldest .displaced presses
  · rfl

namespace Queue

theorem nil : Queue [] [] :=
  ⟨[], rfl, List.forall_mem_nil _⟩

theorem waiting_eq (queue : Queue presses keys) : waiting presses = keys := by
  rcases queue with ⟨gone, rfl, settled⟩
  exact waiting_of_gone settled keys

/-- A new press waits behind the others. -/
theorem concat (queue : Queue presses keys) (key : Nat) :
    Queue (presses ++ [⟨key, .waits⟩]) (keys ++ [key]) := by
  rcases queue with ⟨gone, rfl, settled⟩
  refine ⟨gone, ?_, settled⟩
  rw [List.map_append, List.append_assoc]
  rfl

/-- What is decided about the oldest press takes it out of the queue. -/
theorem settle (queue : Queue presses (key :: keys)) (decided : fate ≠ .waits) :
    Queue (settleOldest fate presses) keys := by
  rcases queue with ⟨gone, rfl, settled⟩
  refine ⟨gone ++ [⟨key, fate⟩], ?_, ?_⟩
  · rw [settleOldest_append settled, List.append_assoc]
    rfl
  · exact List.forall_mem_append.mpr ⟨settled, List.forall_mem_singleton.mpr decided⟩

/-- Without a press that waits there is nothing to decide about. -/
theorem settle_nil (queue : Queue presses []) (fate : Fate) :
    settleOldest fate presses = presses := by
  rcases queue with ⟨gone, rfl, settled⟩
  exact settleOldest_append settled []

/-- The oldest press leaves a queue that is full, and none leaves any other. -/
theorem makeRoom (queue : Queue presses keys) (fits : keys.length ≤ maxWaitingKeys) :
    Queue (makeRoom presses) (keys.drop (keys.length + 1 - maxWaitingKeys)) := by
  rw [KeyPress.makeRoom, queue.waiting_eq]
  split
  · next full =>
      rw [full, show 32 + 1 - maxWaitingKeys = 1 from rfl]
      cases keys with
      | nil => cases full
      | cons oldest others => exact queue.settle nofun
  · next room =>
      have none : keys.length + 1 - maxWaitingKeys = 0 := by
        rw [maxWaitingKeys] at fits ⊢
        omega
      rwa [none, List.drop_zero]

end Queue
end KeyPress

/-! ## Keys that are down -/

namespace Keyboard

theorem isDown_press (keyboard : Keyboard) (key other : Nat) :
    (keyboard.press key).isDown other = true ↔ key = other ∨ keyboard.isDown other = true := by
  simp only [isDown, press, List.contains_iff_mem]
  split
  · next already => exact ⟨.inr, fun down => down.elim (fun same => same ▸ already) id⟩
  · rw [List.mem_cons, eq_comm]

theorem isDown_release (keyboard : Keyboard) (key other : Nat) :
    (keyboard.release key).isDown other = true ↔ key ≠ other ∧ keyboard.isDown other = true := by
  simp only [isDown, release, List.contains_iff_mem, List.mem_filter, bne_iff_ne]
  rw [and_comm, ne_comm]

/-- Taking a press does not lift the key. -/
theorem next_eq (keyboard : Keyboard) :
    keyboard.next =
      (keyboard.waiting.headD 0, { keyboard with waiting := keyboard.waiting.tail }) := by
  rw [next]
  split
  · next key others keys => rw [keys, List.headD_cons, List.tail_cons]
  · next empty =>
      rw [empty, List.headD_nil, List.tail_nil, ← empty]

end Keyboard

/-! ## The ledger -/

/-- Something that happens to the keyboard. -/
inductive KeyEvent where
  /-- The host tells that a key goes down or up. -/
  | told (key : Nat) (pressed : Bool)
  /-- The script asks for a press, or after a key.  It finds a keyboard and gets an answer. -/
  | asked (found : Keyboard) (wanted answer : Float)
  /-- Drawing begins afresh. -/
  | reset
  /-- Nobody listens until drawing begins afresh. -/
  | closed
deriving DecidableEq

/-- What there is to know of keys since drawing began afresh. -/
structure KeyLedger where
  /-- Somebody listens. -/
  listens : Bool := false
  /-- What was told while somebody listened: which keys went down, and which went up. -/
  heard : List (Nat × Bool) := []
  presses : List KeyPress := []

namespace KeyLedger

/-- The keys whose presses wait, the oldest first. -/
def waiting (ledger : KeyLedger) : List Nat :=
  KeyPress.waiting ledger.presses

/-- The keys that were pressed, in order.  Zero is no key. -/
def pressed (ledger : KeyLedger) : List Nat :=
  (ledger.heard.filter fun told => told.2 && told.1 != 0).map Prod.fst

/-- The last that was told of a key: that it went down, or that it went up. -/
def last? (ledger : KeyLedger) (key : Nat) : Option Bool :=
  (ledger.heard.filter fun told => told.1 = key).getLast?.map Prod.snd

/-- The last that was told of a key, other than zero, is a press. -/
def Held (ledger : KeyLedger) (key : Nat) : Prop :=
  key ≠ 0 ∧ ledger.last? key = some true

instance (ledger : KeyLedger) (key : Nat) : Decidable (ledger.Held key) :=
  inferInstanceAs (Decidable (_ ∧ _))

/-- Hear of a key. -/
def hear (ledger : KeyLedger) (key : Nat) (pressed : Bool) : KeyLedger :=
  { ledger with
    heard := ledger.heard ++ [(key, pressed)]
    presses :=
      if pressed && key != 0 then KeyPress.makeRoom ledger.presses ++ [⟨key, .waits⟩]
      else ledger.presses }

/-- Note an event. -/
def note (ledger : KeyLedger) : KeyEvent → KeyLedger
  | .told key pressed => if ledger.listens then ledger.hear key pressed else ledger
  | .asked _ wanted _ =>
    if wanted ≤ 0.0 then
      { ledger with presses := KeyPress.settleOldest .taken ledger.presses }
    else ledger
  | .reset => { listens := true }
  | .closed => { ledger with listens := false }

/-- Note events one after another. -/
def noteAll (ledger : KeyLedger) (events : List KeyEvent) : KeyLedger :=
  events.foldl note ledger

/-- The ledger of all events, at the beginning of which nobody listens. -/
def after (events : List KeyEvent) : KeyLedger :=
  noteAll {} events

/-- What the script gets: the oldest key that waits, or zero, or whether the key that it wants is
held. -/
def answer (ledger : KeyLedger) (wanted : Float) : Float :=
  if wanted ≤ 0.0 then Float.ofNat (ledger.waiting.headD 0)
  else if ledger.Held (Number.toNatural32 wanted) then 1.0 else 0.0

/-- A keyboard is what a ledger says. -/
structure Describes (ledger : KeyLedger) (keyboard : Keyboard) : Prop where
  waiting : keyboard.waiting = ledger.waiting
  fits : keyboard.waiting.length ≤ 32
  queue : KeyPress.Queue ledger.presses keyboard.waiting
  pressed : ledger.presses.map KeyPress.key = ledger.pressed
  down : ∀ key, keyboard.isDown key = true ↔ ledger.Held key

/-- Whenever the script asks, it finds the keyboard and gets the answer of which the ledger
tells. -/
def Explains (ledger : KeyLedger) (events : List KeyEvent) : Prop :=
  ∀ earlier found wanted answer later, events = earlier ++ .asked found wanted answer :: later →
    (ledger.noteAll earlier).Describes found ∧ answer = (ledger.noteAll earlier).answer wanted

variable {ledger : KeyLedger} {keyboard : Keyboard}

@[simp] theorem noteAll_nil (ledger : KeyLedger) : ledger.noteAll [] = ledger :=
  rfl

@[simp] theorem noteAll_cons (ledger : KeyLedger) (event : KeyEvent) (others : List KeyEvent) :
    ledger.noteAll (event :: others) = (ledger.note event).noteAll others :=
  rfl

@[simp] theorem noteAll_append (ledger : KeyLedger) (first second : List KeyEvent) :
    ledger.noteAll (first ++ second) = (ledger.noteAll first).noteAll second :=
  List.foldl_append

/-! ### What is heard -/

theorem last?_hear (ledger : KeyLedger) (told : Nat) (pressed : Bool) (key : Nat) :
    (ledger.hear told pressed).last? key =
      if told = key then some pressed else ledger.last? key := by
  rw [last?, hear, List.filter_append]
  split
  · next same => simp [same]
  · next other => simp [other, last?]

theorem pressed_hear (ledger : KeyLedger) (told : Nat) (pressed : Bool) :
    (ledger.hear told pressed).pressed =
      if pressed && told != 0 then ledger.pressed ++ [told] else ledger.pressed := by
  rw [KeyLedger.pressed, hear, List.filter_append, List.map_append, List.filter_singleton]
  cases pressed && told != 0
  · exact List.append_nil _
  · rfl

theorem held_hear (ledger : KeyLedger) (told : Nat) (pressed : Bool) (key : Nat) :
    (ledger.hear told pressed).Held key ↔
      if told = key then key ≠ 0 ∧ pressed = true else ledger.Held key := by
  rw [Held, last?_hear]
  split
  · rw [Option.some_inj]
  · rfl

namespace Describes

theorem of_queue (queue : KeyPress.Queue ledger.presses keyboard.waiting)
    (fits : keyboard.waiting.length ≤ maxWaitingKeys)
    (pressed : ledger.presses.map KeyPress.key = ledger.pressed)
    (down : ∀ key, keyboard.isDown key = true ↔ ledger.Held key) : ledger.Describes keyboard :=
  ⟨queue.waiting_eq.symm, fits, queue, pressed, down⟩

/-- A keyboard without keys, of which nothing was told. -/
theorem blank (listens : Bool) : Describes { listens := listens } {} :=
  of_queue .nil (Nat.zero_le _) rfl fun _ => iff_of_false nofun nofun

theorem withListens (describes : ledger.Describes keyboard) (listens : Bool) :
    Describes { ledger with listens := listens } keyboard :=
  ⟨describes.waiting, describes.fits, describes.queue, describes.pressed, describes.down⟩

/-! ### Keys go down and up -/

/-- A press waits behind those that are there. -/
theorem press (describes : ledger.Describes keyboard) {key : Nat} (isKey : key ≠ 0) :
    (ledger.hear key true).Describes (keyboard.press key) := by
  have counts : (true && key != 0) = true := by simpa using isKey
  have presses : (ledger.hear key true).presses =
      KeyPress.makeRoom ledger.presses ++ [⟨key, .waits⟩] := if_pos counts
  apply of_queue
  · rw [presses]
    exact (describes.queue.makeRoom describes.fits).concat key
  · have fits := describes.fits
    rw [Keyboard.press, List.length_append, List.length_drop, List.length_singleton,
      maxWaitingKeys]
    omega
  · rw [presses, List.map_append, KeyPress.map_key_makeRoom, describes.pressed, pressed_hear,
      if_pos counts]
    rfl
  · intro other
    rw [Keyboard.isDown_press, held_hear, describes.down]
    by_cases same : key = other
    · subst same
      simp [isKey]
    · simp [same]

/-- A key that goes up is not down any more, but its presses still wait. -/
theorem release (describes : ledger.Describes keyboard) (key : Nat) :
    (ledger.hear key false).Describes (keyboard.release key) := by
  have waits : (keyboard.release key).waiting = keyboard.waiting := rfl
  apply of_queue
  · rw [waits]
    exact describes.queue
  · rw [waits]
    exact describes.fits
  · rw [pressed_hear]
    exact describes.pressed
  · intro other
    rw [Keyboard.isDown_release, held_hear, describes.down]
    by_cases same : key = other
    · simp [same]
    · simp [same]

/-- What is told of no key changes nothing. -/
theorem hearNothing (describes : ledger.Describes keyboard) (pressed : Bool) :
    (ledger.hear 0 pressed).Describes keyboard := by
  have presses : (ledger.hear 0 pressed).presses = ledger.presses := by
    simp [hear]
  apply of_queue
  · rw [presses]
    exact describes.queue
  · exact describes.fits
  · rw [presses, pressed_hear, describes.pressed]
    simp
  · intro other
    rw [held_hear, describes.down]
    by_cases same : 0 = other
    · subst same
      simp [Held]
    · simp [same]

/-! ### The script asks -/

/-- The press that the script takes does not wait any more. -/
theorem next (describes : ledger.Describes keyboard) :
    Describes { ledger with presses := KeyPress.settleOldest .taken ledger.presses }
      keyboard.next.2 := by
  have queue := describes.queue
  rw [Keyboard.next_eq]
  refine of_queue ?_ ?_ ?_ describes.down
  · cases keys : keyboard.waiting with
    | nil =>
        rw [keys] at queue
        rw [queue.settle_nil]
        exact queue
    | cons key others =>
        rw [keys] at queue
        exact queue.settle nofun
  · rw [List.length_tail]
    exact Nat.le_trans (Nat.sub_le _ 1) describes.fits
  · rw [KeyPress.map_key_settleOldest]
    exact describes.pressed

end Describes

/-! ### Explanations -/

theorem explains_nil (ledger : KeyLedger) : ledger.Explains [] := by
  intro earlier found wanted answer later parted
  simp at parted

/-- Nothing but a question needs to be explained. -/
theorem explains_of_not_asked {event : KeyEvent}
    (plain : ∀ found wanted answer, event ≠ .asked found wanted answer) :
    ledger.Explains [event] := by
  intro earlier found wanted answer later parted
  rcases List.singleton_eq_append_iff.mp parted with ⟨_, same⟩ | ⟨_, none⟩
  · exact absurd (List.cons.inj same).1.symm (plain found wanted answer)
  · cases none

theorem explains_asked {found : Keyboard} (describes : ledger.Describes found)
    (wanted : Float) : ledger.Explains [.asked found wanted (ledger.answer wanted)] := by
  intro earlier found wanted answer later parted
  rcases List.singleton_eq_append_iff.mp parted with ⟨rfl, same⟩ | ⟨_, none⟩
  · cases same
    exact ⟨describes, rfl⟩
  · cases none

theorem Explains.append {first second : List KeyEvent} (front : ledger.Explains first)
    (back : (ledger.noteAll first).Explains second) : ledger.Explains (first ++ second) := by
  intro earlier found wanted answer later parted
  rcases List.append_eq_append_iff.mp parted with ⟨middle, rfl, rest⟩ | ⟨middle, rfl, rest⟩
  · rw [noteAll_append]
    exact back middle found wanted answer later rest
  · cases middle with
    | nil =>
        rw [List.append_nil] at back
        exact back [] found wanted answer later rest.symm
    | cons event others =>
        rcases List.cons.inj rest with ⟨rfl, _⟩
        exact front earlier found wanted answer others rfl

end KeyLedger

/-! ## Host functions -/

namespace HostFunction

variable {ledger : KeyLedger}

/-- Asking takes the oldest press or leaves the keyboard as it is, and the ledger tells what comes
of it. -/
theorem key_of_describes {caller : Caller} (may : caller.mayUseKeyboard = true) (args : List Arg)
    (state : State) (describes : ledger.Describes state.2.keyboard) :
    (key caller args state).1 = ledger.answer (argValue args 0) ∧
      ∀ answer, (ledger.note (.asked state.2.keyboard (argValue args 0) answer)).Describes
        (key caller args state).2.2.keyboard := by
  rw [key, if_pos may, KeyLedger.answer]
  simp only [KeyLedger.note]
  split
  · refine ⟨?_, fun _ => describes.next⟩
    rw [Keyboard.next_eq, describes.waiting]
  · refine ⟨?_, fun _ => describes⟩
    simp only [describes.down]

theorem keyboard_receive (caller : Caller) (accept? : Option MidiFunctions.Acceptance)
    (state : State) : (receive caller accept? state).2.2.keyboard = state.2.keyboard := by
  cases accept? with
  | none => rfl
  | some accept =>
      rw [receive]
      split <;> rfl

/-- Only one function reaches the keyboard, and it asks who is calling. -/
theorem keyboard_run (facts : Facts) (caller : Caller) (function : HostFunction)
    (args : List Arg) (state : State)
    (other : function ≠ .nextKey ∨ caller.mayUseKeyboard = false) :
    (function.run facts caller args state).2.2.keyboard = state.2.keyboard := by
  cases function with
  | midiReceive | midiReceiveMemory | midiReceiveText => exact keyboard_receive caller _ state
  | midiSend | midiSendMemory | midiSendText | midiSendExclusive =>
      simp only [run, send]
      split <;> rfl
  | nextKey =>
      have deaf : caller.mayUseKeyboard = false := other.resolve_left fun differs => differs rfl
      simp only [run, key, deaf]
      rfl
  | _ => rfl

end HostFunction
end EffectHost

/-!
# Keyboard

Key presses wait in a queue until the script asks for them.  When too many wait, the
oldest is dropped.  Apart from that it is known which keys are down.
-/

namespace EffectHost

/-- Number of key presses that can wait. -/
def maxWaitingKeys : Nat := 32

/-- The keyboard as scripts see it. -/
structure Keyboard where
  /-- Waiting presses, the oldest first. -/
  waiting : List Nat := []
  /-- The keys that are down. -/
  down : List Nat := []
deriving DecidableEq, Repr

namespace Keyboard

/-- Note that a key goes down. -/
def press (keyboard : Keyboard) (key : Nat) : Keyboard where
  waiting := keyboard.waiting.drop (keyboard.waiting.length + 1 - maxWaitingKeys) ++ [key]
  down := if keyboard.down.contains key then keyboard.down else key :: keyboard.down

/-- Note that a key goes up. -/
def release (keyboard : Keyboard) (key : Nat) : Keyboard :=
  { keyboard with down := keyboard.down.filter (· != key) }

/-- Take the oldest waiting press; zero if none waits. -/
def next (keyboard : Keyboard) : Nat × Keyboard :=
  match keyboard.waiting with
  | key :: waiting => (key, { keyboard with waiting := waiting })
  | [] => (0, keyboard)

/-- The key is down. -/
def isDown (keyboard : Keyboard) (key : Nat) : Bool :=
  keyboard.down.contains key

end Keyboard
end EffectHost

import Ssuge.Message

/-! The input manager of `InputManager.h` and `InputManager.cpp`: a flag for every
action, one map from controls to actions for each device, and the listeners that
the handlers notify. A listener's script may register further objects while a
broadcast is under way, so a broadcast takes what the notified scripts register,
call by call, as `Responses`; scripts past the end of it register nothing. A
write past the end of the flags is lost. -/

namespace Ssuge

open RecordedRun CString

inductive InputActions
  | actionUp | actionDown | actionLeft | actionRight | actionJump | actionAttack
  | actionCrouch | firstPerson | thirdPerson | actionPause | debug | glow
deriving DecidableEq, Repr

namespace InputActions

def index : InputActions → Nat
  | actionUp => 0
  | actionDown => 1
  | actionLeft => 2
  | actionRight => 3
  | actionJump => 4
  | actionAttack => 5
  | actionCrouch => 6
  | firstPerson => 7
  | thirdPerson => 8
  | actionPause => 9
  | debug => 10
  | glow => 11

theorem index_inj {a b : InputActions} (h : a.index = b.index) : a = b := by
  cases a <;> cases b <;> first | rfl | exact absurd h (by decide)

end InputActions

/-- What the notified scripts register as listeners, in the order of the calls. -/
abbrev Responses := List (List Ptr)

/-- What the handlers tell others: a script event of a listener, or the action
message to the application. -/
inductive Notification
  | scriptEvent (listener : Ptr) (method : List UInt8) (message : List Param)
  | onAction (action : InputActions) (actionState : Bool)
deriving DecidableEq, Repr

structure InputManager where
  mActiveActions : List (Option Bool)
  mKeyboardMap : Int32 → Option InputActions
  mMouseButtonMap : UInt8 → Option InputActions
  mJoyButtonMap : UInt8 → Option InputActions
  mInputListeners : List Ptr

namespace InputManager

def numActions : Nat := 11

def mMouseButtonStrings : List (Option (List UInt8)) :=
  ["MOUSE_LEFT", "MOUSE_MIDDLE", "MOUSE_RIGHT"].map fun s => some (chars s)

def mJoyButtonStrings : List (Option (List UInt8)) :=
  ["JOY_UP", "JOY_DOWN", "JOY_LEFT", "JOY_RIGHT", "JOY_START", "JOY_BACK", "JOY_LSTICK",
    "JOY_RSTICK", "JOY_LBUMPER", "JOY_RBUMPER", "JOY_A", "JOY_B", "JOY_X", "JOY_Y",
    "JOY_CENTER"].map fun s => some (chars s)

/-- `InputManager(int w, int h)` -/
def constructed : InputManager where
  mActiveActions := List.replicate numActions (some false)
  mKeyboardMap _ := none
  mMouseButtonMap _ := none
  mJoyButtonMap _ := none
  mInputListeners := []

def addListener (m : InputManager) (gObject : Ptr) : InputManager × Nat :=
  if gObject ∈ m.mInputListeners then (m, 1)
  else ({ m with mInputListeners := m.mInputListeners ++ [gObject] }, 0)

def removeListener (m : InputManager) (gObject : Ptr) : InputManager × Nat :=
  let idx := m.mInputListeners.idxOf gObject
  if idx < m.mInputListeners.length then
    ({ m with mInputListeners := m.mInputListeners.eraseIdx idx }, 0)
  else (m, 1)

/-- The calls of `input_register` that a script makes. -/
def register (m : InputManager) (objects : List Ptr) : InputManager :=
  objects.foldl (fun m gObject => (m.addListener gObject).1) m

/-- `for (int i = 0; i < (int)mInputListeners.size(); i++)
mInputListeners[i]->injectScriptEvent(method, message);` -/
def broadcast (method : List UInt8) (message : List Param) :
    Responses → (i : Nat) → InputManager → InputManager × List Notification
  | [], i, m => (m, (m.mInputListeners.drop i).map fun listener =>
      .scriptEvent listener method message)
  | objects :: responses, i, m =>
      match m.mInputListeners[i]? with
      | none => (m, [])
      | some listener =>
          let (m, sent) := broadcast method message responses (i + 1) (m.register objects)
          (m, .scriptEvent listener method message :: sent)

def actionEnumToString : InputActions → List UInt8
  | .actionUp => chars "up"
  | .actionDown => chars "down"
  | .actionLeft => chars "left"
  | .actionRight => chars "right"
  | .actionJump => chars "jump"
  | .actionAttack => chars "attack"
  | .actionCrouch => chars "crouch"
  | .firstPerson => chars "first"
  | .thirdPerson => chars "thrid"
  | .actionPause => chars "pause"
  | .debug => chars "debug"
  | .glow => chars "glow"

def sendActionMessage (m : InputManager) (action : InputActions) (actionState : Bool)
    (responses : Responses) : InputManager × List Notification :=
  let message := [.string (actionEnumToString action), .int (if actionState then 1 else 0)]
  let (m, sent) := broadcast (chars "onAction") message responses 0 m
  (m, sent ++ [.onAction action actionState])

def sendKeyMessage (m : InputManager) (keyString : List UInt8) (keyState : Bool)
    (responses : Responses) : InputManager × List Notification :=
  let message := [.string keyString, .int (if keyState then 1 else 0)]
  broadcast (chars "onKeydown") message responses 0 m

/-- `button - 1` as an index; 0 wraps around. -/
def buttonIndex (button : UInt8) : Nat := (button.toNat + 2 ^ 32 - 1) % 2 ^ 32

/-- The string that is looked up is not used: the call to the listeners is
commented out. -/
def sendMouseMessage (button : UInt8) : Run Unit := do
  let _buttonString ← load mMouseButtonStrings (buttonIndex button)
  pure ()

def sendJoyMessage (button : UInt8) : Run Unit := do
  let _buttonString ← load mJoyButtonStrings button.toNat
  pure ()

/-- `mActiveActions[action] = state; sendActionMessage(action, state);` for a control
with an action. -/
def setAction (m : InputManager) (mapped : Option InputActions) (state : Bool)
    (responses : Responses) : Run (InputManager × List Notification) :=
  match mapped with
  | none => pure (m, [])
  | some action => do
      let mActiveActions ← store m.mActiveActions action.index (some state)
      pure ({ m with mActiveActions := mActiveActions }.sendActionMessage action state responses)

/-- `keyName` is `SDL_GetKeyName`. -/
def onKeyDown (keyName : Int32 → List UInt8) (m : InputManager) (key : Int32)
    (actionResponses keyResponses : Responses) : Run (InputManager × List Notification) := do
  let (m, actionSent) ← m.setAction (m.mKeyboardMap key) true actionResponses
  let (m, keySent) := m.sendKeyMessage (keyName key) true keyResponses
  pure (m, actionSent ++ keySent)

/-- The key message of a released key is commented out. -/
def onKeyUp (m : InputManager) (key : Int32) (responses : Responses) :
    Run (InputManager × List Notification) :=
  m.setAction (m.mKeyboardMap key) false responses

def onMouseDown (m : InputManager) (button : UInt8) (responses : Responses) :
    Run (InputManager × List Notification) := do
  let handled ← m.setAction (m.mMouseButtonMap button) true responses
  sendMouseMessage button
  pure handled

def onMouseUp (m : InputManager) (button : UInt8) (responses : Responses) :
    Run (InputManager × List Notification) := do
  let handled ← m.setAction (m.mMouseButtonMap button) false responses
  sendMouseMessage button
  pure handled

def onJoyButtonDown (m : InputManager) (button : UInt8) (responses : Responses) :
    Run (InputManager × List Notification) := do
  let handled ← m.setAction (m.mJoyButtonMap button) true responses
  sendJoyMessage button
  pure handled

def onJoyButtonUp (m : InputManager) (button : UInt8) (responses : Responses) :
    Run (InputManager × List Notification) := do
  let handled ← m.setAction (m.mJoyButtonMap button) false responses
  sendJoyMessage button
  pure handled

def actionIsActive (m : InputManager) (action : InputActions) : Run (Option Bool) :=
  load m.mActiveActions action.index

def mapKeyAction (m : InputManager) (key : Int32) (action : InputActions) : InputManager :=
  { m with mKeyboardMap := Function.update m.mKeyboardMap key (some action) }

def mapMouseAction (m : InputManager) (button : UInt8) (action : InputActions) : InputManager :=
  { m with mMouseButtonMap := Function.update m.mMouseButtonMap button (some action) }

def mapJoyAction (m : InputManager) (button : UInt8) (action : InputActions) : InputManager :=
  { m with mJoyButtonMap := Function.update m.mJoyButtonMap button (some action) }

/-- Two states of the manager that differ at most in the listeners. -/
structure SameControls (m m' : InputManager) : Prop where
  actions : m'.mActiveActions = m.mActiveActions
  keyboard : m'.mKeyboardMap = m.mKeyboardMap
  mouse : m'.mMouseButtonMap = m.mMouseButtonMap
  joystick : m'.mJoyButtonMap = m.mJoyButtonMap

theorem SameControls.refl (m : InputManager) : SameControls m m := ⟨rfl, rfl, rfl, rfl⟩

theorem SameControls.trans {m m₁ m₂ : InputManager} (first : SameControls m m₁)
    (second : SameControls m₁ m₂) : SameControls m m₂ where
  actions := second.actions.trans first.actions
  keyboard := second.keyboard.trans first.keyboard
  mouse := second.mouse.trans first.mouse
  joystick := second.joystick.trans first.joystick

theorem addListener_sameControls (m : InputManager) (gObject : Ptr) :
    SameControls m (m.addListener gObject).1 := by
  rw [addListener]
  split <;> exact ⟨rfl, rfl, rfl, rfl⟩

theorem register_sameControls (m : InputManager) (objects : List Ptr) :
    SameControls m (m.register objects) := by
  induction objects generalizing m with
  | nil => exact .refl m
  | cons gObject objects ih => exact (addListener_sameControls m gObject).trans (ih _)

theorem broadcast_sameControls (method : List UInt8) (message : List Param)
    (responses : Responses) (i : Nat) (m : InputManager) :
    SameControls m (broadcast method message responses i m).1 := by
  induction responses generalizing i m with
  | nil => exact .refl m
  | cons objects responses ih =>
      rw [broadcast]
      cases m.mInputListeners[i]? with
      | none => exact .refl m
      | some listener => exact (register_sameControls m objects).trans (ih _ _)

theorem sendActionMessage_sameControls (m : InputManager) (action : InputActions) (state : Bool)
    (responses : Responses) : SameControls m (m.sendActionMessage action state responses).1 :=
  broadcast_sameControls _ _ _ _ _

def flagged (m : InputManager) (mapped : Option InputActions) (state : Bool) :
    List (Option Bool) :=
  match mapped with
  | none => m.mActiveActions
  | some action => m.mActiveActions.set action.index (some state)

theorem setAction_spec (m : InputManager) (mapped : Option InputActions) (state : Bool)
    (responses : Responses) :
    ∃ m' sent, (m.setAction mapped state responses).value = some (m', sent) ∧
      SameControls { m with mActiveActions := m.flagged mapped state } m' := by
  cases mapped with
  | none => exact ⟨m, [], rfl, rfl, rfl, rfl, rfl⟩
  | some action => exact ⟨_, _, rfl, sendActionMessage_sameControls _ _ _ _⟩

end InputManager

end Ssuge

import Ssuge.ActionState

/-! The events of SDL as `update` hands them to the handlers. An event is read as the kind
of event that its type says, but for a joystick button that goes down: the code reads the
button of a mouse event there, which lies behind the last field of a joystick event. -/

namespace Ssuge.InputManager

open RecordedRun CString GuardedRun

/-- What `SDL_PollEvent` delivers. For a joystick button that goes down, `overlap` is the
byte at the place of `evt.button.button`. -/
inductive Event
  | quit
  | keyDown (sym : Int32) (repeats : UInt8)
  | keyUp (sym : Int32) (repeats : UInt8)
  | mouseButtonDown (button : UInt8)
  | mouseButtonUp (button : UInt8)
  | joyButtonDown (which : Int32) (button overlap : UInt8)
  | joyButtonUp (which : Int32) (button : UInt8)
  | joyAxisMotion (which : Int32) (axis : UInt8) (value : Int16)
  | other

/-- A large movement goes to the log. -/
def onJoyAxis (m : InputManager) : InputManager × List Notification := (m, [])

def dispatch (keyName : Int32 → List UInt8) (m : InputManager) (evt : Event)
    (actionResponses keyResponses : Responses) : Run (InputManager × List Notification) :=
  match evt with
  | .quit => pure (m, [])
  | .keyDown sym repeats =>
      if repeats = 0 then m.onKeyDown keyName sym actionResponses keyResponses else pure (m, [])
  | .keyUp sym repeats => if repeats = 0 then m.onKeyUp sym actionResponses else pure (m, [])
  | .mouseButtonDown button => m.onMouseDown button actionResponses
  | .mouseButtonUp button => m.onMouseUp button actionResponses
  | .joyButtonDown _ _ overlap => m.onMouseUp overlap actionResponses
  | .joyButtonUp _ button => m.onJoyButtonUp button actionResponses
  | .joyAxisMotion .. => pure m.onJoyAxis
  | .other => pure (m, [])

/-- `update`, with the event that is polled, if any; 1 ends the application. -/
def update (keyName : Int32 → List UInt8) (m : InputManager) (polled : Option Event)
    (actionResponses keyResponses : Responses) :
    Run (Nat × InputManager × List Notification) :=
  match polled with
  | none => pure (0, m, [])
  | some .quit => pure (1, m, [])
  | some evt => do
      let handled ← m.dispatch keyName evt actionResponses keyResponses
      pure (0, handled)

/-- The bits that SDL adds to the scancode of a key without a character. -/
def scancodeMask : Int32 := 0x40000000

/-- The keys that `BaseApplication::initializeInputManager` maps. -/
def defaultKeys : List (Int32 × InputActions) :=
  [(54, .firstPerson), (55, .thirdPerson), (115, .actionDown), (119, .actionUp),
    (97, .actionLeft), (100, .actionRight), (32, .actionJump), (224 + scancodeMask, .actionAttack),
    (228 + scancodeMask, .actionCrouch), (13, .actionPause), (96, .debug), (51, .glow)]

def initializeInputManager : InputManager :=
  defaultKeys.foldl (fun m (key, action) => m.mapKeyAction key action) constructed

inductive Occurrence
  | update (polled : Option Event) (actionResponses keyResponses : Responses)
  | mapKeyAction (key : Int32) (action : InputActions)
  | mapMouseAction (button : UInt8) (action : InputActions)
  | mapJoyAction (button : UInt8) (action : InputActions)
  | addListener (gObject : Ptr)
  | removeListener (gObject : Ptr)

def occur (keyName : Int32 → List UInt8) (m : InputManager) : Occurrence → Option InputManager
  | .update polled actionResponses keyResponses =>
      (m.update keyName polled actionResponses keyResponses).value.map fun (_, m, _) => m
  | .mapKeyAction key action => some (m.mapKeyAction key action)
  | .mapMouseAction button action => some (m.mapMouseAction button action)
  | .mapJoyAction button action => some (m.mapJoyAction button action)
  | .addListener gObject => some (m.addListener gObject).1
  | .removeListener gObject => some (m.removeListener gObject).1

/-- The action of the control that an event is about, in the map of its device, and
whether the control goes down. A key that repeats does not go down again. -/
def assigned (m : InputManager) : Event → Option InputActions × Bool
  | .keyDown sym repeats => (if repeats = 0 then m.mKeyboardMap sym else none, true)
  | .keyUp sym repeats => (if repeats = 0 then m.mKeyboardMap sym else none, false)
  | .mouseButtonDown button => (m.mMouseButtonMap button, true)
  | .mouseButtonUp button => (m.mMouseButtonMap button, false)
  | .joyButtonDown _ button _ => (m.mJoyButtonMap button, true)
  | .joyButtonUp _ button => (m.mJoyButtonMap button, false)
  | .quit | .joyAxisMotion .. | .other => (none, false)

def RoutesTo (m m' : InputManager) (mapped : Option InputActions) (down : Bool) : Prop :=
  ∀ a : InputActions, m'.mActiveActions[a.index]? =
    if mapped = some a then some (some down) else m.mActiveActions[a.index]?

/-- An event goes to the action that the map of its own device assigns to it. -/
def Routed (keyName : Int32 → List UInt8) (m : InputManager) (occurrence : Occurrence) : Prop :=
  match occurrence with
  | .update (some evt) .. => ∀ m', occur keyName m occurrence = some m' →
      RoutesTo m m' (m.assigned evt).1 (m.assigned evt).2
  | _ => True

def Active (m : InputManager) (a : InputActions) : Prop :=
  m.mActiveActions[a.index]? = some (some true)

/-- The condition on the state before an event: its action has an entry; and for a joystick
button that goes down, its action is active already and the action of the mouse button
that is taken for it is not. -/
def RoutingGuard (m : InputManager) : Occurrence → Prop
  | .update (some (.joyButtonDown _ button overlap)) .. =>
      (∀ a, m.mJoyButtonMap button = some a → m.Active a) ∧
        ∀ a, m.mMouseButtonMap overlap = some a → ¬ m.Active a
  | .update (some evt) .. => (m.assigned evt).1 ≠ some .glow
  | _ => True

def Retains (a : InputActions) (m : InputManager) : Occurrence → Prop
  | .update (some evt) .. => m.assigned evt ≠ (some a, false)
  | _ => True

/-- No access of an event is past the end of an array. -/
def EventInBounds (keyName : Int32 → List UInt8) (m : InputManager) : Occurrence → Prop
  | .update polled actionResponses keyResponses =>
      (m.update keyName polled actionResponses keyResponses).InBounds
  | _ => True

/-- The buttons that have a string. -/
def MouseButton (button : UInt8) : Prop := 1 ≤ button.toNat ∧ button.toNat ≤ 3

/-- The condition on the state before an event: the action that it is handled as has an
entry, and the button a string. -/
def BoundsGuard (m : InputManager) : Occurrence → Prop
  | .update (some evt) .. =>
      match evt with
      | .keyDown sym repeats | .keyUp sym repeats =>
          repeats = 0 → m.mKeyboardMap sym ≠ some .glow
      | .mouseButtonDown button | .mouseButtonUp button | .joyButtonDown _ _ button =>
          m.mMouseButtonMap button ≠ some .glow ∧ MouseButton button
      | .joyButtonUp _ button => m.mJoyButtonMap button ≠ some .glow ∧ button.toNat < 15
      | .quit | .joyAxisMotion .. | .other => True
  | _ => True

structure Flagged (m : InputManager) : Prop where
  size : m.mActiveActions.length = numActions
  written : none ∉ m.mActiveActions

section events

variable {m m' : InputManager} {mapped : Option InputActions} {state : Bool} {a : InputActions}

theorem entry_iff (a : InputActions) : a.index < numActions ↔ a ≠ .glow := by
  cases a <;> decide

theorem beyond_flags (size : m.mActiveActions.length = numActions) :
    m.mActiveActions[InputActions.glow.index]? = none :=
  List.getElem?_eq_none (by rw [size]; decide)

theorem Active.entry (size : m.mActiveActions.length = numActions) (active : m.Active a) :
    a.index < numActions := by
  rw [entry_iff]
  rintro rfl
  rw [Active, beyond_flags size] at active
  simp at active

theorem Flagged.inactive (flagged : m.Flagged) (entry : a.index < numActions)
    (inactive : ¬ m.Active a) : m.mActiveActions[a.index]? = some (some false) := by
  have inside : a.index < m.mActiveActions.length := by rwa [flagged.size]
  have cell := List.getElem?_eq_getElem inside
  cases value : m.mActiveActions[a.index] with
  | none => exact absurd (value ▸ List.getElem_mem inside) flagged.written
  | some active =>
      rw [value] at cell
      cases active with
      | false => exact cell
      | true => exact absurd cell inactive

theorem Flagged.of_flagged (flagged : m.Flagged)
    (flags : m'.mActiveActions = m.flagged mapped state) : m'.Flagged := by
  refine ⟨by rw [flags, flagged_length, flagged.size], fun unwritten => ?_⟩
  rw [flags] at unwritten
  cases mapped with
  | none => exact flagged.written unwritten
  | some action =>
      rcases List.mem_or_eq_of_mem_set unwritten with before | new
      · exact flagged.written before
      · simp at new

theorem routesTo_iff (size : m.mActiveActions.length = numActions)
    (flags : m'.mActiveActions = m.flagged mapped state) :
    RoutesTo m m' mapped state ↔ mapped ≠ some .glow := by
  have size' : m'.mActiveActions.length = numActions := by rw [flags, flagged_length, size]
  constructor
  · rintro routes rfl
    have glow := routes .glow
    rw [if_pos rfl, beyond_flags size'] at glow
    simp at glow
  · intro noGlow a
    by_cases entry : a.index < numActions
    · rw [flags, flagged_get m size mapped state entry]
    · obtain rfl : a = .glow := by simpa [entry_iff] using entry
      rw [if_neg noGlow, beyond_flags size, beyond_flags size']

/-- A joystick button that goes down is handled as a mouse button that goes up. -/
theorem routesTo_joyDown_iff (flagged : m.Flagged) {joy mouse : Option InputActions}
    (flags : m'.mActiveActions = m.flagged mouse false) :
    RoutesTo m m' joy true ↔
      (∀ a, joy = some a → m.Active a) ∧ ∀ a, mouse = some a → ¬ m.Active a := by
  have size' : m'.mActiveActions.length = numActions := by
    rw [flags, flagged_length, flagged.size]
  have after : ∀ a : InputActions, a.index < numActions → m'.mActiveActions[a.index]? =
      if mouse = some a then some (some false) else m.mActiveActions[a.index]? :=
    fun a entry => by rw [flags, flagged_get m flagged.size mouse false entry]
  constructor
  · intro routes
    constructor
    · intro a assigned
      have set := routes a
      rw [if_pos assigned] at set
      have entry : a.index < numActions := by
        rw [entry_iff]
        rintro rfl
        rw [beyond_flags size'] at set
        simp at set
      rw [after a entry] at set
      split at set
      · simp at set
      · exact set
    · intro a taken active
      have entry := active.entry flagged.size
      have cleared := (after a entry).symm.trans (routes a)
      rw [if_pos taken, show m.mActiveActions[a.index]? = some (some true) from active] at cleared
      simp at cleared
  · rintro ⟨active, inactive⟩ a
    by_cases entry : a.index < numActions
    · rw [after a entry]
      by_cases taken : mouse = some a
      · have apart : joy ≠ some a := fun assigned => inactive a taken (active a assigned)
        rw [if_pos taken, if_neg apart, flagged.inactive entry (inactive a taken)]
      · rw [if_neg taken]
        by_cases assigned : joy = some a
        · rw [if_pos assigned]
          exact active a assigned
        · rw [if_neg assigned]
    · obtain rfl : a = .glow := by simpa [entry_iff] using entry
      have unassigned : joy ≠ some .glow := fun assigned =>
        entry ((active _ assigned).entry flagged.size)
      rw [if_neg unassigned, beyond_flags flagged.size, beyond_flags size']

theorem onJoyButtonUp_flags (m : InputManager) (button : UInt8) (responses : Responses) :
    ∃ m' sent, (m.onJoyButtonUp button responses).value = some (m', sent) ∧
      m'.mActiveActions = m.flagged (m.mJoyButtonMap button) false := by
  obtain ⟨m₁, sent, returned, same⟩ := m.setAction_spec (m.mJoyButtonMap button) false responses
  exact ⟨m₁, sent, by rw [onJoyButtonUp, bind_value_of returned]; rfl, same.actions⟩

def treated (m : InputManager) : Event → Option InputActions × Bool
  | .joyButtonDown _ _ overlap => (m.mMouseButtonMap overlap, false)
  | evt => m.assigned evt

theorem dispatch_flags (keyName : Int32 → List UInt8) (m : InputManager) (evt : Event)
    (r₁ r₂ : Responses) : ∃ m' sent, (m.dispatch keyName evt r₁ r₂).value = some (m', sent) ∧
      m'.mActiveActions = m.flagged (m.treated evt).1 (m.treated evt).2 := by
  have handled : ∀ {c state} {run : Run (InputManager × List Notification)},
      Handled m c state run → ∃ m' sent, run.value = some (m', sent) ∧
        m'.mActiveActions = m.flagged (m.controlMap c) state := by
    rintro c state run ⟨m', sent, returned, flags, -⟩
    exact ⟨m', sent, returned, flags⟩
  cases evt with
  | quit => exact ⟨m, [], rfl, rfl⟩
  | keyDown sym repeats =>
      simp only [dispatch, treated, assigned]
      split
      · exact handled (onKeyDown_handled ..)
      · exact ⟨m, [], rfl, rfl⟩
  | keyUp sym repeats =>
      simp only [dispatch, treated, assigned]
      split
      · exact handled (onKeyUp_handled ..)
      · exact ⟨m, [], rfl, rfl⟩
  | mouseButtonDown button => exact handled (onMouseDown_handled ..)
  | mouseButtonUp button => exact handled (onMouseUp_handled ..)
  | joyButtonDown which button overlap => exact handled (onMouseUp_handled ..)
  | joyButtonUp which button => exact onJoyButtonUp_flags m button r₁
  | joyAxisMotion which axis value => exact ⟨m, [], rfl, rfl⟩
  | other => exact ⟨m, [], rfl, rfl⟩

theorem occur_update (keyName : Int32 → List UInt8) (m : InputManager) (evt : Event)
    (r₁ r₂ : Responses) : occur keyName m (.update (some evt) r₁ r₂) =
      (m.dispatch keyName evt r₁ r₂).value.map Prod.fst := by
  cases evt with
  | quit => rfl
  | _ =>
      rw [occur, update, bind_value]
      cases (dispatch keyName m _ r₁ r₂).value <;> rfl
      nofun

theorem occur_flags (keyName : Int32 → List UInt8) {occurrence : Occurrence}
    (occurred : occur keyName m occurrence = some m') :
    (∃ evt r₁ r₂, occurrence = .update (some evt) r₁ r₂ ∧
      m'.mActiveActions = m.flagged (m.treated evt).1 (m.treated evt).2) ∨
      (∀ evt r₁ r₂, occurrence ≠ .update (some evt) r₁ r₂) ∧
        m'.mActiveActions = m.mActiveActions := by
  cases occurrence with
  | update polled r₁ r₂ =>
      cases polled with
      | none =>
          obtain rfl := Option.some.inj occurred
          exact .inr ⟨nofun, rfl⟩
      | some evt =>
          obtain ⟨m₁, sent, returned, flags⟩ := dispatch_flags keyName m evt r₁ r₂
          rw [occur_update, returned] at occurred
          obtain rfl := Option.some.inj occurred
          exact .inl ⟨evt, r₁, r₂, rfl, flags⟩
  | addListener gObject =>
      obtain rfl := Option.some.inj occurred
      exact .inr ⟨nofun, (addListener_sameControls m gObject).actions⟩
  | removeListener gObject =>
      obtain rfl := Option.some.inj occurred
      refine .inr ⟨nofun, ?_⟩
      rw [removeListener]
      split <;> rfl
  | mapKeyAction key action | mapMouseAction button action | mapJoyAction button action =>
      obtain rfl := Option.some.inj occurred
      exact .inr ⟨nofun, rfl⟩

theorem occur_flagged (keyName : Int32 → List UInt8) (flagged : m.Flagged)
    {occurrence : Occurrence} (occurred : occur keyName m occurrence = some m') : m'.Flagged := by
  rcases occur_flags keyName occurred with ⟨evt, r₁, r₂, -, flags⟩ | ⟨-, same⟩
  · exact flagged.of_flagged flags
  · exact ⟨same ▸ flagged.size, same ▸ flagged.written⟩

/-- One event: it goes where it should exactly when the guard holds. -/
theorem occur_routed (keyName : Int32 → List UInt8) (flagged : m.Flagged)
    (occurrence : Occurrence) :
    Routed keyName m occurrence ↔ RoutingGuard m occurrence := by
  cases occurrence with
  | update polled r₁ r₂ =>
      cases polled with
      | none => exact Iff.rfl
      | some evt =>
          obtain ⟨m₁, sent, returned, flags⟩ := dispatch_flags keyName m evt r₁ r₂
          simp only [Routed, occur_update, returned, Option.map_some, Option.some.injEq, forall_eq']
          cases evt with
          | joyButtonDown which button overlap => exact routesTo_joyDown_iff flagged flags
          | _ => exact routesTo_iff flagged.size flags
  | _ => exact Iff.rfl

theorem constructed_flagged : constructed.Flagged := ⟨rfl, by decide⟩

theorem setAction_inBounds (size : m.mActiveActions.length = numActions)
    (mapped : Option InputActions) (state : Bool) (responses : Responses) :
    (m.setAction mapped state responses).InBounds ↔ mapped ≠ some .glow := by
  cases mapped with
  | none => simp [setAction]
  | some action =>
      rw [setAction, bind_inBounds_of (store_value ..), store_inBounds, size, entry_iff]
      simp

theorem sendMouseMessage_inBounds (button : UInt8) :
    (sendMouseMessage button).InBounds ↔ MouseButton button := by
  have range := button.toNat_lt
  rw [sendMouseMessage, bind_inBounds_of (load_value ..), load_inBounds]
  simp only [pure_inBounds, and_true, buttonIndex, MouseButton,
    show mMouseButtonStrings.length = 3 from rfl]
  omega

theorem sendJoyMessage_inBounds (button : UInt8) :
    (sendJoyMessage button).InBounds ↔ button.toNat < 15 := by
  rw [sendJoyMessage, bind_inBounds_of (load_value ..), load_inBounds]
  simp [show mJoyButtonStrings.length = 15 from rfl]

theorem handler_inBounds (size : m.mActiveActions.length = numActions)
    (mapped : Option InputActions) (state : Bool) (responses : Responses) (sends : Run Unit)
    (sent : sends.value = some ()) : (do
      let handled ← m.setAction mapped state responses
      sends
      pure handled : Run (InputManager × List Notification)).InBounds ↔
      mapped ≠ some .glow ∧ sends.InBounds := by
  obtain ⟨m₁, notified, returned, -⟩ := m.setAction_spec mapped state responses
  rw [bind_inBounds_of returned, bind_inBounds_of sent, setAction_inBounds size]
  simp

theorem onKeyDown_inBounds (size : m.mActiveActions.length = numActions)
    (keyName : Int32 → List UInt8) (key : Int32) (r₁ r₂ : Responses) :
    (m.onKeyDown keyName key r₁ r₂).InBounds ↔ m.mKeyboardMap key ≠ some .glow := by
  obtain ⟨m₁, notified, returned, -⟩ := m.setAction_spec (m.mKeyboardMap key) true r₁
  rw [onKeyDown, bind_inBounds_of returned, setAction_inBounds size]
  simp

theorem dispatch_inBounds (size : m.mActiveActions.length = numActions)
    (keyName : Int32 → List UInt8) (evt : Event) (r₁ r₂ : Responses) :
    (m.dispatch keyName evt r₁ r₂).InBounds ↔ BoundsGuard m (.update (some evt) r₁ r₂) := by
  cases evt with
  | quit | joyAxisMotion which axis value | other => exact iff_of_true (pure_inBounds _) trivial
  | keyDown sym repeats =>
      by_cases first : repeats = 0
      · simp [dispatch, BoundsGuard, first, onKeyDown_inBounds size]
      · simp [dispatch, BoundsGuard, first]
  | keyUp sym repeats =>
      by_cases first : repeats = 0
      · simp [dispatch, BoundsGuard, first, onKeyUp, setAction_inBounds size]
      · simp [dispatch, BoundsGuard, first]
  | mouseButtonDown button | mouseButtonUp button | joyButtonDown which joy button =>
      exact (handler_inBounds size _ _ _ _ rfl).trans
        (and_congr_right' (sendMouseMessage_inBounds button))
  | joyButtonUp which button =>
      exact (handler_inBounds size _ _ _ _ rfl).trans
        (and_congr_right' (sendJoyMessage_inBounds button))

theorem update_inBounds (keyName : Int32 → List UInt8) (evt : Event) (r₁ r₂ : Responses) :
    (m.update keyName (some evt) r₁ r₂).InBounds ↔ (m.dispatch keyName evt r₁ r₂).InBounds := by
  obtain ⟨m₁, sent, returned, -⟩ := dispatch_flags keyName m evt r₁ r₂
  cases evt with
  | quit => exact iff_of_true (pure_inBounds _) (pure_inBounds _)
  | _ =>
      rw [update, bind_inBounds_of returned]
      · simp
      · nofun

theorem occur_inBounds (keyName : Int32 → List UInt8) (flagged : m.Flagged)
    (occurrence : Occurrence) :
    EventInBounds keyName m occurrence ↔ BoundsGuard m occurrence := by
  cases occurrence with
  | update polled r₁ r₂ =>
      cases polled with
      | none => exact iff_of_true (pure_inBounds _) trivial
      | some evt =>
          exact (update_inBounds keyName evt r₁ r₂).trans
            (dispatch_inBounds flagged.size keyName evt r₁ r₂)
  | _ => exact Iff.rfl

/-- Where events go where they should, an action that is active stays so until a control is
released to which the map of its device assigns it. -/
theorem active_until_released (keyName : Int32 → List UInt8) {occurrences : List Occurrence}
    (active : m.Active a) (routed : Along (occur keyName) (Routed keyName) m occurrences)
    (retained : Along (occur keyName) (Retains a) m occurrences) :
    Throughout (occur keyName) (fun m => m.Active a) m occurrences := by
  induction occurrences generalizing m with
  | nil => exact throughout_nil.mpr active
  | cons occurrence occurrences ih =>
      refine throughout_cons.mpr ⟨active, fun m' occurred => ?_⟩
      refine ih ?_ (routed.2 m' occurred) (retained.2 m' occurred)
      rcases occur_flags keyName occurred with ⟨evt, r₁, r₂, rfl, -⟩ | ⟨-, same⟩
      · have goes := routed.1 m' occurred a
        have keeps : m.assigned evt ≠ (some a, false) := retained.1
        by_cases own : (m.assigned evt).1 = some a
        · have down : (m.assigned evt).2 = true :=
            Bool.of_not_eq_false fun up => keeps (Prod.ext own up)
          rw [if_pos own, down] at goes
          exact goes
        · rw [if_neg own] at goes
          exact goes.trans active
      · rwa [Active, same]

end events

/-- From the constructed manager on, whatever is mapped and whoever listens: every event
goes to the action that the map of its device assigns, if and only if none of these
actions lacks an entry, and no joystick button goes down but one whose action is active
already, where no active action belongs to the mouse button that is taken for it. -/
theorem routed_iff (keyName : Int32 → List UInt8) (occurrences : List Occurrence) :
    Along (occur keyName) (Routed keyName) constructed occurrences ↔
      Along (occur keyName) RoutingGuard constructed occurrences :=
  along_iff (I := Flagged) (L := fun _ => True)
    (fun _ occurrence flagged _ => occur_routed keyName flagged occurrence)
    (fun _ _ _ flagged _ _ occurred => occur_flagged keyName flagged occurred)
    constructed_flagged fun _ _ => trivial

/-- A joystick button that is mapped does not make its action active. -/
theorem not_routed : ¬ Along (occur fun _ => []) (Routed fun _ => []) constructed
    [.mapJoyAction 0 .actionJump, .update (some (.joyButtonDown 0 0 0)) [] []] := by
  rintro ⟨-, next⟩
  obtain ⟨routed, -⟩ := next _ rfl
  have jump := routed _ rfl .actionJump
  exact absurd jump (by decide)

/-- From the constructed manager on, over any mappings and events: every access is in
bounds if and only if each event is handled as an action with an entry, and as a button
with a string. -/
theorem inBounds_iff (keyName : Int32 → List UInt8) (occurrences : List Occurrence) :
    Along (occur keyName) (EventInBounds keyName) constructed occurrences ↔
      Along (occur keyName) BoundsGuard constructed occurrences :=
  along_iff (I := Flagged) (L := fun _ => True)
    (fun _ occurrence flagged _ => occur_inBounds keyName flagged occurrence)
    (fun _ _ _ flagged _ _ occurred => occur_flagged keyName flagged occurred)
    constructed_flagged fun _ _ => trivial

def defaultMappings : List Occurrence :=
  defaultKeys.map fun (key, action) => .mapKeyAction key action

theorem runSteps_defaultMappings (keyName : Int32 → List UInt8) :
    runSteps (occur keyName) constructed defaultMappings = some initializeInputManager := rfl

/-- With the default mappings the key 3 writes past the end of the flags. -/
theorem not_inBounds : ¬ Along (occur fun _ => []) (EventInBounds fun _ => []) constructed
    (defaultMappings ++ [.update (some (.keyDown 51 0)) [] []]) := by
  intro all
  have flagged : initializeInputManager.Flagged := ⟨rfl, by decide⟩
  obtain ⟨inBounds, -⟩ := all.after (runSteps_defaultMappings _)
  exact (occur_inBounds _ flagged _).mp inBounds rfl (by decide)

end Ssuge.InputManager

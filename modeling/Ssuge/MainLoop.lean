import Ssuge.Console
import Ssuge.InputQueue
import Ssuge.KeyState
import Ssuge.ServedQueue

/-! The main loop, `BaseApplication::run`. A pass handles one input event, steps the physics,
asks for one key, updates the game objects and the console, and draws. Sound and physics never
end the loop. It goes on until a pass has seen a reason to end, and that pass is still carried
out to its end. -/

namespace Ssuge

open CString Procedure GuardedRun RecordedRun InputManager ServedQueue

/-- What a pass finds: the events that have come since the pass before, the state of the
keyboard, what scripts log to the console and register as listeners before the game objects are
updated and meanwhile, and the texts of the statistics. -/
structure Tick where
  arrivals : List Pending
  keyboard : Keyboard
  logged : List (List UInt8)
  registered : List Ptr
  loggedByObjects : List (List UInt8)
  stats : Stats

structure MainLoop where
  mInputManager : InputManager
  queue : List Pending
  console : Console
  done : Bool

abbrev LoopProc := Proc Stop MainLoop

namespace MainLoop

def onConsole {α : Type} (p : ConsoleProc α) : LoopProc α :=
  within MainLoop.console (fun l c => { l with console := c }) p

/-- What the input manager tells the application itself. -/
def notify : List Notification → ConsoleProc Unit
  | [] => pure ()
  | .scriptEvent .. :: sent => notify sent
  | .onAction action actionState :: sent => do
      Console.onAction action actionState
      notify sent

variable (keyName : Int32 → List UInt8)

/-- `if (mInputManager->update(dt)) done = true;` -/
def updateInput (arrivals : List Pending) : LoopProc Unit := do
  let l ← get
  require (l.mInputManager.updatePending keyName (l.queue ++ arrivals)).InBounds .undefined
  let (code, m, sent) ←
    orStop (l.mInputManager.updatePending keyName (l.queue ++ arrivals)).value .undefined
  modify fun l => { l with
    mInputManager := m
    queue := (l.queue ++ arrivals).tail
    done := l.done || code ≠ 0 }
  onConsole (notify sent)

/-- What the scripts do outside of the handlers of input. -/
def heed (t : Tick) (l : MainLoop) : MainLoop :=
  { l with
    mInputManager := l.mInputManager.register t.registered
    console := t.logged.foldl Console.logToConsole l.console }

/-- `if (INPUT_MANAGER->getKeystate(SDLK_ESCAPE)) done = true;` -/
def pollEscape (keyboard : Keyboard) : LoopProc Unit := do
  let escape ← orStop (keyboard.getKeystate Keyboard.sdlkEscape) .undefined
  modify fun l => { l with done := l.done || escape }

def updateApplication (t : Tick) : LoopProc Unit := do
  let l ← get
  let debug ← orStop (l.mInputManager.actionIsActive .debug).value.join .undefined
  onConsole (Console.update t.loggedByObjects t.stats debug)

def pass (t : Tick) : LoopProc Unit := do
  updateInput keyName t.arrivals
  modify (heed t)
  pollEscape t.keyboard
  updateApplication t

/-- `while(!done)`. An exception leaves the loop. -/
def step (l : MainLoop) (t : Tick) : Option MainLoop :=
  if l.done then none
  else match (pass keyName t).run l with
    | .returned _ l => some l
    | .stopped .. => none

/-- The loop when it begins: `initializeGUI` has created the console, and
`initializeInputManager` the input manager. -/
structure Starts (l : MainLoop) : Prop where
  manager : l.mInputManager = initializeInputManager
  console : ∃ elements, (∀ name ∈ Console.guiElements.map Prod.fst, elements name = none) ∧
    Console.initializeGUI.run (Console.constructed elements) = .returned 0 l.console
  running : l.done = false

def messages (ticks : List Tick) : List (List UInt8) :=
  ticks.flatMap fun t => t.logged ++ t.loggedByObjects

end MainLoop

namespace InputManager

variable {keyName : Int32 → List UInt8} {m m' : InputManager}

def after (m : InputManager) (evt : Event) : InputManager :=
  { m with mActiveActions := m.flagged (m.treated evt).1 (m.treated evt).2 }

theorem dispatch_controls (keyName : Int32 → List UInt8) (m : InputManager) (evt : Event)
    (r₁ r₂ : Responses) :
    ∃ m' sent, (m.dispatch keyName evt r₁ r₂).value = some (m', sent) ∧
      SameControls (m.after evt) m' := by
  cases evt with
  | keyDown sym repeats =>
      by_cases fresh : repeats = 0
      · obtain ⟨m₁, sent, returned, first⟩ := m.setAction_spec (m.mKeyboardMap sym) true r₁
        have second := broadcast_sameControls (CString.chars "onKeydown")
          [.string (keyName sym), .int 1] r₂ 0 m₁
        refine ⟨_, _, by rw [dispatch, if_pos fresh, onKeyDown, bind_value_of returned]; rfl, ?_⟩
        have mapped : m.after (.keyDown sym repeats) =
            { m with mActiveActions := m.flagged (m.mKeyboardMap sym) true } := by
          simp only [after, treated, assigned, if_pos fresh]
        rw [mapped]
        exact first.trans second
      · refine ⟨m, [], by rw [dispatch, if_neg fresh]; rfl, ?_⟩
        simp only [after, treated, assigned, if_neg fresh, flagged]
        exact .refl m
  | keyUp sym repeats =>
      by_cases fresh : repeats = 0
      · obtain ⟨m₁, sent, returned, same⟩ := m.setAction_spec (m.mKeyboardMap sym) false r₁
        refine ⟨m₁, sent, by rw [dispatch, if_pos fresh, onKeyUp, returned], ?_⟩
        simpa [after, treated, assigned, fresh] using same
      · refine ⟨m, [], by rw [dispatch, if_neg fresh]; rfl, ?_⟩
        simp only [after, treated, assigned, if_neg fresh, flagged]
        exact .refl m
  | mouseButtonDown button =>
      obtain ⟨m₁, sent, returned, same⟩ := m.setAction_spec (m.mMouseButtonMap button) true r₁
      exact ⟨m₁, sent, by rw [dispatch, onMouseDown, bind_value_of returned]; rfl, same⟩
  | mouseButtonUp button | joyButtonDown _ _ button =>
      obtain ⟨m₁, sent, returned, same⟩ := m.setAction_spec (m.mMouseButtonMap button) false r₁
      exact ⟨m₁, sent, by rw [dispatch, onMouseUp, bind_value_of returned]; rfl, same⟩
  | joyButtonUp which button =>
      obtain ⟨m₁, sent, returned, same⟩ := m.setAction_spec (m.mJoyButtonMap button) false r₁
      exact ⟨m₁, sent, by rw [dispatch, onJoyButtonUp, bind_value_of returned]; rfl, same⟩
  | quit | joyAxisMotion _ _ _ | other => exact ⟨m, [], rfl, .refl m⟩

theorem SameControls.after (same : SameControls m m') (evt : Event) :
    SameControls (m.after evt) (m'.after evt) := by
  have treated : m'.treated evt = m.treated evt := by
    cases evt <;> simp only [InputManager.treated, assigned, same.keyboard, same.mouse,
      same.joystick]
  refine ⟨?_, same.keyboard, same.mouse, same.joystick⟩
  change m'.flagged (m'.treated evt).1 (m'.treated evt).2 = _
  rw [treated]
  cases mapped : (m.treated evt).1 with
  | none => simpa [InputManager.after, mapped, flagged] using same.actions
  | some action => simp [InputManager.after, mapped, flagged, same.actions]

theorem SameControls.symm (same : SameControls m m') : SameControls m' m :=
  ⟨same.actions.symm, same.keyboard.symm, same.mouse.symm, same.joystick.symm⟩

theorem SameControls.afterAll (same : SameControls m m') (ps : List Pending) :
    SameControls (ps.foldl (fun m p => m.after p.event) m)
      (ps.foldl (fun m p => m.after p.event) m') := by
  induction ps generalizing m m' with
  | nil => exact same
  | cons p ps ih => exact ih (same.after p.event)

/-- One call of `update`: the first event is treated, and only a quit is reported. -/
theorem updatePending_controls (keyName : Int32 → List UInt8) (m : InputManager)
    (queue : List Pending) :
    ∃ code m' sent, (m.updatePending keyName queue).value = some (code, m', sent) ∧
      (code ≠ 0 ↔ queue.head?.map Pending.event = some .quit) ∧
      SameControls (queue.head?.toList.foldl (fun m p => m.after p.event) m) m' := by
  cases queue with
  | nil => exact ⟨0, m, [], rfl, by simp, .refl m⟩
  | cons p queue =>
      by_cases quit : p.event = .quit
      · refine ⟨1, m, [], by rw [updatePending, quit]; rfl, by simp [quit], ?_⟩
        simp only [List.head?_cons, Option.toList_some, List.foldl_cons, List.foldl_nil, quit]
        exact .refl m
      · obtain ⟨m', sent, first, same⟩ :=
          dispatch_controls keyName m p.event p.actionResponses p.keyResponses
        refine ⟨0, m', sent, ?_, by simp [quit], same⟩
        rw [updatePending_cons quit]
        change (m.dispatch keyName _ _ _).value.map _ = _
        rw [first]
        rfl

def HandledInBounds (m : InputManager) (p : Pending) : Prop :=
  BoundsGuard m (.update (some p.event) p.actionResponses p.keyResponses)

theorem SameControls.handledInBounds (same : SameControls m m') (p : Pending) :
    HandledInBounds m' p ↔ HandledInBounds m p := by
  simp only [HandledInBounds, BoundsGuard, same.keyboard, same.mouse, same.joystick]

theorem afterAll_handledInBounds (ps : List Pending) (p : Pending) :
    HandledInBounds (ps.foldl (fun m p => m.after p.event) m) p ↔ HandledInBounds m p := by
  induction ps generalizing m with
  | nil => exact Iff.rfl
  | cons first ps ih => exact (ih (m := m.after first.event)).trans Iff.rfl

theorem Flagged.updatePending_inBounds (flagged : m.Flagged) (queue : List Pending) :
    (m.updatePending keyName queue).InBounds ↔ ∀ p ∈ queue.head?.toList, HandledInBounds m p := by
  cases queue with
  | nil => exact iff_of_true (pure_inBounds _) (by simp)
  | cons p queue =>
      rw [List.head?_cons, Option.toList_some, List.forall_mem_singleton]
      exact (update_inBounds keyName p.event _ _).trans (dispatch_inBounds flagged.size ..)

theorem Flagged.of_controls (flagged : m.Flagged) (same : SameControls m m') : m'.Flagged :=
  ⟨same.actions ▸ flagged.size, same.actions ▸ flagged.written⟩

theorem Flagged.after (flagged : m.Flagged) (evt : Event) : (m.after evt).Flagged :=
  flagged.of_flagged rfl

theorem Flagged.afterAll (flagged : m.Flagged) (ps : List Pending) :
    (ps.foldl (fun m p => m.after p.event) m).Flagged := by
  induction ps generalizing m with
  | nil => exact flagged
  | cons p ps ih => exact ih (flagged.after p.event)

theorem Flagged.actionIsActive_run (flagged : m.Flagged) {a : InputActions}
    (entry : a.index < numActions) :
    ∃ active, (m.actionIsActive a).value.join = some active ∧ (m.Active a ↔ active = true) := by
  have inside : a.index < m.mActiveActions.length := by rwa [flagged.size]
  have cell := List.getElem?_eq_getElem inside
  cases value : m.mActiveActions[a.index] with
  | none => exact absurd (value ▸ List.getElem_mem inside) flagged.written
  | some active =>
      rw [value] at cell
      refine ⟨active, ?_, ?_⟩
      · change (some (m.mActiveActions[a.index]?.join)).join = _
        rw [cell]
        rfl
      · rw [Active, cell, Option.some.injEq, Option.some.injEq]

end InputManager

namespace MainLoop

structure Displays (l : MainLoop) (all : List (List UInt8)) (stats : Stats) : Prop where
  visible : l.console.overlay = some true ↔ l.mInputManager.Active .debug
  lines : l.mInputManager.Active .debug →
    l.console.Shows (all.rtake Console.mNumRecentLogMessages)
  slots : ∀ i < 6, l.console.elements (Console.slotName i) = (Console.debugStrings stats)[i]?

/-- The pass polls a quit event, or finds the key down that it asks for. -/
def Ends (l : MainLoop) (t : Tick) : Prop :=
  (l.queue ++ t.arrivals).head?.map Pending.event = some .quit ∨ t.keyboard.done

def InBounds (l : MainLoop) (t : Tick) : Prop :=
  ∀ p ∈ (l.queue ++ t.arrivals).head?.toList, l.mInputManager.HandledInBounds p

structure Formed (l : MainLoop) (all : List (List UInt8)) : Prop where
  flagged : l.mInputManager.Flagged
  console : l.console.Follows all

structure Passed (l : MainLoop) (t : Tick) (all : List (List UInt8)) (l' : MainLoop) : Prop where
  queue : l'.queue = (l.queue ++ t.arrivals).tail
  controls : SameControls
    ((l.queue ++ t.arrivals).head?.toList.foldl (fun m p => m.after p.event) l.mInputManager)
    l'.mInputManager
  done : l'.done = true ↔ l.done = true ∨ l.Ends t
  formed : Formed l' (all ++ (t.logged ++ t.loggedByObjects))
  displays : Displays l' (all ++ (t.logged ++ t.loggedByObjects)) t.stats

section runs

variable {keyName : Int32 → List UInt8} {l l' : MainLoop} {all : List (List UInt8)}

theorem onConsole_run {α : Type} {p : ConsoleProc α} {a : α} {c : Console}
    (returned : p.run l.console = .returned a c) :
    (onConsole p).run l = .returned a { l with console := c } :=
  within_returned.mpr ⟨c, returned, rfl⟩

theorem notify_run {c : Console} (follows : c.Follows all) (sent : List Notification) :
    ∃ c', (notify sent).run c = .returned () c' ∧ c'.Follows all := by
  induction sent generalizing c with
  | nil => exact ⟨c, rfl, follows⟩
  | cons n sent ih =>
      cases n with
      | scriptEvent listener method message => exact ih follows
      | onAction action actionState =>
          obtain ⟨c₁, first, next⟩ := Console.onAction_run follows action actionState
          obtain ⟨c', rest, ended⟩ := ih next
          exact ⟨c', (bind_of_returned first _).trans rest, ended⟩

theorem updateInput_run (keyName : Int32 → List UInt8) (formed : Formed l all) {t : Tick}
    (inBounds : l.InBounds t) :
    ∃ l', (updateInput keyName t.arrivals).run l = .returned () l' ∧ Formed l' all ∧
      l'.queue = (l.queue ++ t.arrivals).tail ∧
      SameControls ((l.queue ++ t.arrivals).head?.toList.foldl (fun m p => m.after p.event)
        l.mInputManager) l'.mInputManager ∧
      (l'.done = true ↔ l.done = true ∨
        (l.queue ++ t.arrivals).head?.map Pending.event = some .quit) := by
  obtain ⟨code, m, sent, updated, quit, same⟩ := updatePending_controls keyName
    l.mInputManager (l.queue ++ t.arrivals)
  obtain ⟨c, notified, follows⟩ := notify_run formed.console sent
  refine ⟨⟨m, (l.queue ++ t.arrivals).tail, c, l.done || code ≠ 0⟩, ?_,
    ⟨(formed.flagged.afterAll _).of_controls same, follows⟩, rfl, same, ?_⟩
  · rw [updateInput, bind_get_run,
      bind_of_returned (require_pos (formed.flagged.updatePending_inBounds _ |>.mpr inBounds) ..),
      updated, bind_some_run, bind_modify_run]
    exact onConsole_run notified
  · rw [← quit]
    simp

theorem heed_formed (formed : Formed l all) (t : Tick) :
    Formed (heed t l) (all ++ t.logged) :=
  ⟨formed.flagged.of_controls (register_sameControls ..), formed.console.logged t.logged⟩

theorem pollEscape_run (keyboard : Keyboard) :
    ∃ escape, (pollEscape keyboard).run l = .returned () { l with done := l.done || escape } ∧
      (keyboard.done ↔ escape = true) := by
  have asked : keyboard.getKeystate Keyboard.sdlkEscape =
      some (keyboard.state (Keyboard.index _ Keyboard.escape_inRange)) :=
    dif_pos Keyboard.escape_inRange
  refine ⟨_, by rw [pollEscape, asked]; rfl, ?_⟩
  rw [Keyboard.done, asked, Option.some.injEq]

theorem updateApplication_run (formed : Formed l all) (t : Tick) :
    ∃ c, (updateApplication t).run l = .returned () { l with console := c } ∧
      c.Follows (all ++ t.loggedByObjects) ∧
      Displays { l with console := c } (all ++ t.loggedByObjects) t.stats := by
  obtain ⟨debug, asked, active⟩ := formed.flagged.actionIsActive_run
    (a := .debug) (by decide)
  obtain ⟨c, updated, follows, shown, slots, lines⟩ :=
    Console.update_run formed.console t.loggedByObjects t.stats debug
  refine ⟨c, ?_, follows, ?_, fun on => lines (active.mp on), slots⟩
  · rw [updateApplication, bind_get_run, asked, bind_some_run]
    exact onConsole_run updated
  · rw [active, shown, Option.some.injEq]

theorem pass_run (keyName : Int32 → List UInt8) (formed : Formed l all) {t : Tick}
    (inBounds : l.InBounds t) :
    ∃ l', (pass keyName t).run l = .returned () l' ∧ Passed l t all l' := by
  obtain ⟨l₁, input, formed₁, queue, controls, done⟩ :=
    updateInput_run keyName formed inBounds
  have formed₂ := heed_formed formed₁ t
  obtain ⟨escape, polled, pressed⟩ := pollEscape_run (l := heed t l₁) t.keyboard
  have formed₃ : Formed { heed t l₁ with done := (heed t l₁).done || escape } (all ++ t.logged) :=
    ⟨formed₂.flagged, formed₂.console⟩
  obtain ⟨c, updated, follows, displays⟩ := updateApplication_run formed₃ t
  rw [List.append_assoc] at follows displays
  refine ⟨{ heed t l₁ with done := (heed t l₁).done || escape, console := c }, ?_, queue,
    controls.trans (register_sameControls ..), ?_, ⟨formed₂.flagged, follows⟩, displays⟩
  · rw [pass, bind_of_returned input, bind_modify_run, bind_of_returned polled, updated]
  · change (l₁.done || escape) = true ↔ _
    rw [Bool.or_eq_true, done, ← pressed, or_assoc]
    rfl

theorem pass_inBounds (formed : Formed l all) {t : Tick}
    (returned : (pass keyName t).run l = .returned () l') : l.InBounds t := by
  by_contra outside
  have unmet : ¬ (l.mInputManager.updatePending keyName (l.queue ++ t.arrivals)).InBounds :=
    (formed.flagged.updatePending_inBounds _).not.mpr outside
  have stopped : (updateInput keyName t.arrivals).run l = .stopped .undefined l := by
    rw [updateInput, bind_get_run, bind_of_stopped (require_neg unmet ..)]
  rw [pass, bind_of_stopped stopped] at returned
  exact nomatch returned

/-- What a step does, and when the loop carries it out. -/
theorem step_iff (keyName : Int32 → List UInt8) (formed : Formed l all) (t : Tick) :
    ((∃ l', step keyName l t = some l') ↔ l.done = false ∧ l.InBounds t) ∧
      ∀ l', step keyName l t = some l' → Passed l t all l' := by
  cases running : l.done with
  | true => simp [step, running]
  | false =>
      have eq : step keyName l t = match (pass keyName t).run l with
          | .returned _ l => some l
          | .stopped .. => none := by
        rw [step, running]
        rfl
      by_cases inBounds : l.InBounds t
      · obtain ⟨l₁, run, passed⟩ := pass_run keyName formed inBounds
        rw [eq, run]
        exact ⟨iff_of_true ⟨l₁, rfl⟩ ⟨rfl, inBounds⟩, fun l' same => Option.some.inj same ▸ passed⟩
      · cases run : (pass keyName t).run l with
        | returned _ l₁ => exact absurd (pass_inBounds formed run) inBounds
        | stopped _ l₁ => simp [eq, run, inBounds]

end runs

def arrivals (ticks : List Tick) : List (List Pending) := ticks.map Tick.arrivals

structure Ran (l : MainLoop) (ticks : List Tick) (all : List (List UInt8)) (l' : MainLoop) :
    Prop where
  queue : l'.queue = waiting l.queue (arrivals ticks)
  controls : SameControls
    ((served l.queue (arrivals ticks)).foldl (fun m p => m.after p.event) l.mInputManager)
    l'.mInputManager
  done : l'.done = true ↔ l.done = true ∨
    (∃ p ∈ served l.queue (arrivals ticks), p.event = .quit) ∨ ∃ t ∈ ticks, t.keyboard.done
  inBounds : ∀ p ∈ served l.queue (arrivals ticks), l.mInputManager.HandledInBounds p
  formed : Formed l' (all ++ messages ticks)

section runs

variable {keyName : Int32 → List UInt8} {l l' : MainLoop} {all : List (List UInt8)}
  {ticks : List Tick}

theorem quit_head? (queue : List Pending) :
    queue.head?.map Pending.event = some .quit ↔ ∃ p ∈ queue.head?.toList, p.event = .quit := by
  cases queue <;> simp

theorem Passed.handledInBounds {t : Tick} (passed : Passed l t all l') (p : Pending) :
    l'.mInputManager.HandledInBounds p ↔ l.mInputManager.HandledInBounds p :=
  (passed.controls.handledInBounds p).trans (afterAll_handledInBounds _ p)

theorem runSteps_ran (formed : Formed l all) (reached : runSteps (step keyName) l ticks = some l') :
    Ran l ticks all l' := by
  induction ticks generalizing l all with
  | nil =>
      obtain rfl := Option.some.inj reached
      refine ⟨rfl, .refl l.mInputManager, ?_, ?_, ?_⟩
      · simp [arrivals, served]
      · simp [arrivals, served]
      · simpa [messages] using formed
  | cons t ticks ih =>
      obtain ⟨l₁, first, rest⟩ := Option.bind_eq_some_iff.mp reached
      have carriedOut := (step_iff keyName formed t).1.mp ⟨l₁, first⟩
      have passed := (step_iff keyName formed t).2 l₁ first
      have ran := ih passed.formed rest
      refine ⟨ran.queue.trans ?_, ?_, ?_, ?_, ?_⟩
      · rw [passed.queue]
        rfl
      · have controls := (passed.controls.afterAll (served l₁.queue (arrivals ticks))).trans
          ran.controls
        rw [passed.queue, ← List.foldl_append] at controls
        exact controls
      · rw [ran.done, passed.done, Ends, quit_head?, passed.queue]
        simp only [arrivals, List.map_cons, served, List.mem_append, or_and_right, exists_or,
          List.mem_cons, exists_eq_left]
        rw [or_assoc, or_or_or_comm]
      · intro p member
        rcases List.mem_append.mp member with now | later
        · exact carriedOut.2 p now
        · exact (passed.handledInBounds p).mp (ran.inBounds p (passed.queue ▸ later))
      · have later := ran.formed
        rw [List.append_assoc] at later
        exact later

theorem going_iff (keyName : Int32 → List UInt8) (formed : Formed l all)
    (running : l.done = false) :
    (∃ l', runSteps (step keyName) l ticks = some l' ∧ l'.done = false) ↔
      (∀ p ∈ served l.queue (arrivals ticks), l.mInputManager.HandledInBounds p) ∧
        (∀ p ∈ served l.queue (arrivals ticks), p.event ≠ .quit) ∧
        ∀ t ∈ ticks, ¬ t.keyboard.done := by
  constructor
  · rintro ⟨l', reached, going⟩
    have ran := runSteps_ran formed reached
    have ended := ran.done.not.mp (by simp [going])
    exact ⟨ran.inBounds, fun p member quit => ended (.inr (.inl ⟨p, member, quit⟩)),
      fun t member down => ended (.inr (.inr ⟨t, member, down⟩))⟩
  · rintro ⟨inBounds, noQuit, noKey⟩
    induction ticks generalizing l all with
    | nil => exact ⟨l, rfl, running⟩
    | cons t ticks ih =>
        obtain ⟨l₁, first⟩ := (step_iff keyName formed t).1.mpr
          ⟨running, fun p member => inBounds p (List.mem_append_left _ member)⟩
        have passed := (step_iff keyName formed t).2 l₁ first
        have later : ∀ p ∈ served l₁.queue (arrivals ticks),
            p ∈ served l.queue (arrivals (t :: ticks)) :=
          fun p member => List.mem_append_right _ (passed.queue ▸ member)
        have going : l₁.done = false := by
          rw [Bool.eq_false_iff, ne_eq, passed.done, Ends, quit_head?]
          rintro (left | ⟨p, member, quit⟩ | down)
          · exact absurd (running.symm.trans left) (by decide)
          · exact noQuit p (List.mem_append_left _ member) quit
          · exact noKey t List.mem_cons_self down
        obtain ⟨l', rest, ended⟩ := ih passed.formed going
          (fun p member => (passed.handledInBounds p).mpr (inBounds p (later p member)))
          (fun p member => noQuit p (later p member))
          (fun t member => noKey t (List.mem_cons_of_mem _ member))
        exact ⟨l', Option.bind_eq_some_iff.mpr ⟨l₁, first, rest⟩, ended⟩

theorem isSome_iff (formed : Formed l all) (running : l.done = false) :
    (runSteps (step keyName) l ticks).isSome ↔
      (∀ p ∈ served l.queue (arrivals ticks), l.mInputManager.HandledInBounds p) ∧
        (∀ p ∈ served l.queue (arrivals ticks.dropLast), p.event ≠ .quit) ∧
        ∀ t ∈ ticks.dropLast, ¬ t.keyboard.done := by
  induction ticks using List.reverseRecOn with
  | nil => simp [runSteps, arrivals, served]
  | append_singleton before t =>
      have split : arrivals (before ++ [t]) = arrivals before ++ [t.arrivals] :=
        List.map_append
      rw [List.dropLast_concat, runSteps_snoc, Option.isSome_iff_exists, split, served_append]
      constructor
      · rintro ⟨l', reached⟩
        obtain ⟨l₁, first, last⟩ := Option.bind_eq_some_iff.mp reached
        have ran := runSteps_ran formed first
        have going := ((step_iff keyName ran.formed t).1.mp ⟨l', last⟩).1
        have rest := ((going_iff keyName formed running).mp ⟨l₁, first, going⟩).2
        have whole := (runSteps_ran formed
          (show runSteps (step keyName) l (before ++ [t]) = some l' by
            rw [runSteps_snoc, reached])).inBounds
        rw [split, served_append] at whole
        exact ⟨whole, rest⟩
      · rintro ⟨inBounds, rest⟩
        obtain ⟨l₁, first, going⟩ := (going_iff keyName formed running).mpr
          ⟨fun p member => inBounds p (List.mem_append_left _ member), rest⟩
        have ran := runSteps_ran formed first
        have own : l₁.InBounds t := by
          intro p member
          rw [ran.queue] at member
          refine (ran.controls.handledInBounds p).mpr ((afterAll_handledInBounds _ p).mpr ?_)
          refine inBounds p (List.mem_append_right _ ?_)
          rwa [served, served, List.append_nil]
        obtain ⟨l', last⟩ := (step_iff keyName ran.formed t).1.mpr ⟨going, own⟩
        exact ⟨l', Option.bind_eq_some_iff.mpr ⟨l₁, first, last⟩⟩

theorem Starts.formed (starts : Starts l) : Formed l [] := by
  obtain ⟨elements, free, made⟩ := starts.console
  obtain ⟨-, same⟩ := Ending.returned.inj ((Console.initializeGUI_returned free).symm.trans made)
  exact ⟨starts.manager ▸ ⟨rfl, by decide⟩, same ▸ Console.created_follows elements⟩

/-- The loop of an application whose overlay manager had no elements, with an event. -/
def started (first : Event) : MainLoop :=
  ⟨initializeInputManager, [⟨first, [], []⟩],
    Console.withElements ⟨[], fun _ => none, some false⟩ Console.guiElements, false⟩

def quiet : Tick := ⟨[], Keyboard.start, [chars "ready"], [], [], ⟨[], [], [], [], [], []⟩⟩

end runs

end MainLoop

end Ssuge

import Ssuge.InputManager
import Ssuge.GuardedRun

/-! The action flags against the controls that are held down. A flag is one boolean,
set by any control of its action and cleared by any, and remapping a control leaves
the flags alone. So the flags follow the held controls until a control is released
while another one keeps its action going, or a held control changes its action. -/

namespace Ssuge.InputManager

open RecordedRun CString GuardedRun

inductive Control
  | key (key : Int32)
  | mouseButton (button : UInt8)
deriving DecidableEq, Repr

def controlMap (m : InputManager) : Control → Option InputActions
  | .key key => m.mKeyboardMap key
  | .mouseButton button => m.mMouseButtonMap button

/-- The input manager and the controls held down on its devices. -/
structure Desk where
  manager : InputManager
  held : List Control

/-- An event of a device, with what the notified scripts register, or a change of a map. -/
inductive InputEvent
  | keyDown (key : Int32) (actionResponses keyResponses : Responses)
  | keyUp (key : Int32) (responses : Responses)
  | mouseDown (button : UInt8) (responses : Responses)
  | mouseUp (button : UInt8) (responses : Responses)
  | mapKey (key : Int32) (action : InputActions)
  | mapMouse (button : UInt8) (action : InputActions)

namespace Desk

/-- A control that is held cannot be pressed. -/
def press (d : Desk) (c : Control) (handled : Run (InputManager × List Notification)) :
    Option Desk :=
  if c ∈ d.held then none else handled.value.map fun (manager, _) => ⟨manager, c :: d.held⟩

def release (d : Desk) (c : Control) (handled : Run (InputManager × List Notification)) :
    Option Desk :=
  if c ∈ d.held then
    handled.value.map fun (manager, _) => ⟨manager, d.held.filter (· ≠ c)⟩
  else none

def step (keyName : Int32 → List UInt8) (d : Desk) : InputEvent → Option Desk
  | .keyDown key actionResponses keyResponses =>
      d.press (.key key) (d.manager.onKeyDown keyName key actionResponses keyResponses)
  | .keyUp key responses => d.release (.key key) (d.manager.onKeyUp key responses)
  | .mouseDown button responses =>
      d.press (.mouseButton button) (d.manager.onMouseDown button responses)
  | .mouseUp button responses =>
      d.release (.mouseButton button) (d.manager.onMouseUp button responses)
  | .mapKey key action => some { d with manager := d.manager.mapKeyAction key action }
  | .mapMouse button action => some { d with manager := d.manager.mapMouseAction button action }

def start : Desk := ⟨constructed, []⟩

/-- An action with an entry is active exactly when a control mapped to it is held. -/
def FollowsControls (d : Desk) : Prop :=
  ∀ a : InputActions, a.index < numActions →
    ((d.manager.actionIsActive a).value = some (some true) ↔
      ∃ c ∈ d.held, d.manager.controlMap c = some a)

/-- Another held control is mapped to the action, or the action has no entry. -/
def Covered (d : Desk) (c : Control) (a : InputActions) : Prop :=
  a.index < numActions → ∃ other ∈ d.held, other ≠ c ∧ d.manager.controlMap other = some a

def Alone (d : Desk) (c : Control) (a : InputActions) : Prop :=
  a.index < numActions → ∀ other ∈ d.held, other ≠ c → d.manager.controlMap other ≠ some a

instance (d : Desk) (c : Control) (a : InputActions) : Decidable (d.Covered c a) :=
  inferInstanceAs (Decidable (_ → _))

instance (d : Desk) (c : Control) (a : InputActions) : Decidable (d.Alone c a) :=
  inferInstanceAs (Decidable (_ → _))

def ReleaseGuard (d : Desk) (c : Control) : Prop :=
  c ∈ d.held → ∀ a ∈ d.manager.controlMap c, d.Alone c a

/-- A held control is remapped to its own action, or other held controls cover the
old action and the new one. -/
def RemapGuard (d : Desk) (c : Control) (a : InputActions) : Prop :=
  c ∈ d.held → d.manager.controlMap c = some a ∨
    d.Covered c a ∧ ∀ old ∈ d.manager.controlMap c, d.Covered c old

instance (d : Desk) (c : Control) : Decidable (d.ReleaseGuard c) :=
  inferInstanceAs (Decidable (_ → _))

instance (d : Desk) (c : Control) (a : InputActions) : Decidable (d.RemapGuard c a) :=
  inferInstanceAs (Decidable (_ → _))

def Guard (d : Desk) : InputEvent → Prop
  | .keyDown .. | .mouseDown .. => True
  | .keyUp key _ => d.ReleaseGuard (.key key)
  | .mouseUp button _ => d.ReleaseGuard (.mouseButton button)
  | .mapKey key action => d.RemapGuard (.key key) action
  | .mapMouse button action => d.RemapGuard (.mouseButton button) action

instance (d : Desk) : (e : InputEvent) → Decidable (d.Guard e)
  | .keyDown .. | .mouseDown .. => isTrue trivial
  | .keyUp key _ => inferInstanceAs (Decidable (d.ReleaseGuard (.key key)))
  | .mouseUp button _ => inferInstanceAs (Decidable (d.ReleaseGuard (.mouseButton button)))
  | .mapKey key action => inferInstanceAs (Decidable (d.RemapGuard (.key key) action))
  | .mapMouse button action =>
      inferInstanceAs (Decidable (d.RemapGuard (.mouseButton button) action))

end Desk

structure Handled (m : InputManager) (c : Control) (state : Bool)
    (handled : Run (InputManager × List Notification)) : Prop where
  returns : ∃ m' sent, handled.value = some (m', sent) ∧
    m'.mActiveActions = m.flagged (m.controlMap c) state ∧ m'.controlMap = m.controlMap

theorem SameControls.controlMap {m m' : InputManager} (same : SameControls m m') :
    m'.controlMap = m.controlMap := by
  funext c
  cases c with
  | key key => exact congrFun same.keyboard key
  | mouseButton button => exact congrFun same.mouse button

theorem onKeyDown_handled (keyName : Int32 → List UInt8) (m : InputManager) (key : Int32)
    (actionResponses keyResponses : Responses) :
    Handled m (.key key) true (m.onKeyDown keyName key actionResponses keyResponses) := by
  obtain ⟨m₁, sent, returned, first⟩ := m.setAction_spec (m.mKeyboardMap key) true actionResponses
  have second := broadcast_sameControls (chars "onKeydown")
    [.string (keyName key), .int 1] keyResponses 0 m₁
  have both := first.trans second
  refine ⟨_, _, by rw [onKeyDown, bind_value_of returned]; rfl, both.actions, ?_⟩
  exact both.controlMap.trans rfl

theorem onKeyUp_handled (m : InputManager) (key : Int32) (responses : Responses) :
    Handled m (.key key) false (m.onKeyUp key responses) := by
  obtain ⟨m₁, sent, returned, same⟩ := m.setAction_spec (m.mKeyboardMap key) false responses
  exact ⟨m₁, sent, returned, same.actions, same.controlMap.trans rfl⟩

theorem onMouseDown_handled (m : InputManager) (button : UInt8) (responses : Responses) :
    Handled m (.mouseButton button) true (m.onMouseDown button responses) := by
  obtain ⟨m₁, sent, returned, same⟩ := m.setAction_spec (m.mMouseButtonMap button) true responses
  exact ⟨m₁, sent, by rw [onMouseDown, bind_value_of returned]; rfl, same.actions,
    same.controlMap.trans rfl⟩

theorem onMouseUp_handled (m : InputManager) (button : UInt8) (responses : Responses) :
    Handled m (.mouseButton button) false (m.onMouseUp button responses) := by
  obtain ⟨m₁, sent, returned, same⟩ := m.setAction_spec (m.mMouseButtonMap button) false responses
  exact ⟨m₁, sent, by rw [onMouseUp, bind_value_of returned]; rfl, same.actions,
    same.controlMap.trans rfl⟩

theorem mapKeyAction_controlMap (m : InputManager) (key : Int32) (action : InputActions) :
    (m.mapKeyAction key action).controlMap =
      Function.update m.controlMap (.key key) (some action) := by
  funext c
  cases c with
  | key other => by_cases same : other = key <;> simp [mapKeyAction, controlMap, same]
  | mouseButton button => simp [mapKeyAction, controlMap]

theorem mapMouseAction_controlMap (m : InputManager) (button : UInt8) (action : InputActions) :
    (m.mapMouseAction button action).controlMap =
      Function.update m.controlMap (.mouseButton button) (some action) := by
  funext c
  cases c with
  | key key => simp [mapMouseAction, controlMap]
  | mouseButton other => by_cases same : other = button <;> simp [mapMouseAction, controlMap, same]

theorem actionIsActive_iff (m : InputManager) (a : InputActions) :
    (m.actionIsActive a).value = some (some true) ↔
      m.mActiveActions[a.index]? = some (some true) := by
  rw [actionIsActive, load_value, Option.some.injEq]
  cases m.mActiveActions[a.index]? <;> simp

theorem flagged_get (m : InputManager) (size : m.mActiveActions.length = numActions)
    (mapped : Option InputActions) (state : Bool) {a : InputActions}
    (entry : a.index < numActions) : (m.flagged mapped state)[a.index]? =
      if mapped = some a then some (some state) else m.mActiveActions[a.index]? := by
  cases mapped with
  | none => simp [flagged]
  | some action =>
      by_cases same : action = a
      · simp [flagged, same, size, entry]
      · have apart : action.index ≠ a.index := fun h => same (InputActions.index_inj h)
        simp [flagged, same, List.getElem?_set_ne apart]

theorem flagged_length (m : InputManager) (mapped : Option InputActions) (state : Bool) :
    (m.flagged mapped state).length = m.mActiveActions.length := by
  cases mapped <;> simp [flagged]

namespace Desk

variable {d d' : Desk} {c : Control} {handled : Run (InputManager × List Notification)}

theorem press_spec (h : Handled d.manager c true handled) (pressed : d.press c handled = some d') :
    d'.held = c :: d.held ∧
      d'.manager.mActiveActions = d.manager.flagged (d.manager.controlMap c) true ∧
      d'.manager.controlMap = d.manager.controlMap := by
  obtain ⟨m', sent, returned, flags, maps⟩ := h
  rw [press] at pressed
  split at pressed
  · simp at pressed
  · rw [returned] at pressed
    obtain rfl := Option.some.inj pressed
    exact ⟨rfl, flags, maps⟩

theorem release_spec (h : Handled d.manager c false handled)
    (released : d.release c handled = some d') :
    c ∈ d.held ∧ d'.held = d.held.filter (· ≠ c) ∧
      d'.manager.mActiveActions = d.manager.flagged (d.manager.controlMap c) false ∧
      d'.manager.controlMap = d.manager.controlMap := by
  obtain ⟨m', sent, returned, flags, maps⟩ := h
  rw [release] at released
  split at released
  next holds =>
    rw [returned] at released
    obtain rfl := Option.some.inj released
    exact ⟨holds, rfl, flags, maps⟩
  · simp at released

theorem release_returns (h : Handled d.manager c false handled) (holds : c ∈ d.held) :
    ∃ d', d.release c handled = some d' := by
  obtain ⟨m', sent, returned, -⟩ := h
  exact ⟨_, by rw [release, if_pos holds, returned]; rfl⟩

section events

variable (size : d.manager.mActiveActions.length = numActions) (follows : d.FollowsControls)
include size follows

theorem followsControls_press (h : Handled d.manager c true handled)
    (pressed : d.press c handled = some d') : d'.FollowsControls := by
  obtain ⟨held, flags, maps⟩ := press_spec h pressed
  intro a entry
  have before := follows a entry
  rw [actionIsActive_iff] at before ⊢
  rw [flags, flagged_get _ size _ _ entry, maps, held, List.exists_mem_cons_iff, ← before]
  by_cases own : d.manager.controlMap c = some a <;> simp [own]

theorem followsControls_release (h : Handled d.manager c false handled)
    (released : d.release c handled = some d') : d'.FollowsControls ↔ d.ReleaseGuard c := by
  obtain ⟨holds, held, flags, maps⟩ := release_spec h released
  constructor
  · intro after _ a mapped entry other member apart otherMapped
    have active := (after a entry).mpr ⟨other, by simp [held, member, apart], by
      rw [maps, otherMapped]⟩
    rw [actionIsActive_iff, flags, flagged_get _ size _ _ entry,
      if_pos (Option.mem_def.mp mapped)] at active
    simp at active
  · intro guard a entry
    have before := follows a entry
    rw [actionIsActive_iff] at before ⊢
    rw [flags, flagged_get _ size _ _ entry, maps, held]
    by_cases own : d.manager.controlMap c = some a
    · have alone := guard holds a own entry
      simpa [own] using alone
    · rw [if_neg own, before]
      constructor
      · rintro ⟨other, member, mapped⟩
        have apart : other ≠ c := by
          rintro rfl
          exact own mapped
        exact ⟨other, by simp [member, apart], mapped⟩
      · rintro ⟨other, member, mapped⟩
        exact ⟨other, (List.mem_filter.mp member).1, mapped⟩

omit size follows in
theorem served_remap {action a : InputActions} (entry : a.index < numActions)
    (guard : d.RemapGuard c action)
    (maps : d'.manager.controlMap = Function.update d.manager.controlMap c (some action)) :
    (∃ other ∈ d.held, d.manager.controlMap other = some a) ↔
      ∃ other ∈ d.held, d'.manager.controlMap other = some a := by
  have others : ∀ other, other ≠ c → d'.manager.controlMap other = d.manager.controlMap other := by
    intro other apart
    rw [maps, Function.update_of_ne apart]
  have own : d'.manager.controlMap c = some action := by rw [maps, Function.update_self]
  by_cases holds : c ∈ d.held
  · rcases guard holds with unchanged | ⟨covered, oldCovered⟩
    · rw [maps, ← unchanged, Function.update_eq_self]
    · constructor
      · rintro ⟨other, member, mapped⟩
        by_cases apart : other = c
        · obtain ⟨cover, inside, different, coverMapped⟩ := oldCovered a (apart ▸ mapped) entry
          exact ⟨cover, inside, (others cover different).trans coverMapped⟩
        · exact ⟨other, member, (others other apart).trans mapped⟩
      · rintro ⟨other, member, mapped⟩
        by_cases apart : other = c
        · obtain rfl := Option.some.inj (own.symm.trans (apart ▸ mapped))
          obtain ⟨cover, inside, -, coverMapped⟩ := covered entry
          exact ⟨cover, inside, coverMapped⟩
        · exact ⟨other, member, (others other apart).symm.trans mapped⟩
  · have apart : ∀ other ∈ d.held, other ≠ c := fun other member same => holds (same ▸ member)
    constructor
    · rintro ⟨other, member, mapped⟩
      exact ⟨other, member, (others other (apart other member)).trans mapped⟩
    · rintro ⟨other, member, mapped⟩
      exact ⟨other, member, (others other (apart other member)).symm.trans mapped⟩

omit size in
theorem followsControls_remap {action : InputActions} (held : d'.held = d.held)
    (flags : d'.manager.mActiveActions = d.manager.mActiveActions)
    (maps : d'.manager.controlMap = Function.update d.manager.controlMap c (some action)) :
    d'.FollowsControls ↔ d.RemapGuard c action := by
  have others : ∀ other, other ≠ c → d'.manager.controlMap other = d.manager.controlMap other := by
    intro other apart
    rw [maps, Function.update_of_ne apart]
  have own : d'.manager.controlMap c = some action := by rw [maps, Function.update_self]
  have same : ∀ a, (d'.manager.actionIsActive a).value = some (some true) ↔
      (d.manager.actionIsActive a).value = some (some true) := by
    intro a
    rw [actionIsActive_iff, actionIsActive_iff, flags]
  constructor
  · intro after holds
    by_cases unchanged : d.manager.controlMap c = some action
    · exact .inl unchanged
    · refine .inr ⟨fun entry => ?_, fun old mapped entry => ?_⟩
      · -- the new action is shown as active, so a control was held for it before
        have active := (after action entry).mpr ⟨c, held ▸ holds, own⟩
        obtain ⟨other, member, mapped⟩ := (follows action entry).mp ((same action).mp active)
        exact ⟨other, member, fun same => unchanged (same ▸ mapped), mapped⟩
      · have active := (same old).mpr ((follows old entry).mpr ⟨c, holds, mapped⟩)
        obtain ⟨other, member, otherMapped⟩ := (after old entry).mp active
        have apart : other ≠ c := by
          rintro rfl
          rw [own] at otherMapped
          exact unchanged (mapped.trans otherMapped.symm)
        exact ⟨other, held ▸ member, apart, (others other apart) ▸ otherMapped⟩
  · intro guard a entry
    rw [same, follows a entry, held]
    exact served_remap entry guard maps

end events

theorem step_size {keyName : Int32 → List UInt8} {e : InputEvent}
    (size : d.manager.mActiveActions.length = numActions) (returned : d.step keyName e = some d') :
    d'.manager.mActiveActions.length = numActions := by
  cases e with
  | keyDown key r₁ r₂ =>
      rw [(press_spec (onKeyDown_handled ..) returned).2.1, flagged_length, size]
  | keyUp key r => rw [(release_spec (onKeyUp_handled ..) returned).2.2.1, flagged_length, size]
  | mouseDown button r =>
      rw [(press_spec (onMouseDown_handled ..) returned).2.1, flagged_length, size]
  | mouseUp button r =>
      rw [(release_spec (onMouseUp_handled ..) returned).2.2.1, flagged_length, size]
  | mapKey key action =>
      obtain rfl := Option.some.inj returned
      exact size
  | mapMouse button action =>
      obtain rfl := Option.some.inj returned
      exact size

/-- One event: the flags go on following the controls exactly when the guard holds. -/
theorem step_followsControls {keyName : Int32 → List UInt8} {e : InputEvent}
    (size : d.manager.mActiveActions.length = numActions) (follows : d.FollowsControls) :
    (∀ d', d.step keyName e = some d' → d'.FollowsControls) ↔ d.Guard e := by
  have releaseCase : ∀ {c handled}, Handled d.manager c false handled →
      ((∀ d', d.release c handled = some d' → d'.FollowsControls) ↔ d.ReleaseGuard c) := by
    intro c handled h
    constructor
    · intro after holds
      obtain ⟨d', released⟩ := release_returns h holds
      exact (followsControls_release size follows h released).mp (after d' released) holds
    · exact fun guard d' released => (followsControls_release size follows h released).mpr guard
  cases e with
  | keyDown key r₁ r₂ =>
      exact iff_of_true (fun d' pressed =>
        followsControls_press size follows (onKeyDown_handled ..) pressed) trivial
  | mouseDown button r =>
      exact iff_of_true (fun d' pressed =>
        followsControls_press size follows (onMouseDown_handled ..) pressed) trivial
  | keyUp key r => exact releaseCase (onKeyUp_handled ..)
  | mouseUp button r => exact releaseCase (onMouseUp_handled ..)
  | mapKey key action =>
      simp only [step, Option.some.injEq, forall_eq']
      exact followsControls_remap follows rfl rfl (mapKeyAction_controlMap ..)
  | mapMouse button action =>
      simp only [step, Option.some.injEq, forall_eq']
      exact followsControls_remap follows rfl rfl (mapMouseAction_controlMap ..)

theorem start_followsControls : start.FollowsControls := by
  intro a entry
  refine iff_of_false ?_ (by simp [start])
  rw [actionIsActive_iff]
  simp [start, constructed, List.getElem?_replicate]

/-- From the constructed manager on, over any events: every action with an entry is
active exactly while one of its controls is held, if and only if every release is
of the last held control of its action and every held control is remapped to its
own action or between actions that other held controls cover. -/
theorem followsControls_iff (keyName : Int32 → List UInt8) (events : List InputEvent) :
    Throughout (step keyName) FollowsControls start events ↔
      Along (step keyName) Guard start events :=
  throughout_iff (I := fun d => d.manager.mActiveActions.length = numActions)
    (L := fun _ => True) (fun _ _ size follows _ => step_followsControls size follows)
    (fun _ _ _ size _ _ _ returned => step_size size returned) rfl start_followsControls
    (fun _ _ => trivial)

/-- Two keys of one action: releasing the first clears its flag while the second is
held. -/
theorem not_followsControls :
    ¬ Throughout (step fun _ => chars "W") FollowsControls start
      [.mapKey 119 .actionUp, .mapKey 105 .actionUp, .keyDown 119 [] [], .keyDown 105 [] [],
        .keyUp 119 []] := by
  intro all
  have after := all _ (List.prefix_refl _) _ rfl .actionUp (by decide)
  have inactive := after.mpr ⟨.key 105, by decide, by decide⟩
  exact absurd inactive (by decide)

end Desk

end Ssuge.InputManager

import Mathlib.Algebra.Order.Ring.Rat
import Mathlib.Tactic.Linarith
import Ssuge.InputManager

/-! The joysticks of the input manager: the constructor opens them, the axis getters poll
them, and the destructor closes them. A handle is the number of the device that it was
opened for. To write past the end of `mJoy`, to read an element that was not written or is
not there, and to pass on a handle that is closed is undefined. Numbers are exact. -/

namespace Ssuge.Joysticks

abbrev Handle := Nat

/-- An element of `mJoy`: `none` was never written, `some none` is NULL. -/
abbrev Slot := Option (Option Handle)

inductive InputDevices
  | dJoy1 | dJoy2 | dJoy3 | dJoy4 | dKeyboard | dMouse | dAll
deriving DecidableEq, Repr

def InputDevices.index : InputDevices → Nat
  | dJoy1 => 0
  | dJoy2 => 1
  | dJoy3 => 2
  | dJoy4 => 3
  | dKeyboard => 4
  | dMouse => 5
  | dAll => 6

structure Polling where
  mNumJoysticks : UInt32
  mJoy : List Slot
  mActiveActions : InputActions → Bool
  mMouseOffsetX : Int
  mMouseOffsetY : Int
  mWidth : Int
  mHeight : Int
  mMouseSensitivity : ℚ
  mJoystickSensitivity : ℚ
  mJoystickDeadzone : ℚ

/-- What SDL knows: how many joysticks there are now, which handles are open, and where
their axes are. -/
structure Sdl where
  numJoysticks : Int32
  opened : List Handle
  axis : Handle → Nat → Int16

/-- `for (i = 0; i < mNumJoysticks; i++) mJoy[i] = SDL_JoystickOpen(i);` -/
def openLoop (opens : Nat → Bool) : Nat → List Slot × List Handle → Option (List Slot × List Handle)
  | 0, s => some s
  | i + 1, s => do
      let (mJoy, opened) ← openLoop opens i s
      if i < mJoy.length then
        if opens i then some (mJoy.set i (some (some i)), i :: opened)
        else some (mJoy.set i (some none), opened)
      else none

/-- `InputManager(int w, int h)`. The array is cleared only if there are joysticks, and the
mouse offsets `x` and `y` are those that were in memory before. -/
def constructed (w h x y : Int) (reported : Int32) (opens : Nat → Bool) :
    Option (Polling × List Handle) := do
  let mNumJoysticks := reported.toUInt32
  let (mJoy, opened) ←
    if 0 < mNumJoysticks then
      openLoop opens mNumJoysticks.toNat (List.replicate 4 (some none), [])
    else some (List.replicate 4 none, [])
  some (⟨mNumJoysticks, mJoy, fun _ => false, x, y, w, h, 1 / 100, 1, 1 / 5⟩, opened)

def rescale (deadzone test : ℚ) : ℚ :=
  if deadzone < test then (test - deadzone) / (1 - deadzone)
  else if test < -deadzone then -((-test) - deadzone) / (1 - deadzone)
  else 0

/-- One getter's way to poll the joysticks: the device that excludes them, the axis, what
is tested against the dead zone, and whether a single joystick ends the loop. -/
structure Poll where
  excluded : InputDevices
  axis : Nat
  test : Polling → ℚ → ℚ
  returns : Bool

/-- The loop over the rest of the slots, from number `i` on. The value is final when the
getter returns from within. -/
def slotLoop (g : Poll) (m : Polling) (sdl : Sdl) (device : InputDevices) :
    Nat → List Slot → ℚ → Option (ℚ × Bool)
  | _, [], value => some (value, false)
  | _, none :: _, _ => none
  | i, some none :: rest, value => slotLoop g m sdl device (i + 1) rest value
  | i, some (some h) :: rest, value =>
      if device = .dAll ∨ device.index = i then
        if h ∈ sdl.opened then
          let test := g.test m ((sdl.axis h g.axis).toInt / 32767)
          let value := rescale m.mJoystickDeadzone test
          if g.returns ∧ device.index = i then some (value, true)
          else slotLoop g m sdl device (i + 1) rest value
        else none
      else slotLoop g m sdl device (i + 1) rest value

def joystick (g : Poll) (m : Polling) (sdl : Sdl) (device : InputDevices) : Option (ℚ × Bool) :=
  if device ≠ g.excluded ∧ 0 < sdl.numJoysticks then slotLoop g m sdl device 0 m.mJoy 0
  else some (0, false)

/-- The keyboard takes precedence over the joysticks. -/
def keyboard (device : InputDevices) (negative positive : Bool) (value : ℚ) : ℚ :=
  if device = .dKeyboard ∨ device = .dAll then
    if negative && !positive then -1
    else if !negative && positive then 1
    else if negative && positive then 0
    else value
  else value

/-- The mouse, if it has the larger value. -/
def mouse (device : InputDevices) (test value : ℚ) : ℚ :=
  if device = .dMouse ∨ device = .dAll then
    let test := if test < -1 then -1 else test
    let test := if 1 < test then 1 else test
    if |value| < |test| then test else value
  else value

def horiz : Poll := ⟨.dKeyboard, 0, fun _ x => x, true⟩

def vert : Poll := ⟨.dKeyboard, 1, fun _ x => -x, true⟩

def rHoriz : Poll := ⟨.dMouse, 2, fun m x => m.mJoystickSensitivity * x, false⟩

def rVert : Poll := ⟨.dMouse, 3, fun m x => -(m.mJoystickSensitivity * x), false⟩

def getHorizAxis (m : Polling) (sdl : Sdl) (device : InputDevices) : Option ℚ := do
  let (value, returned) ← joystick horiz m sdl device
  if returned then some value
  else some (keyboard device (m.mActiveActions .actionLeft) (m.mActiveActions .actionRight) value)

def getVertAxis (m : Polling) (sdl : Sdl) (device : InputDevices) : Option ℚ := do
  let (value, returned) ← joystick vert m sdl device
  if returned then some value
  else some (keyboard device (m.mActiveActions .actionDown) (m.mActiveActions .actionUp) value)

def getRHorizAxis (m : Polling) (sdl : Sdl) (device : InputDevices) : Option ℚ := do
  let (value, _) ← joystick rHoriz m sdl device
  some (mouse device ((m.mMouseOffsetX : ℚ) / m.mWidth / m.mMouseSensitivity) value)

def getRVertAxis (m : Polling) (sdl : Sdl) (device : InputDevices) : Option ℚ := do
  let (value, _) ← joystick rVert m sdl device
  some (mouse device (-((m.mMouseOffsetY : ℚ) / m.mHeight) / m.mMouseSensitivity) value)

inductive Getter
  | horiz | vert | rHoriz | rVert
deriving DecidableEq, Repr

namespace Getter

def poll : Getter → Poll
  | horiz => Joysticks.horiz
  | vert => Joysticks.vert
  | rHoriz => Joysticks.rHoriz
  | rVert => Joysticks.rVert

def get : Getter → Polling → Sdl → InputDevices → Option ℚ
  | horiz => getHorizAxis
  | vert => getVertAxis
  | rHoriz => getRHorizAxis
  | rVert => getRVertAxis

def rest : Getter → Polling → InputDevices → ℚ × Bool → ℚ
  | horiz, m, device, (value, returned) => if returned then value else
      keyboard device (m.mActiveActions .actionLeft) (m.mActiveActions .actionRight) value
  | vert, m, device, (value, returned) => if returned then value else
      keyboard device (m.mActiveActions .actionDown) (m.mActiveActions .actionUp) value
  | rHoriz, m, device, (value, _) =>
      mouse device ((m.mMouseOffsetX : ℚ) / m.mWidth / m.mMouseSensitivity) value
  | rVert, m, device, (value, _) =>
      mouse device (-((m.mMouseOffsetY : ℚ) / m.mHeight) / m.mMouseSensitivity) value

theorem get_eq (g : Getter) (m : Polling) (sdl : Sdl) (device : InputDevices) :
    g.get m sdl device = (joystick g.poll m sdl device).map (g.rest m device) := by
  cases g with
  | horiz =>
      rw [get, getHorizAxis, poll]
      rcases joystick Joysticks.horiz m sdl device with _ | ⟨value, _ | _⟩ <;> rfl
  | vert =>
      rw [get, getVertAxis, poll]
      rcases joystick Joysticks.vert m sdl device with _ | ⟨value, _ | _⟩ <;> rfl
  | rHoriz =>
      rw [get, getRHorizAxis, poll]
      cases joystick Joysticks.rHoriz m sdl device <;> rfl
  | rVert =>
      rw [get, getRVertAxis, poll]
      cases joystick Joysticks.rVert m sdl device <;> rfl

end Getter

structure Handles where
  opened : List Handle
  closed : List Handle

def getAttached (handles : Handles) (attached : Handle → Bool) : Option Handle → Option Bool
  | none => some false
  | some h => if h ∈ handles.opened then some (attached h) else none

def close (handles : Handles) : Option Handle → Option Handles
  | none => some handles
  | some h =>
      if h ∈ handles.opened then some ⟨handles.opened.erase h, h :: handles.closed⟩ else none

/-- The loop of the destructor, which closes slot 1 whatever slot it is at. -/
def closeLoop (mJoy : List Slot) (attached : Handle → Bool) : Nat → Handles → Option Handles
  | 0, handles => some handles
  | i + 1, handles => do
      let handles ← closeLoop mJoy attached i handles
      let joy ← mJoy[i]?.join
      if ← getAttached handles attached joy then close handles (← mJoy[1]?.join)
      else some handles

/-- `~InputManager()` while SDL reports the given number of joysticks. -/
def destroy (m : Polling) (handles : Handles) (numJoysticks : Int32) (attached : Handle → Bool) :
    Option Handles :=
  closeLoop m.mJoy attached numJoysticks.toInt.toNat handles

structure AxisCall where
  getter : Getter
  device : InputDevices
  numJoysticks : Int32
  axis : Handle → Nat → Int16

def AxisCall.polls (c : AxisCall) : Prop :=
  c.device ≠ c.getter.poll.excluded ∧ 0 < c.numJoysticks

instance (c : AxisCall) : Decidable c.polls := inferInstanceAs (Decidable (_ ∧ _))

/-- The constructor stays in `mJoy`, the getters use open handles only, and every handle
that was opened is closed once. -/
def HandlesRight (w h x y : Int) (reported : Int32) (opens : Nat → Bool) (calls : List AxisCall)
    (numJoysticks : Int32) (attached : Handle → Bool) : Prop :=
  ∃ m opened, constructed w h x y reported opens = some (m, opened) ∧
    (∀ c ∈ calls, (c.getter.get m ⟨c.numJoysticks, opened, c.axis⟩ c.device).isSome) ∧
    ∃ handles, destroy m ⟨opened, []⟩ numJoysticks attached = some handles ∧
      ∀ h ∈ opened, handles.closed.count h = 1

/-- There are at most four joysticks at both ends. If there were none at first nobody polls
and there are none at the end. No handle is opened but the second, and it is attached at
the end. -/
structure HandlesGuard (reported : Int32) (opens : Nat → Bool) (calls : List AxisCall)
    (numJoysticks : Int32) (attached : Handle → Bool) : Prop where
  room : 0 ≤ reported.toInt ∧ reported.toInt ≤ 4
  slots : numJoysticks.toInt ≤ 4
  none_first : reported.toInt = 0 → numJoysticks.toInt ≤ 0 ∧ ∀ c ∈ calls, ¬ c.polls
  second : ∀ i : Nat, (i : Int) < reported.toInt → opens i →
    i = 1 ∧ 2 ≤ numJoysticks.toInt ∧ attached 1

/-- The loop writes the slots below its bound and opens their handles. -/
theorem openLoop_spec (opens : Nat → Bool) (n : Nat) (mJoy : List Slot) :
    openLoop opens n (mJoy, []) = if n ≤ mJoy.length then
      some ((List.range n).map (fun i => some (if opens i then some i else none)) ++ mJoy.drop n,
        ((List.range n).filter opens).reverse) else none := by
  induction n with
  | zero => simp [openLoop]
  | succ n ih =>
      set slot : Nat → Slot := fun i => some (if opens i then some i else none) with slot_eq
      rw [openLoop, ih]
      by_cases inside : n < mJoy.length
      · have write : ∀ v, ((List.range n).map slot ++ mJoy.drop n).set n v =
            (List.range n).map slot ++ v :: mJoy.drop (n + 1) := by
          intro v
          rw [List.set_append_right _ _ (by simp), List.length_map, List.length_range,
            Nat.sub_self, List.drop_eq_getElem_cons inside, List.set_cons_zero]
        have size : n < ((List.range n).map slot ++ mJoy.drop n).length := by
          simp only [List.length_append, List.length_map, List.length_range, List.length_drop]
          omega
        rw [if_pos (Nat.le_of_lt inside), if_pos (Nat.succ_le_of_lt inside), List.range_succ]
        simp only [Option.bind_eq_bind, Option.bind_some, if_pos size, write]
        by_cases opened : opens n
        · simp [opened, slot_eq]
        · simp [opened, slot_eq]
      · rw [if_neg (show ¬ n + 1 ≤ mJoy.length by omega)]
        by_cases last : n ≤ mJoy.length
        · have size : ¬ n < ((List.range n).map slot ++ mJoy.drop n).length := by
            simp only [List.length_append, List.length_map, List.length_range, List.length_drop]
            omega
          simp only [if_pos last, Option.bind_eq_bind, Option.bind_some, if_neg size]
        · rw [if_neg last]
          rfl

structure Slots (m : Polling) (opened : List Handle) : Prop where
  size : m.mJoy.length = 4
  slot : ∀ i : Nat, i < 4 → m.mJoy[i]?.join = some (if i ∈ opened then some i else none)

theorem slot_opened (opens : Nat → Bool) (n : Nat) {i : Nat} (inside : i < 4) :
    ((List.range n).map (fun i => some (if opens i then some i else none)) ++
      (List.replicate 4 (some none) : List Slot).drop n)[i]?.join =
        some (if opens i ∧ i < n then some i else none) := by
  by_cases written : i < n
  · rw [List.getElem?_append_left (by simpa using written)]
    simp [written]
  · have index : n + (i - n) = i := by omega
    rw [List.getElem?_append_right (by simpa using written), List.length_map,
      List.length_range, List.getElem?_drop, List.getElem?_replicate, index]
    simp [written, inside]

theorem toNat_reported (reported : Int32) : reported.toInt = if reported.toUInt32.toNat < 2 ^ 31
    then (reported.toUInt32.toNat : Int) else reported.toUInt32.toNat - 2 ^ 32 := by
  change reported.toBitVec.toInt = if reported.toBitVec.toNat < _ then
    (reported.toBitVec.toNat : Int) else reported.toBitVec.toNat - 2 ^ 32
  have bound := reported.toBitVec.isLt
  rw [BitVec.toInt_eq_toNat_cond]
  split <;> split <;> omega

theorem constructed_cases (w h x y : Int) (reported : Int32) (opens : Nat → Bool) :
    (∃ m, constructed w h x y reported opens = some (m, []) ∧ reported.toInt = 0 ∧
        m.mJoy = List.replicate 4 none) ∨
      (∃ m opened, constructed w h x y reported opens = some (m, opened) ∧ 0 < reported.toInt ∧
        reported.toInt ≤ 4 ∧ Slots m opened ∧ opened.Nodup ∧
          ∀ i, i ∈ opened ↔ (i : Int) < reported.toInt ∧ opens i) ∨
      constructed w h x y reported opens = none ∧ ¬ (0 ≤ reported.toInt ∧ reported.toInt ≤ 4) := by
  have signed := toNat_reported reported
  have bound := reported.toUInt32.toNat_lt
  set n := reported.toUInt32.toNat with n_eq
  by_cases zero : n = 0
  · left
    have unsigned : ¬ 0 < reported.toUInt32 := by
      rw [UInt32.lt_iff_toNat_lt, ← n_eq, zero]
      decide
    refine ⟨_, by rw [constructed, if_neg unsigned]; rfl, by omega, rfl⟩
  · right
    have unsigned : 0 < reported.toUInt32 := by
      rw [UInt32.lt_iff_toNat_lt, ← n_eq]
      exact Nat.pos_of_ne_zero zero
    by_cases room : n ≤ 4
    · left
      have value : reported.toInt = n := by omega
      refine ⟨_, _, by
        rw [constructed, if_pos unsigned, ← n_eq, openLoop_spec,
          if_pos (by simpa using room)]
        rfl, by omega, by omega, ⟨?_, ?_⟩, ?_, ?_⟩
      · simp only [List.length_append, List.length_map, List.length_range, List.length_drop,
          List.length_replicate]
        omega
      · intro i inside
        have cell := slot_opened opens n inside
        rw [cell]
        simp only [List.mem_reverse, List.mem_filter, List.mem_range, and_comm]
      · exact List.pairwise_reverse.mpr ((List.nodup_range.filter _).imp Ne.symm)
      · intro i
        simp only [List.mem_reverse, List.mem_filter, List.mem_range, value, Nat.cast_lt]
    · right
      refine ⟨?_, by omega⟩
      rw [constructed, if_pos unsigned, ← n_eq, openLoop_spec,
        if_neg (by simpa using room)]
      rfl

theorem slotLoop_isSome (g : Poll) (m : Polling) (sdl : Sdl) (device : InputDevices) (i : Nat)
    (slots : List Slot) (value : ℚ)
    (written : ∀ slot ∈ slots, ∃ joy, slot = some joy ∧ ∀ h, joy = some h → h ∈ sdl.opened) :
    (slotLoop g m sdl device i slots value).isSome := by
  induction slots generalizing i value with
  | nil => rfl
  | cons slot slots ih =>
      obtain ⟨joy, rfl, opened⟩ := written slot (by simp)
      have later := fun i value => ih i value fun s member => written s (by simp [member])
      cases joy with
      | none => exact later (i + 1) value
      | some h =>
          rw [slotLoop]
          by_cases wanted : device = .dAll ∨ device.index = i
          · rw [if_pos wanted, if_pos (opened h rfl)]
            dsimp only
            split
            · rfl
            · exact later _ _
          · rw [if_neg wanted]
            exact later _ _

theorem get_isSome (g : Getter) (m : Polling) (sdl : Sdl) (device : InputDevices) :
    (g.get m sdl device).isSome ↔ (device ≠ g.poll.excluded ∧ 0 < sdl.numJoysticks →
      (slotLoop g.poll m sdl device 0 m.mJoy 0).isSome) := by
  rw [g.get_eq, Option.isSome_map, joystick]
  by_cases polls : device ≠ g.poll.excluded ∧ 0 < sdl.numJoysticks
  · rw [if_pos polls]
    exact ⟨fun read _ => read, fun read => read polls⟩
  · rw [if_neg polls]
    exact iff_of_true rfl fun polled => absurd polled polls

theorem Slots.get_isSome {m : Polling} {opened : List Handle} (slots : Slots m opened)
    (g : Getter) (numJoysticks : Int32) (axis : Handle → Nat → Int16) (device : InputDevices) :
    (g.get m ⟨numJoysticks, opened, axis⟩ device).isSome := by
  rw [Joysticks.get_isSome]
  intro _
  apply slotLoop_isSome
  intro slot member
  obtain ⟨i, inside, rfl⟩ := List.getElem_of_mem member
  have cell := slots.slot i (slots.size ▸ inside)
  rw [List.getElem?_eq_getElem inside, Option.join_some] at cell
  refine ⟨_, cell, fun h held => ?_⟩
  split at held
  next present => exact Option.some.inj held ▸ present
  next => simp at held

section closing

variable {mJoy : List Slot} {attached : Handle → Bool}

/-- Only what is in slot 1 is closed, and only at a slot with an attached joystick. -/
theorem closeLoop_closed {n : Nat} {opened : List Handle} {handles : Handles}
    (ended : closeLoop mJoy attached n ⟨opened, []⟩ = some handles) :
    (∀ h ∈ handles.closed, mJoy[1]?.join = some (some h)) ∧
      (handles.closed ≠ [] → ∃ i < n, ∃ h, mJoy[i]?.join = some (some h) ∧ attached h) ∧
      ∀ i < n, (mJoy[i]?.join).isSome := by
  induction n generalizing handles with
  | zero =>
      obtain rfl := Option.some.inj ended
      exact ⟨by simp, by simp, by simp⟩
  | succ n ih =>
      obtain ⟨before, earlier, step⟩ := Option.bind_eq_some_iff.mp ended
      obtain ⟨joy, read, step⟩ := Option.bind_eq_some_iff.mp step
      obtain ⟨answer, asked, step⟩ := Option.bind_eq_some_iff.mp step
      obtain ⟨first, some_attached, readable⟩ := ih earlier
      have readable' : ∀ i < n + 1, (mJoy[i]?.join).isSome := by
        intro i inside
        rcases Nat.lt_succ_iff_lt_or_eq.mp inside with below | rfl
        · exact readable i below
        · rw [read]
          rfl
      cases answer with
      | false =>
          obtain rfl : before = handles := by simpa using step
          exact ⟨first, fun closed => (some_attached closed).imp fun i found =>
            ⟨Nat.lt_succ_of_lt found.1, found.2⟩, readable'⟩
      | true =>
          simp only [if_true] at step
          obtain ⟨target, slot, closing⟩ := Option.bind_eq_some_iff.mp step
          have this_attached : ∃ h, mJoy[n]?.join = some (some h) ∧ attached h := by
            cases joy with
            | none => simp [getAttached] at asked
            | some h =>
                rw [getAttached] at asked
                split at asked
                · exact ⟨h, read, by simpa using asked⟩
                · simp at asked
          refine ⟨fun h member => ?_, fun _ => ⟨n, Nat.lt_succ_self n, this_attached⟩, readable'⟩
          cases target with
          | none =>
              obtain rfl := Option.some.inj closing
              exact first h member
          | some t =>
              rw [close] at closing
              split at closing
              · obtain rfl := Option.some.inj closing
                rcases List.mem_cons.mp member with rfl | older
                · exact slot
                · exact first h older
              · simp at closing

variable (attached) in
theorem closeLoop_second {opened : List Handle}
    (slot : ∀ i : Nat, i < 4 → mJoy[i]?.join = some (if i ∈ opened then some i else none))
    (only : ∀ h ∈ opened, h = 1) {n : Nat} (room : n ≤ 4) :
    closeLoop mJoy attached n ⟨opened, []⟩ = some (if 1 ∈ opened ∧ 2 ≤ n ∧ attached 1 then
      ⟨opened.erase 1, [1]⟩ else ⟨opened, []⟩) := by
  induction n with
  | zero => simp [closeLoop]
  | succ n ih =>
      rw [closeLoop, ih (by omega)]
      simp only [Option.bind_eq_bind, Option.bind_some, slot n (by omega), slot 1 (by omega)]
      by_cases second : n = 1
      · subst second
        by_cases held : 1 ∈ opened
        · by_cases plugged : attached 1
          · simp [getAttached, close, held, plugged]
          · simp [getAttached, held, plugged]
        · simp [getAttached, held]
      · have absent : n ∉ opened := fun member => second (only n member)
        have later : 2 ≤ n + 1 ↔ 2 ≤ n := by omega
        simp only [if_neg absent, getAttached, Option.bind_some, later, Bool.false_eq_true,
          if_false]

end closing

theorem unwritten_get {m : Polling} (cells : m.mJoy = List.replicate 4 none) (c : AxisCall)
    (opened : List Handle) :
    (c.getter.get m ⟨c.numJoysticks, opened, c.axis⟩ c.device).isSome ↔ ¬ c.polls := by
  rw [get_isSome, cells]
  have stuck : slotLoop c.getter.poll m ⟨c.numJoysticks, opened, c.axis⟩ c.device 0
      (List.replicate 4 none) 0 = none := rfl
  rw [stuck]
  exact ⟨fun read polls => absurd (read polls) (by simp), fun idle polls => absurd polls idle⟩

theorem Slots.closeLoop_room {m : Polling} {opened : List Handle} (slots : Slots m opened) {n : Nat}
    {attached : Handle → Bool} {handles : Handles}
    (ended : closeLoop m.mJoy attached n ⟨opened, []⟩ = some handles) : n ≤ 4 := by
  by_contra more
  have past := (closeLoop_closed ended).2.2 4 (by omega)
  rw [List.getElem?_eq_none slots.size.le] at past
  simp at past

theorem Slots.closed_second {m : Polling} {opened : List Handle} (slots : Slots m opened) {n : Nat}
    {attached : Handle → Bool} {handles : Handles}
    (ended : closeLoop m.mJoy attached n ⟨opened, []⟩ = some handles)
    (closed : ∀ h ∈ opened, h ∈ handles.closed) {i : Handle} (held : i ∈ opened) :
    i = 1 ∧ 2 ≤ n ∧ attached 1 := by
  obtain ⟨only, plugged, -⟩ := closeLoop_closed ended
  have second : ∀ j ∈ handles.closed, j = 1 := by
    intro j member
    have first := only j member
    rw [slots.slot 1 (by omega)] at first
    split at first <;> simp at first
    exact first.symm
  have room := slots.closeLoop_room ended
  obtain ⟨j, below, k, slot, attached_k⟩ := plugged (List.ne_nil_of_mem (closed i held))
  -- the attached joystick has an open handle, which was closed too
  rw [slots.slot j (by omega)] at slot
  split at slot
  next held_j =>
    obtain rfl : j = k := Option.some.inj (Option.some.inj slot)
    obtain rfl := second j (closed j held_j)
    exact ⟨second i (closed i held), below, attached_k⟩
  next => simp at slot

/-- Whatever was plugged in at first and later, and whoever polled in between, the handles
are used and released right exactly when none was opened but the second. -/
theorem handlesRight_iff (w h x y : Int) (reported : Int32) (opens : Nat → Bool)
    (calls : List AxisCall) (numJoysticks : Int32) (attached : Handle → Bool) :
    HandlesRight w h x y reported opens calls numJoysticks attached ↔
      HandlesGuard reported opens calls numJoysticks attached := by
  rcases constructed_cases w h x y reported opens with ⟨m, made, zero, cells⟩ |
    ⟨m, opened, made, some_joystick, room, slots, nodup, members⟩ | ⟨stuck, outside⟩
  · constructor
    · rintro ⟨m', opened, made', polled, handles, closed, -⟩
      obtain ⟨rfl, rfl⟩ := Prod.mk.inj (Option.some.inj (made.symm.trans made'))
      have readable := (closeLoop_closed closed).2.2
      rw [cells] at readable
      have none_later : numJoysticks.toInt ≤ 0 := by
        by_contra some_later
        exact absurd (readable 0 (by omega)) (by decide)
      refine ⟨by omega, by omega, fun _ => ⟨none_later, fun c member => ?_⟩, fun i below => ?_⟩
      · exact (unwritten_get cells c []).mp (polled c member)
      · omega
    · intro guard
      obtain ⟨none_later, idle⟩ := guard.none_first zero
      refine ⟨m, [], made, fun c member => (unwritten_get cells c []).mpr (idle c member),
        ⟨[], []⟩, ?_, by simp⟩
      rw [destroy, show numJoysticks.toInt.toNat = 0 by omega]
      rfl
  · constructor
    · rintro ⟨m', opened', made', -, handles, ended, once⟩
      obtain ⟨rfl, rfl⟩ := Prod.mk.inj (Option.some.inj (made.symm.trans made'))
      have four := slots.closeLoop_room ended
      have closed : ∀ i ∈ opened, i ∈ handles.closed := fun i held =>
        List.count_pos_iff.mp (by rw [once i held]; exact Nat.one_pos)
      refine ⟨by omega, by omega, fun zero => by omega, fun i below open_i => ?_⟩
      obtain ⟨second, enough, plugged⟩ :=
        slots.closed_second ended closed ((members i).mpr ⟨below, open_i⟩)
      exact ⟨second, by omega, plugged⟩
    · intro guard
      have only : ∀ j ∈ opened, j = 1 ∧ 2 ≤ numJoysticks.toInt ∧ attached 1 := by
        intro j held
        obtain ⟨below, open_j⟩ := (members j).mp held
        exact guard.second j below open_j
      have four := guard.slots
      have ends := closeLoop_second attached slots.slot
        (fun j held => (only j held).1) (n := numJoysticks.toInt.toNat) (by omega)
      refine ⟨m, opened, made, fun c _ => slots.get_isSome c.getter _ _ _, _, ends, ?_⟩
      intro j held
      obtain ⟨rfl, enough, plugged⟩ := only j held
      rw [if_pos ⟨held, by omega, plugged⟩]
      rfl
  · constructor
    · rintro ⟨m, opened, made, -⟩
      exact absurd (stuck.symm.trans made) (by simp)
    · exact fun guard => absurd guard.room outside

/-- Two joysticks, of which only the second could be opened. -/
theorem handlesRight_second : HandlesRight 640 480 0 0 2 (fun i => i = 1)
    [⟨.horiz, .dAll, 2, fun _ _ => 0⟩] 2 (fun _ => true) :=
  (handlesRight_iff 640 480 0 0 2 (fun i => i = 1) [⟨.horiz, .dAll, 2, fun _ _ => 0⟩] 2
    (fun _ => true)).mpr ⟨by decide, by decide, by decide, fun i below opened =>
      ⟨by simpa using opened, by decide, rfl⟩⟩

/-- One joystick, plugged in all the time, is never closed. Five are too many for the
array, and one that is plugged in later is polled through a slot that was never written. -/
theorem handles_not_right : ¬ HandlesRight 640 480 0 0 1 (fun _ => true) [] 1 (fun _ => true) ∧
    ¬ HandlesRight 640 480 0 0 5 (fun _ => true) [] 0 (fun _ => true) ∧
    ¬ HandlesRight 640 480 0 0 0 (fun _ => true) [⟨.horiz, .dAll, 1, fun _ _ => 0⟩] 0
      (fun _ => true) := by
  refine ⟨?_, ?_, ?_⟩
  · rintro ⟨m, opened, made, -, handles, closed, once⟩
    obtain ⟨rfl, rfl⟩ := Prod.mk.inj (Option.some.inj made)
    obtain rfl := Option.some.inj closed
    exact absurd (once 0 (by decide)) (by decide)
  · rintro ⟨m, opened, made, -⟩
    have returned : (constructed 640 480 0 0 5 fun _ => true).isSome := by
      rw [made]
      rfl
    exact absurd returned (by decide)
  · rintro ⟨m, opened, made, polled, -⟩
    obtain ⟨rfl, rfl⟩ := Prod.mk.inj (Option.some.inj made)
    exact absurd (polled _ (List.mem_singleton.mpr rfl)) (by decide)

end Ssuge.Joysticks

import Mathlib.Algebra.Order.Field.Basic
import Ssuge.Joysticks

/-! The values of the axis getters, on joysticks that are open. The loop over the slots
keeps what the last open one gives, whatever the others gave before, and a raw value of
`-32768` is divided by `32767`. -/

namespace Ssuge.Joysticks

/-- All slots hold open handles or NULL. -/
structure Ready (m : Polling) (sdl : Sdl) : Prop where
  size : m.mJoy.length = 4
  written : ∀ slot ∈ m.mJoy, ∃ joy, slot = some joy ∧ ∀ h, joy = some h → h ∈ sdl.opened

/-- The last open slot that the device stands for. -/
def considered (device : InputDevices) : Nat → List Slot → Option Handle
  | _, [] => none
  | i, slot :: rest =>
      (considered device (i + 1) rest).or
        (if device = .dAll ∨ device.index = i then slot.join else none)

def Poll.tested (g : Poll) (m : Polling) (sdl : Sdl) (h : Handle) : ℚ :=
  g.test m ((sdl.axis h g.axis).toInt / 32767)

def Poll.polled (g : Poll) (m : Polling) (sdl : Sdl) (h : Handle) : ℚ :=
  rescale m.mJoystickDeadzone (g.tested m sdl h)

/-- The handle that decides what a getter takes from the joysticks. -/
def decides (g : Getter) (m : Polling) (sdl : Sdl) (device : InputDevices) : Option Handle :=
  if device ≠ g.poll.excluded ∧ 0 < sdl.numJoysticks then considered device 0 m.mJoy else none

section loop

variable {g : Poll} {m : Polling} {sdl : Sdl} {device : InputDevices}

theorem considered_past {i : Nat} (single : device ≠ .dAll) (past : device.index < i)
    (slots : List Slot) : considered device i slots = none := by
  induction slots generalizing i with
  | nil => rfl
  | cons slot slots ih =>
      have other : ¬ (device = .dAll ∨ device.index = i) := by
        rintro (all | here)
        · exact single all
        · omega
      rw [considered, if_neg other, ih (by omega)]
      rfl

/-- The loop gives what the last slot that counts gives. -/
theorem slotLoop_spec (i : Nat) (slots : List Slot) (value : ℚ) (room : i + slots.length ≤ 4)
    (written : ∀ slot ∈ slots, ∃ joy, slot = some joy ∧ ∀ h, joy = some h → h ∈ sdl.opened) :
    slotLoop g m sdl device i slots value =
      some (((considered device i slots).map (g.polled m sdl)).getD value,
        g.returns && device ≠ .dAll && (considered device i slots).isSome) := by
  induction slots generalizing i value with
  | nil => simp [slotLoop, considered]
  | cons slot slots ih =>
      obtain ⟨joy, rfl, opened⟩ := written slot (by simp)
      rw [List.length_cons] at room
      have later := fun value =>
        ih (i + 1) value (by omega) fun s member => written s (by simp [member])
      cases joy with
      | none =>
          rw [slotLoop, later]
          have here : (if device = .dAll ∨ device.index = i then
              (some none : Slot).join else none) = none := by
            split <;> rfl
          rw [considered, here, Option.or_none]
      | some h =>
          rw [slotLoop, considered]
          by_cases wanted : device = .dAll ∨ device.index = i
          · rw [if_pos wanted, if_pos wanted, if_pos (opened h rfl)]
            dsimp only
            by_cases single : device = .dAll
            · have index : ¬ (g.returns = true ∧ device.index = i) := by
                rintro ⟨-, here⟩
                rw [single, InputDevices.index] at here
                omega
              rw [if_neg index, later, single]
              cases considered .dAll (i + 1) slots <;> simp [Poll.polled, Poll.tested]
            · have here : device.index = i := wanted.resolve_left single
              have none_later : considered device (i + 1) slots = none :=
                considered_past single (by omega) slots
              by_cases returns : g.returns = true
              · simp [returns, here, none_later, single, Poll.polled, Poll.tested]
              · rw [if_neg (fun both => returns both.1), later, none_later]
                simp [returns, Poll.polled, Poll.tested]
          · rw [if_neg wanted, if_neg wanted, later, Option.or_none]

end loop

def joystickValue (g : Getter) (m : Polling) (sdl : Sdl) (device : InputDevices) : ℚ :=
  ((decides g m sdl device).map (g.poll.polled m sdl)).getD 0

theorem Ready.get {m : Polling} {sdl : Sdl} (ready : Ready m sdl) (g : Getter)
    (device : InputDevices) : g.get m sdl device = some (g.rest m device
      (joystickValue g m sdl device,
        g.poll.returns && device ≠ .dAll && (decides g m sdl device).isSome)) := by
  rw [g.get_eq, joystick, joystickValue, decides]
  by_cases polls : device ≠ g.poll.excluded ∧ 0 < sdl.numJoysticks
  · rw [if_pos polls, if_pos polls, slotLoop_spec 0 m.mJoy 0 (by rw [ready.size]) ready.written]
    rfl
  · rw [if_neg polls, if_neg polls]
    simp

section range

def Getter.scale (m : Polling) : Getter → ℚ
  | horiz | vert => 1
  | rHoriz | rVert => m.mJoystickSensitivity

/-- The one raw value that has no opposite, if it is not scaled down enough. -/
def TooFar (g : Getter) (m : Polling) (raw : Int16) : Prop :=
  raw.toInt = -32768 ∧ 32767 < 32768 * g.scale m

def Getter.overridden (m : Polling) (device : InputDevices) : Getter → Prop
  | horiz => device = .dAll ∧ (m.mActiveActions .actionLeft ∨ m.mActiveActions .actionRight)
  | vert => device = .dAll ∧ (m.mActiveActions .actionDown ∨ m.mActiveActions .actionUp)
  | rHoriz | rVert => False

theorem rescale_range {d : ℚ} (low : 0 ≤ d) (high : d < 1) (t : ℚ) :
    |rescale d t| ≤ 1 ↔ |t| ≤ 1 := by
  have positive : 0 < 1 - d := by linarith
  rw [rescale]
  by_cases right : d < t
  · rw [if_pos right, abs_div, abs_of_pos positive, abs_of_pos (by linarith : 0 < t - d),
      div_le_one positive, abs_of_pos (by linarith : 0 < t)]
    constructor <;> intro <;> linarith
  · by_cases left : t < -d
    · rw [if_neg right, if_pos left, abs_div, abs_neg, abs_of_pos positive,
        abs_of_pos (by linarith : 0 < -t - d), div_le_one positive,
        abs_of_neg (by linarith : t < 0)]
      constructor <;> intro <;> linarith
    · rw [if_neg right, if_neg left, abs_zero]
      refine iff_of_true zero_le_one (abs_le.mpr ⟨?_, ?_⟩) <;> linarith

theorem tested_range (g : Getter) {m : Polling} (low : 0 ≤ m.mJoystickSensitivity)
    (high : m.mJoystickSensitivity ≤ 1) (sdl : Sdl) (h : Handle) :
    |g.poll.tested m sdl h| ≤ 1 ↔ ¬ TooFar g m (sdl.axis h g.poll.axis) := by
  set raw := sdl.axis h g.poll.axis with raw_eq
  have scaled : |g.poll.tested m sdl h| = g.scale m * |(raw.toInt : ℚ) / 32767| := by
    cases g with
    | horiz => simp [Getter.poll, horiz, Poll.tested, Getter.scale, raw_eq]
    | vert => simp [Getter.poll, vert, Poll.tested, Getter.scale, raw_eq]
    | rHoriz =>
        simp [Getter.poll, rHoriz, Poll.tested, Getter.scale, raw_eq, abs_mul, abs_of_nonneg low]
    | rVert =>
        simp [Getter.poll, rVert, Poll.tested, Getter.scale, raw_eq, abs_mul, abs_of_nonneg low]
  have scale_low : 0 ≤ g.scale m := by cases g <;> simp [Getter.scale, low]
  have scale_high : g.scale m ≤ 1 := by cases g <;> simp [Getter.scale, high]
  rw [scaled, abs_div, abs_of_pos (by norm_num : (0 : ℚ) < 32767), TooFar]
  by_cases lowest : raw.toInt = -32768
  · have size : |((raw.toInt : Int) : ℚ)| = 32768 := by
      rw [lowest]
      norm_num
    rw [size, lowest]
    simp only [true_and, not_lt]
    constructor <;> intro <;> linarith
  · have lower := raw.le_toInt
    have upper := raw.toInt_lt
    have size : |((raw.toInt : Int) : ℚ)| ≤ 32767 := by
      rw [abs_le]
      constructor
      · exact_mod_cast (by omega : -32767 ≤ raw.toInt)
      · exact_mod_cast (by omega : raw.toInt ≤ 32767)
    refine iff_of_true ?_ fun far => lowest far.1
    have part : |((raw.toInt : Int) : ℚ)| / 32767 ≤ 1 := by
      rw [div_le_one (by norm_num)]
      exact size
    exact mul_le_one₀ scale_high (by positivity) part

theorem mouse_range (device : InputDevices) (test value : ℚ) :
    |mouse device test value| ≤ 1 ↔ |value| ≤ 1 := by
  rw [mouse]
  by_cases counts : device = .dMouse ∨ device = .dAll
  · rw [if_pos counts]
    set raised := if test < -1 then -1 else test with raised_eq
    set clamped := if 1 < raised then 1 else raised with clamped_eq
    have lower : -1 ≤ raised := by
      rw [raised_eq]
      split <;> linarith
    have inside : |clamped| ≤ 1 := by
      rw [clamped_eq, abs_le]
      split
      · constructor <;> linarith
      · constructor <;> linarith
    by_cases larger : |value| < |clamped|
    · rw [if_pos larger]
      exact iff_of_true inside (le_of_lt (lt_of_lt_of_le larger inside))
    · rw [if_neg larger]
  · rw [if_neg counts]

theorem keyboard_range (device : InputDevices) (negative positive : Bool) (value : ℚ) :
    |keyboard device negative positive value| ≤ 1 ↔ |value| ≤ 1 ∨
      (device = .dKeyboard ∨ device = .dAll) ∧ (negative ∨ positive) := by
  rw [keyboard]
  by_cases counts : device = .dKeyboard ∨ device = .dAll
  · rw [if_pos counts]
    cases negative <;> cases positive <;> simp [counts]
  · simp [counts]

theorem keyboard_rest {device : InputDevices} {value : ℚ} {returned : Bool}
    (negative positive : Bool) (idle : device = .dKeyboard → value = 0)
    (single : returned = true → device ≠ .dAll) :
    |if returned then value else keyboard device negative positive value| ≤ 1 ↔
      |value| ≤ 1 ∨ device = .dAll ∧ (negative ∨ positive) := by
  cases returned with
  | true => simp [single rfl]
  | false =>
      rw [if_neg Bool.false_ne_true, keyboard_range]
      by_cases typed : device = .dKeyboard
      · simp [idle typed]
      · simp [typed]

theorem decides_excluded (g : Getter) (m : Polling) (sdl : Sdl) :
    joystickValue g m sdl g.poll.excluded = 0 := by
  simp [joystickValue, decides]

/-- What comes after the joysticks is in range, unless they are not and decide. -/
theorem rest_range (g : Getter) (m : Polling) (sdl : Sdl) (device : InputDevices) :
    |g.rest m device (joystickValue g m sdl device,
        g.poll.returns && device ≠ .dAll && (decides g m sdl device).isSome)| ≤ 1 ↔
      |joystickValue g m sdl device| ≤ 1 ∨ g.overridden m device := by
  cases g with
  | horiz =>
      refine keyboard_rest _ _ (fun typed => typed ▸ decides_excluded .horiz m sdl) ?_
      intro returned
      simp only [Bool.and_eq_true, decide_eq_true_eq] at returned
      exact returned.1.2
  | vert =>
      refine keyboard_rest _ _ (fun typed => typed ▸ decides_excluded .vert m sdl) ?_
      intro returned
      simp only [Bool.and_eq_true, decide_eq_true_eq] at returned
      exact returned.1.2
  | rHoriz => simp only [Getter.rest, mouse_range, Getter.overridden, or_false]
  | rVert => simp only [Getter.rest, mouse_range, Getter.overridden, or_false]

end range

/-- Whatever the devices are at, a getter answers with a value from minus one to one
exactly when the joystick that decides is not at a raw value that goes too far, or the
keyboard decides instead. -/
theorem axis_range_iff (g : Getter) {m : Polling} {sdl : Sdl} (ready : Ready m sdl)
    (deadzone : 0 ≤ m.mJoystickDeadzone ∧ m.mJoystickDeadzone < 1)
    (sensitivity : 0 ≤ m.mJoystickSensitivity ∧ m.mJoystickSensitivity ≤ 1)
    (device : InputDevices) :
    (∃ v, g.get m sdl device = some v ∧ -1 ≤ v ∧ v ≤ 1) ↔
      ∀ h, decides g m sdl device = some h → TooFar g m (sdl.axis h g.poll.axis) →
        g.overridden m device := by
  have value : (∃ v, g.get m sdl device = some v ∧ -1 ≤ v ∧ v ≤ 1) ↔
      |joystickValue g m sdl device| ≤ 1 ∨ g.overridden m device := by
    rw [← rest_range, ready.get, abs_le]
    simp only [Option.some.injEq, exists_eq_left']
  rw [value, joystickValue]
  cases decided : decides g m sdl device with
  | none => simp
  | some h =>
      have range : |g.poll.polled m sdl h| ≤ 1 ↔ ¬ TooFar g m (sdl.axis h g.poll.axis) := by
        rw [Poll.polled, rescale_range deadzone.1 deadzone.2,
          tested_range g sensitivity.1 sensitivity.2]
      simp only [Option.map_some, Option.getD_some, range, Option.some.injEq, forall_eq']
      exact or_iff_not_imp_left.trans (by rw [not_not])

def twoSticks : Polling where
  mNumJoysticks := 3
  mJoy := [some (some 0), some none, some (some 2), some none]
  mActiveActions _ := false
  mMouseOffsetX := 0
  mMouseOffsetY := 0
  mWidth := 640
  mHeight := 480
  mMouseSensitivity := 1 / 100
  mJoystickSensitivity := 1
  mJoystickDeadzone := 1 / 5

def sticksAt (first third : Int16) : Sdl := ⟨3, [2, 0], fun h _ => if h = 0 then first else third⟩

theorem ready_twoSticks (first third : Int16) : Ready twoSticks (sticksAt first third) where
  size := rfl
  written := by
    simp only [twoSticks, sticksAt, List.mem_cons, List.not_mem_nil, or_false]
    rintro slot (rfl | rfl | rfl | rfl)
    all_goals exact ⟨_, rfl, by simp⟩

theorem axis_range_full : ∃ v, getVertAxis twoSticks (sticksAt 32767 0) .dJoy1 = some v ∧
    -1 ≤ v ∧ v ≤ 1 :=
  (axis_range_iff .vert (ready_twoSticks 32767 0) (by norm_num [twoSticks])
    (by norm_num [twoSticks]) .dJoy1).mpr (by
      intro h decided far
      obtain rfl : 0 = h := Option.some.inj decided
      exact absurd far.1 (by decide))

/-- Pushed all the way to one side, a getter goes too far. -/
theorem axis_out_of_range :
    (∃ v, getHorizAxis twoSticks (sticksAt (-32768) 0) .dJoy1 = some v ∧ ¬ (-1 ≤ v ∧ v ≤ 1)) ∧
    ∃ v, getRVertAxis twoSticks (sticksAt (-32768) 0) .dJoy1 = some v ∧ ¬ (-1 ≤ v ∧ v ≤ 1) :=
  ⟨⟨_, rfl, by decide +kernel⟩, _, rfl, by decide +kernel⟩

section combined

variable {m : Polling} {sdl : Sdl}

def OpenAt (m : Polling) (j : Nat) (h : Handle) : Prop := m.mJoy[j]? = some (some (some h))

def Outside (g : Getter) (m : Polling) (sdl : Sdl) (h : Handle) : Prop :=
  m.mJoystickDeadzone < g.poll.tested m sdl h ∨ g.poll.tested m sdl h < -m.mJoystickDeadzone

instance (g : Getter) (m : Polling) (sdl : Sdl) (h : Handle) : Decidable (Outside g m sdl h) :=
  inferInstanceAs (Decidable (_ ∨ _))

/-- One joystick is outside the dead zone; the others, the keyboard and the mouse rest. -/
structure OneActive (g : Getter) (m : Polling) (sdl : Sdl) (device : InputDevices)
    (h : Handle) : Prop where
  slot : OpenAt m device.index h
  outside : Outside g m sdl h
  others : ∀ j k, j ≠ device.index → OpenAt m j k → ¬ Outside g m sdl k
  keyboard : ∀ a, m.mActiveActions a = false
  mouse : m.mMouseOffsetX = 0 ∧ m.mMouseOffsetY = 0

def LastOpen (m : Polling) (i : Nat) : Prop := ∀ j k, i < j → ¬ OpenAt m j k

theorem rescale_eq_zero {d t : ℚ} (high : d < 1) : rescale d t = 0 ↔ ¬ (d < t ∨ t < -d) := by
  have apart : 1 - d ≠ 0 := by linarith
  rw [rescale]
  by_cases right : d < t
  · have nonzero : (t - d) / (1 - d) ≠ 0 := div_ne_zero (by linarith) apart
    simp [right, nonzero]
  · by_cases left : t < -d
    · have nonzero : -(-t - d) / (1 - d) ≠ 0 := div_ne_zero (by linarith) apart
      rw [if_neg right, if_pos left]
      exact iff_of_false nonzero (not_not.mpr (.inr left))
    · simp [right, left]

theorem considered_none {i : Nat} {slots : List Slot} (nothing : considered .dAll i slots = none)
    (j : Nat) (k : Handle) : slots[j]? ≠ some (some (some k)) := by
  induction slots generalizing i j with
  | nil => simp
  | cons slot slots ih =>
      obtain ⟨later, here⟩ := Option.or_eq_none_iff.mp nothing
      cases j with
      | zero =>
          intro found
          obtain rfl : slot = some (some k) := by simpa using found
          simp at here
      | succ j => exact ih later j

theorem considered_some {i : Nat} {slots : List Slot} {h : Handle}
    (decided : considered .dAll i slots = some h) :
    ∃ j : Nat, slots[j]? = some (some (some h)) ∧
      ∀ (j' : Nat) k, j < j' → slots[j']? ≠ some (some (some k)) := by
  induction slots generalizing i with
  | nil => simp [considered] at decided
  | cons slot slots ih =>
      rw [considered] at decided
      cases later : considered .dAll (i + 1) slots with
      | some h' =>
          rw [later, Option.some_or] at decided
          obtain rfl := Option.some.inj decided
          obtain ⟨j, found, last⟩ := ih later
          refine ⟨j + 1, found, fun j' k beyond => ?_⟩
          cases j' with
          | zero => omega
          | succ j' => exact last j' k (by omega)
      | none =>
          rw [later, Option.none_or, if_pos (.inl rfl)] at decided
          obtain rfl := Option.join_eq_some_iff.mp decided
          refine ⟨0, rfl, fun j' k beyond => ?_⟩
          cases j' with
          | zero => omega
          | succ j' => exact considered_none later j' k

theorem considered_single {device : InputDevices} (single : device ≠ .dAll) {i : Nat}
    {slots : List Slot} {h : Handle} (before : i ≤ device.index)
    (slot : slots[device.index - i]? = some (some (some h))) :
    considered device i slots = some h := by
  induction slots generalizing i with
  | nil => simp at slot
  | cons first slots ih =>
      rw [considered]
      by_cases here : device.index = i
      · rw [considered_past single (by omega), if_pos (.inr here), Option.none_or]
        obtain rfl : first = some (some h) := by simpa [here] using slot
        rfl
      · have next : device.index - i = device.index - (i + 1) + 1 := by omega
        rw [next, List.getElem?_cons_succ] at slot
        rw [ih (by omega) slot, Option.some_or]

theorem keyboard_idle (device : InputDevices) (value : ℚ) :
    keyboard device false false value = value := by
  simp [keyboard]

theorem mouse_still (device : InputDevices) (value : ℚ) : mouse device 0 value = value := by
  have least : ¬ |value| < 0 := not_lt.mpr (abs_nonneg value)
  have left : ¬ (0 : ℚ) < -1 := by norm_num
  have right : ¬ (1 : ℚ) < 0 := by norm_num
  simp only [mouse, if_neg left, if_neg right, abs_zero, if_neg least, ite_self]

theorem OneActive.rest_eq {g : Getter} {device : InputDevices} {h : Handle}
    (active : OneActive g m sdl device h) (any : InputDevices) (value : ℚ) (returned : Bool) :
    g.rest m any (value, returned) = value := by
  cases g <;> simp [Getter.rest, keyboard_idle, mouse_still, active.keyboard, active.mouse]

theorem OneActive.index {g : Getter} {device : InputDevices} {h : Handle}
    (active : OneActive g m sdl device h) (ready : Ready m sdl) : device.index < 4 := by
  obtain ⟨inside, -⟩ := List.getElem?_eq_some_iff.mp active.slot
  rwa [ready.size] at inside

theorem Getter.not_excluded (g : Getter) {device : InputDevices}
    (joysticks : device = .dAll ∨ device.index < 4) : device ≠ g.poll.excluded := by
  intro same
  have kind : g.poll.excluded = .dKeyboard ∨ g.poll.excluded = .dMouse := by
    cases g <;> decide
  rw [same] at joysticks
  rcases kind with kind | kind <;> exact absurd (kind ▸ joysticks) (by decide)

/-- While one joystick is outside the dead zone and everything else rests, all devices
together give what that joystick gives alone exactly when it is in the last open slot, or
SDL reports no joystick. -/
theorem active_alone_iff (g : Getter) (ready : Ready m sdl) (deadzone : m.mJoystickDeadzone < 1)
    {device : InputDevices} {h : Handle} (active : OneActive g m sdl device h) :
    g.get m sdl .dAll = g.get m sdl device ↔
      LastOpen m device.index ∨ ¬ 0 < sdl.numJoysticks := by
  have index := active.index ready
  have single : device ≠ .dAll := by
    rintro rfl
    exact absurd index (by decide)
  rw [ready.get, ready.get, active.rest_eq, active.rest_eq, Option.some.injEq, joystickValue,
    joystickValue, decides, decides]
  by_cases reported : 0 < sdl.numJoysticks
  · rw [if_pos ⟨g.not_excluded (.inl rfl), reported⟩,
      if_pos ⟨g.not_excluded (.inr index), reported⟩,
      considered_single single (Nat.zero_le _) active.slot]
    have moved : g.poll.polled m sdl h ≠ 0 := by
      rw [Poll.polled, Ne, rescale_eq_zero deadzone, not_not]
      exact active.outside
    cases decided : considered .dAll 0 m.mJoy with
    | none => exact absurd active.slot (considered_none decided _ _)
    | some h' =>
        obtain ⟨j, found, last⟩ := considered_some decided
        simp only [Option.map_some, Option.getD_some, reported, not_true, or_false]
        by_cases same : j = device.index
        · subst same
          obtain rfl : h = h' := by
            have equal := active.slot.symm.trans found
            simpa using equal
          exact iff_of_true rfl fun j' k beyond => last j' k beyond
        · have idle : g.poll.polled m sdl h' = 0 := by
            rw [Poll.polled, rescale_eq_zero deadzone]
            exact active.others j h' same found
          rw [idle]
          refine iff_of_false moved.symm fun final => ?_
          -- the slot that decides comes after that of the active joystick
          rcases Nat.lt_or_gt_of_ne same with before | after
          · exact last _ h before active.slot
          · exact final j h' after found
  · simp [reported]

theorem openAt_twoSticks {j : Nat} {k : Handle} (slot : OpenAt twoSticks j k) :
    j = 0 ∧ k = 0 ∨ j = 2 ∧ k = 2 := by
  rcases j with _ | _ | _ | _ | j
  · exact .inl ⟨rfl, by simpa [OpenAt, twoSticks, eq_comm] using slot⟩
  · simp [OpenAt, twoSticks] at slot
  · exact .inr ⟨rfl, by simpa [OpenAt, twoSticks, eq_comm] using slot⟩
  · simp [OpenAt, twoSticks] at slot
  · simp [OpenAt, twoSticks] at slot

theorem active_alone_third :
    getHorizAxis twoSticks (sticksAt 0 20000) .dAll =
      getHorizAxis twoSticks (sticksAt 0 20000) .dJoy3 := by
  have active : OneActive .horiz twoSticks (sticksAt 0 20000) .dJoy3 2 := by
    refine ⟨rfl, by decide +kernel, fun j k other slot => ?_, fun _ => rfl, rfl, rfl⟩
    obtain ⟨-, rfl⟩ | ⟨rfl, -⟩ := openAt_twoSticks slot
    · decide +kernel
    · exact absurd rfl other
  refine (active_alone_iff .horiz (ready_twoSticks 0 20000) (by norm_num [twoSticks])
    active).mpr (.inl fun j k beyond slot => ?_)
  obtain ⟨rfl, -⟩ | ⟨rfl, -⟩ := openAt_twoSticks slot <;> exact absurd beyond (by decide)

/-- A joystick in the first slot is cancelled by an idle one in the third. -/
theorem idle_cancels :
    (getHorizAxis twoSticks (sticksAt 20000 0) .dAll = some 0 ∧
      getHorizAxis twoSticks (sticksAt 20000 0) .dJoy1 ≠ some 0) ∧
    getRVertAxis twoSticks (sticksAt 20000 0) .dAll = some 0 ∧
      getRVertAxis twoSticks (sticksAt 20000 0) .dJoy1 ≠ some 0 := by
  decide +kernel

end combined

end Ssuge.Joysticks

import Mathlib.Algebra.GroupWithZero.Nat
import Mathlib.Data.List.Induction
import Ssuge.GuardedRun
import Ssuge.InputEvents

/-! The state of a key, as it is polled and as the handled events tell it. SDL keeps one
element for each scan code, while the events, and what `getKeystate` is asked for, are key
codes. Which key code a key has is a matter of the layout. One call of `update` pumps all
events that have come into the array and the queue, and handles the first that waits. -/

namespace Ssuge.InputManager

open GuardedRun

def numScancodes : Nat := 512

instance : NeZero numScancodes := ⟨Nat.succ_ne_zero 511⟩

abbrev Layout := Fin numScancodes → Int32

structure KeyEvent where
  scancode : Fin numScancodes
  repeats : UInt8
  down : Bool

def KeyEvent.event (layout : Layout) (e : KeyEvent) : Event :=
  if e.down then .keyDown (layout e.scancode) e.repeats else .keyUp (layout e.scancode) e.repeats

/-- What `SDL_PollEvent` pumps: events of keys, and others that wait among them. -/
inductive Pumped
  | key (e : KeyEvent)
  | other

/-- The array that `SDL_GetKeyboardState` gives, the events that wait, and for each key code
whether the latest handled event with it was a key-down. -/
structure Keyboard where
  state : Fin numScancodes → Bool
  queue : List Pumped
  latest : Int32 → Bool

namespace Keyboard

def start : Keyboard := ⟨fun _ => false, [], fun _ => false⟩

def press (state : Fin numScancodes → Bool) : Pumped → Fin numScancodes → Bool
  | .key e => Function.update state e.scancode e.down
  | .other => state

def note (latest : Int32 → Bool) : Event → Int32 → Bool
  | .keyDown sym _ => Function.update latest sym true
  | .keyUp sym _ => Function.update latest sym false
  | _ => latest

def handle (layout : Layout) (latest : Int32 → Bool) : Pumped → Int32 → Bool
  | .key e => note latest (e.event layout)
  | .other => latest

/-- `update`, in a frame before which some events have come. -/
def update (layout : Layout) (s : Keyboard) (pumped : List Pumped) : Keyboard where
  state := pumped.foldl press s.state
  queue := (s.queue ++ pumped).tail
  latest := (s.queue ++ pumped).head?.elim s.latest (handle layout s.latest)

def step (layout : Layout) (s : Keyboard) (pumped : List Pumped) : Option Keyboard :=
  some (s.update layout pumped)

def InRange (key : Int32) : Prop := 0 ≤ key.toInt ∧ key.toInt < numScancodes

instance (key : Int32) : Decidable (InRange key) := inferInstanceAs (Decidable (_ ∧ _))

def index (key : Int32) (inside : InRange key) : Fin numScancodes :=
  ⟨key.toInt.toNat, by
    have := inside.1
    have := inside.2
    omega⟩

/-- `SDL_GetKeyboardState(NULL)[key]`, which is undefined past the ends of the array. -/
def getKeystate (s : Keyboard) (key : Int32) : Option Bool :=
  if inside : InRange key then some (s.state (index key inside)) else none

def sdlkEscape : Int32 := 27

/-- What `BaseApplication::run` asks in every frame. -/
def done (s : Keyboard) : Prop := s.getKeystate sdlkEscape = some true

/-- The polled state of the key is that of its latest event, and the application ends
exactly when Escape is down. -/
structure Agrees (key : Int32) (s : Keyboard) : Prop where
  key : s.getKeystate key = some (s.latest key)
  escape : s.done ↔ s.latest sdlkEscape = true

/-- What an event says of the key with the scan code `key`. -/
def scans (key : Int32) : Pumped → Option Bool
  | .key e => if (e.scancode.val : Int) = key.toInt then some e.down else none
  | .other => none

/-- What an event says of the key code `key`. -/
def tells (layout : Layout) (key : Int32) : Pumped → Option Bool
  | .key e => if layout e.scancode = key then some e.down else none
  | .other => none

/-- The last that the pumped events say of the scan code is what the event that is handled says
of the key code. To say nothing is to say what the latest event with the key code said. -/
def Same (layout : Layout) (key : Int32) (s : Keyboard) (pumped : List Pumped) : Prop :=
  (pumped.reverse.findSome? (scans key)).getD (s.latest key) =
    ((s.queue ++ pumped).head?.bind (tells layout key)).getD (s.latest key)

theorem press_scans {key : Int32} (inside : InRange key) (state : Fin numScancodes → Bool)
    (p : Pumped) :
    press state p (index key inside) = (scans key p).getD (state (index key inside)) := by
  cases p with
  | key e =>
      have scanned : (e.scancode.val : Int) = key.toInt ↔ index key inside = e.scancode := by
        rw [Fin.ext_iff]
        change _ ↔ key.toInt.toNat = e.scancode.val
        have := inside.1
        omega
      rw [press, scans, Function.update_apply]
      by_cases scan : index key inside = e.scancode <;> simp [scan, scanned]
  | other => rfl

theorem foldl_press {key : Int32} (inside : InRange key) (state : Fin numScancodes → Bool)
    (pumped : List Pumped) : pumped.foldl press state (index key inside) =
      (pumped.reverse.findSome? (scans key)).getD (state (index key inside)) := by
  induction pumped using List.reverseRecOn with
  | nil => rfl
  | append_singleton pumped p ih =>
      rw [List.foldl_append, List.foldl_cons, List.foldl_nil, press_scans inside, ih,
        List.reverse_append, List.reverse_singleton, List.singleton_append, List.findSome?_cons]
      cases scans key p <;> rfl

theorem handle_tells (layout : Layout) (key : Int32) (latest : Int32 → Bool) (p : Pumped) :
    handle layout latest p key = (tells layout key p).getD (latest key) := by
  cases p with
  | key e =>
      have noted : note latest (e.event layout) =
          Function.update latest (layout e.scancode) e.down := by
        rw [KeyEvent.event]
        cases e.down <;> rfl
      rw [handle, tells, noted, Function.update_apply]
      by_cases sym : layout e.scancode = key
      · rw [if_pos sym.symm, if_pos sym, Option.getD_some]
      · rw [if_neg (Ne.symm sym), if_neg sym, Option.getD_none]
  | other => rfl

theorem update_latest (layout : Layout) (key : Int32) (s : Keyboard) (pumped : List Pumped) :
    (s.update layout pumped).latest key =
      ((s.queue ++ pumped).head?.bind (tells layout key)).getD (s.latest key) := by
  rw [update]
  cases (s.queue ++ pumped).head? with
  | none => rfl
  | some p => exact handle_tells layout key s.latest p

def KeyAgrees (key : Int32) (s : Keyboard) : Prop := s.getKeystate key = some (s.latest key)

/-- While the two states of a key agree, they agree after an `update` exactly when the pumped
events and the handled one say the same. -/
theorem keyAgrees_update_iff {layout : Layout} {key : Int32} (inside : InRange key)
    {s : Keyboard} (agree : KeyAgrees key s) (pumped : List Pumped) :
    KeyAgrees key (s.update layout pumped) ↔ Same layout key s pumped := by
  rw [KeyAgrees, getKeystate, dif_pos inside, Option.some.injEq] at agree ⊢
  rw [update_latest, Same, ← agree]
  exact Eq.congr_left (foldl_press inside s.state pumped)

theorem escape_inRange : InRange sdlkEscape := by decide

theorem agrees_iff (key : Int32) (s : Keyboard) :
    Agrees key s ↔ KeyAgrees key s ∧ KeyAgrees sdlkEscape s := by
  have escape : (s.done ↔ s.latest sdlkEscape = true) ↔ KeyAgrees sdlkEscape s := by
    rw [done, KeyAgrees, getKeystate, dif_pos escape_inRange, Option.some.injEq,
      Option.some.injEq]
    exact Bool.eq_iff_iff.symm
  exact ⟨fun ⟨first, second⟩ => ⟨first, escape.mp second⟩,
    fun ⟨first, second⟩ => ⟨first, escape.mpr second⟩⟩

theorem keyAgrees_inRange {key : Int32} {s : Keyboard} (agree : KeyAgrees key s) :
    InRange key := by
  by_contra outside
  rw [KeyAgrees, getKeystate, dif_neg outside] at agree
  simp at agree

theorem keyAgrees_start {key : Int32} (inside : InRange key) : KeyAgrees key start := by
  rw [KeyAgrees, getKeystate, dif_pos inside]
  rfl

/-- In every run of frames the application polls what the handled events tell exactly when
the key code is an index and in every frame the pumped events and the handled one say the same
of it; and the same for Escape. -/
theorem polled_agrees_iff (layout : Layout) (key : Int32) (frames : List (List Pumped)) :
    Throughout (step layout) (Agrees key) start frames ↔ InRange key ∧
      Along (step layout) (fun s pumped => Same layout key s pumped ∧
        Same layout sdlkEscape s pumped) start frames := by
  by_cases inside : InRange key
  · rw [and_iff_right inside]
    apply throughout_iff (I := fun _ => True) (L := fun _ => True)
    · intro s pumped _ agrees _
      obtain ⟨first, second⟩ := (agrees_iff key s).mp agrees
      simp only [step, Option.some.injEq, forall_eq', agrees_iff,
        keyAgrees_update_iff inside first, keyAgrees_update_iff escape_inRange second]
    · exact fun _ _ _ _ _ _ _ _ => trivial
    · trivial
    · exact (agrees_iff key start).mpr ⟨keyAgrees_start inside, keyAgrees_start escape_inRange⟩
    · exact fun _ _ => trivial
  · refine iff_of_false (fun all => ?_) fun guard => inside guard.1
    have first := all [] (List.nil_prefix) start rfl
    exact inside (keyAgrees_inRange first.key)

def Single (pumped : List Pumped) : Prop := pumped.length ≤ 1

theorem update_single {layout : Layout} {s : Keyboard} (served : s.queue = [])
    {pumped : List Pumped} (single : Single pumped) : (s.update layout pumped).queue = [] := by
  rw [update, served, List.nil_append]
  exact List.eq_nil_of_length_eq_zero (by rw [List.length_tail, Nat.sub_eq_zero_of_le single])

theorem same_single {layout : Layout} {key : Int32} {s : Keyboard} (served : s.queue = [])
    (only : ∀ scancode : Fin numScancodes,
      (scancode.val : Int) = key.toInt ↔ layout scancode = key)
    {pumped : List Pumped} (single : Single pumped) : Same layout key s pumped := by
  rw [Same, served, List.nil_append]
  rcases pumped with _ | ⟨p, _ | ⟨q, later⟩⟩
  · rfl
  · cases p with
    | key e => simp [scans, tells, only e.scancode]
    | other => rfl
  · exact absurd single (by simp [Single])

/-- While events come one by one, the two states agree in all runs exactly when the key with
the scan code `key` is the only one with that key code. -/
theorem keyAgrees_single_iff (layout : Layout) {key : Int32} (inside : InRange key) :
    (∀ frames, (∀ pumped ∈ frames, Single pumped) →
      Throughout (step layout) (KeyAgrees key) start frames) ↔
      ∀ scancode : Fin numScancodes, (scancode.val : Int) = key.toInt ↔
        layout scancode = key := by
  constructor
  · intro all scancode
    have pressed := all [[.key ⟨scancode, 0, true⟩]] (by simp [Single])
      [[.key ⟨scancode, 0, true⟩]] (List.prefix_refl _) _ rfl
    have same := (keyAgrees_update_iff inside (keyAgrees_start inside) _).mp pressed
    simp only [Same, scans, tells, start, List.reverse_singleton, List.findSome?_singleton,
      List.nil_append, List.head?_cons, Option.bind_some] at same
    by_cases scan : (scancode.val : Int) = key.toInt <;> by_cases sym : layout scancode = key <;>
      simp_all
  · intro only frames single
    have alone : Along (step layout) (fun _ pumped => Single pumped) start frames :=
      along_of_forall single
    have kept := alone.throughout (I := fun s => KeyAgrees key s ∧ s.queue = [])
      (fun s pumped s' now alone returned => ?_) ⟨keyAgrees_start inside, rfl⟩
    · exact fun bs shorter s reached => (kept bs shorter s reached).1
    · obtain rfl := Option.some.inj returned
      exact ⟨(keyAgrees_update_iff inside now.1 _).mpr (same_single now.2 only alone),
        update_single now.2 alone⟩

/-- A key that goes down and up again before a frame parts the two states, whatever the
layout, if it has the key code. -/
theorem tap_parts {layout : Layout} {key : Int32} (inside : InRange key)
    (scancode : Fin numScancodes) (code : layout scancode = key) :
    ¬ Throughout (step layout) (KeyAgrees key) start
      [[.key ⟨scancode, 0, true⟩, .key ⟨scancode, 0, false⟩]] := by
  intro all
  have tapped := all _ (List.prefix_refl _) _ rfl
  have same := (keyAgrees_update_iff inside (keyAgrees_start inside) _).mp tapped
  by_cases scan : (scancode.val : Int) = key.toInt <;>
    simp [Same, scans, tells, start, scan, code] at same

def usual : Layout := fun scancode =>
  if scancode.val = 41 then sdlkEscape
  else if scancode.val = 27 then 120
  else scancodeMask + Int32.ofNat scancode.val

/-- Escape does not end the application, and X does; and to ask for the state of a key
without a character is to read far behind the array. -/
theorem polled_disagrees :
    ¬ Throughout (step usual) (Agrees sdlkEscape) start [[.key ⟨41, 0, true⟩]] ∧
    ¬ Throughout (step usual) (Agrees 120) start [[.key ⟨27, 0, true⟩]] ∧
    ¬ Throughout (step usual) (Agrees (usual 79)) start [] := by
  refine ⟨fun all => ?_, fun all => ?_, fun all => ?_⟩
  · have escape := all [[.key ⟨41, 0, true⟩]] (List.prefix_refl _) _ rfl
    exact absurd escape.key (by decide)
  · have x := all [[.key ⟨27, 0, true⟩]] (List.prefix_refl _) _ rfl
    exact absurd (x.escape.mp (by unfold done; decide)) (by decide)
  · exact absurd (keyAgrees_inRange (all [] (List.prefix_refl _) _ rfl).key) (by decide)

end Keyboard

end Ssuge.InputManager

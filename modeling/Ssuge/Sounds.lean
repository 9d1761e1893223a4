import Ssuge.GuardedRun
import Ssuge.OwnedPool
import Ssuge.Engine
import Mathlib.Algebra.Ring.Int.Defs
import Mathlib.Algebra.Notation.Prod

/-! Background music and sound components. A sound that irrKlang has started plays until
it is stopped; `drop` only gives the caller's reference back. A sound keeps its number
for ever, and a reference to it has the same number. `stopBackgroundMusic` and the
destructor of a component stop a sound before they drop it; the two loads drop the
old sound and leave it playing. `V` are the vectors of irrKlang. -/

namespace Ssuge.Sounds

open GuardedRun OwnedPool

structure Sound (V : Type) where
  /-- Started by `play2D`. -/
  background : Bool
  looped : Bool
  enableSFX : Bool
  position : V
  isPaused : Bool
  stopped : Bool
deriving DecidableEq, Repr

/-- `SoundComponent`; `none` is the NULL pointer. -/
structure SoundComponent where
  mSound : Option Nat
deriving DecidableEq, Repr

structure SoundWorld (V : Type) where
  /-- Every sound that was started. -/
  sounds : List (Sound V)
  /-- The references to them that were handed out. -/
  handles : Pool Unit
  /-- The names that have a sound source. -/
  mISoundSources : List (List UInt8)
  mBackgroundMusic : Option Nat
  components : Ptr → Option SoundComponent

variable {V : Type}

def start (mISoundSources : List (List UInt8)) : SoundWorld V :=
  ⟨[], .empty, mISoundSources, none, fun _ => none⟩

namespace SoundWorld

def setComponent (w : SoundWorld V) (p : Ptr) (c : Option SoundComponent) : SoundWorld V :=
  { w with components := Function.update w.components p c }

def stop (w : SoundWorld V) (i : Nat) : SoundWorld V :=
  { w with sounds := w.sounds.modify i fun sound => { sound with stopped := true } }

def drop (w : SoundWorld V) (i : Nat) : SoundWorld V := { w with handles := w.handles.delete i }

def setIsPaused (w : SoundWorld V) (i : Nat) (b : Bool) : SoundWorld V :=
  { w with sounds := w.sounds.modify i fun sound => { sound with isPaused := b } }

def setPosition (w : SoundWorld V) (i : Nat) (pos : V) : SoundWorld V :=
  { w with sounds := w.sounds.modify i fun sound => { sound with position := pos } }

/-- `if (sound) sound->drop();` -/
def dropHeld (w : SoundWorld V) (sound : Option Nat) : SoundWorld V := sound.elim w w.drop

/-- `play2D` and `play3D`: a new sound and a reference to it, or NULL when irrKlang does
not play it. -/
def play (w : SoundWorld V) (sound : Sound V) (plays : Bool) : SoundWorld V × Option Nat :=
  if plays then
    ({ w with sounds := w.sounds ++ [sound], handles := w.handles.new () }, some w.handles.next)
  else (w, none)

def loadBackgroundMusic [Zero V] (w : SoundWorld V) (res_name : List UInt8) (plays : Bool) :
    SoundWorld V × Nat :=
  if res_name ∈ w.mISoundSources then
    let w := w.dropHeld w.mBackgroundMusic
    let (w, sound) := w.play ⟨true, true, false, 0, false, false⟩ plays
    ({ w with mBackgroundMusic := sound }, 0)
  else (w, 1)

def stopBackgroundMusic (w : SoundWorld V) : SoundWorld V :=
  match w.mBackgroundMusic with
  | none => w
  | some i => { (w.stop i).drop i with mBackgroundMusic := none }

def toggleBackgroundMusicPause (w : SoundWorld V) : SoundWorld V :=
  match w.mBackgroundMusic with
  | none => w
  | some i =>
      match w.sounds[i]? with
      | none => w
      | some sound => if sound.isPaused then w.setIsPaused i false else w.setIsPaused i true

def get3DSoundInterface [Zero V] (w : SoundWorld V) (res_name : List UInt8)
    (looped enableSFX plays : Bool) : SoundWorld V × Option Nat :=
  if res_name ∈ w.mISoundSources then
    w.play ⟨false, looped, enableSFX, 0, true, false⟩ plays
  else (w, none)

/-- `loadSound` of the component at `p`; `pos` is where the owner's node is. -/
def loadSound [Zero V] (w : SoundWorld V) (p : Ptr) (c : SoundComponent) (res_name : List UInt8)
    (looped enableSFX : Bool) (pos : V) (plays : Bool) : SoundWorld V :=
  let w := w.dropHeld c.mSound
  let (w, sound) := w.get3DSoundInterface res_name looped enableSFX plays
  let w := w.setComponent p (some { c with mSound := sound })
  match sound with
  | none => w
  | some i => (w.setPosition i pos).setIsPaused i false

def destroy (w : SoundWorld V) (p : Ptr) (c : SoundComponent) : SoundWorld V :=
  let w := match c.mSound with
    | none => w
    | some i => (w.stop i).drop i
  w.setComponent p none

end SoundWorld

/-- What happens to sounds, with irrKlang's answer to a request to play one. -/
inductive Op (V : Type)
  | loadBackgroundMusic (res_name : List UInt8) (plays : Bool)
  | stopBackgroundMusic
  | toggleBackgroundMusicPause
  | construct (p : Ptr)
  | loadSound (p : Ptr) (res_name : List UInt8) (looped enableSFX : Bool) (pos : V) (plays : Bool)
  | destroy (p : Ptr)

/-- Nothing can happen to a component that does not exist, nor be made where one is. -/
def step [Zero V] (w : SoundWorld V) : Op V → Option (SoundWorld V)
  | .loadBackgroundMusic res_name plays => some (w.loadBackgroundMusic res_name plays).1
  | .stopBackgroundMusic => some w.stopBackgroundMusic
  | .toggleBackgroundMusicPause => some w.toggleBackgroundMusicPause
  | .construct p =>
      if (w.components p).isSome then none else some (w.setComponent p (some ⟨none⟩))
  | .loadSound p res_name looped enableSFX pos plays =>
      (w.components p).map fun c => w.loadSound p c res_name looped enableSFX pos plays
  | .destroy p => (w.components p).map fun c => w.destroy p c

inductive Holder
  | music
  | component (p : Ptr)
deriving DecidableEq

/-- What decides whether a sound is still heard. -/
structure Track where
  background : Bool
  looped : Bool
  stopped : Bool
deriving DecidableEq, Repr

def Sound.track (sound : Sound V) : Track := ⟨sound.background, sound.looped, sound.stopped⟩

def Track.stop (t : Track) : Track := { t with stopped := true }

@[ext]
structure View where
  tracks : List Track
  handles : Pool Unit
  holds : Holder → Option Nat

def SoundWorld.view (w : SoundWorld V) : View where
  tracks := w.sounds.map Sound.track
  handles := w.handles
  holds
    | .music => w.mBackgroundMusic
    | .component p => (w.components p).bind SoundComponent.mSound

namespace View

def Loops (v : View) (i : Nat) : Prop :=
  ∃ t, v.tracks[i]? = some t ∧ t.looped = true ∧ t.stopped = false

def Background (v : View) (i : Nat) : Prop :=
  ∃ t, v.tracks[i]? = some t ∧ t.background = true ∧ t.stopped = false

/-- Only what is referenced loops on, at most one background track plays, and every
reference is given back once, when nobody holds it any more. -/
structure OnlyReferencedPlay (v : View) : Prop where
  referenced : ∀ i, v.Loops i → Held v.holds i
  one_track : ∀ i j, v.Background i → v.Background j → i = j
  dropped_once : Accounted v.handles v.holds

end View

/-- The condition on the state before a step: music is only loaded while there is none, and
a component only loads a sound while it has none that loops. -/
def Guard (w : SoundWorld V) : Op V → Prop
  | .loadBackgroundMusic res_name _ => res_name ∈ w.mISoundSources → w.mBackgroundMusic = none
  | .loadSound p .. => ∀ i, w.view.holds (.component p) = some i → ¬ w.view.Loops i
  | _ => True

inductive Change
  | keep
  /-- A reference is given back, its sound stopped or not. -/
  | release (holder : Holder) (stops : Bool)
  /-- A reference is given back, its sound not stopped, and a new sound is held. -/
  | replace (holder : Holder) (t : Track)

def Change.apply (v : View) : Change → View
  | keep => v
  | release holder stops => {
      tracks := if stops then (v.holds holder).elim v.tracks fun i => v.tracks.modify i Track.stop
        else v.tracks
      handles := v.handles.deleteHeld (v.holds holder)
      holds := Function.update v.holds holder none }
  | replace holder t => {
      tracks := v.tracks ++ [t]
      handles := (v.handles.deleteHeld (v.holds holder)).new ()
      holds := Function.update v.holds holder (some v.handles.next) }

def changeOf (w : SoundWorld V) : Op V → Change
  | .loadBackgroundMusic res_name plays =>
      if res_name ∈ w.mISoundSources then
        if plays then .replace .music ⟨true, true, false⟩ else .release .music false
      else .keep
  | .stopBackgroundMusic => .release .music true
  | .toggleBackgroundMusicPause => .keep
  | .construct _ => .keep
  | .loadSound p res_name looped _ _ plays =>
      if res_name ∈ w.mISoundSources ∧ plays then
        .replace (.component p) ⟨false, looped, false⟩
      else .release (.component p) false
  | .destroy p => .release (.component p) true

section view

variable {w : SoundWorld V}

theorem dropHeld_eq (w : SoundWorld V) (sound : Option Nat) :
    w.dropHeld sound = { w with handles := w.handles.deleteHeld sound } := by
  cases sound <;> rfl

theorem tracks_modify_same (sounds : List (Sound V)) (i : Nat) {f : Sound V → Sound V}
    (same : ∀ sound, (f sound).track = sound.track) :
    (sounds.modify i f).map Sound.track = sounds.map Sound.track := by
  apply List.ext_getElem?
  intro j
  rw [List.getElem?_map, List.getElem?_modify, List.getElem?_map]
  cases sounds[j]? with
  | none => rfl
  | some sound =>
      simp only [Option.map_some]
      split
      · exact congrArg some (same sound)
      · rfl

theorem tracks_stop (sounds : List (Sound V)) (i : Nat) :
    (sounds.modify i fun sound => { sound with stopped := true }).map Sound.track =
      (sounds.map Sound.track).modify i Track.stop := by
  apply List.ext_getElem?
  intro j
  simp only [List.getElem?_map, List.getElem?_modify]
  cases sounds[j]? with
  | none => rfl
  | some sound =>
      simp only [Option.map_some]
      split <;> rfl

theorem holds_music (w : SoundWorld V) (sound : Option Nat) :
    ({ w with mBackgroundMusic := sound } : SoundWorld V).view.holds =
      Function.update w.view.holds .music sound := by
  funext holder
  cases holder with
  | music => simp [SoundWorld.view]
  | component p => simp [SoundWorld.view]

theorem holds_component (w : SoundWorld V) (p : Ptr) (c : Option SoundComponent) :
    (w.setComponent p c).view.holds =
      Function.update w.view.holds (.component p) (c.bind SoundComponent.mSound) := by
  funext holder
  cases holder with
  | music => simp [SoundWorld.view, SoundWorld.setComponent]
  | component q =>
      by_cases same : q = p
      · subst same
        simp [SoundWorld.view, SoundWorld.setComponent]
      · simp [SoundWorld.view, SoundWorld.setComponent, same]

theorem next_deleteHeld (handles : Pool Unit) (sound : Option Nat) :
    (handles.deleteHeld sound).next = handles.next := by
  cases sound <;> simp [Pool.deleteHeld, Pool.delete, Pool.next]

theorem play_true (w : SoundWorld V) (sound : Sound V) : w.play sound true =
    ({ w with sounds := w.sounds ++ [sound], handles := w.handles.new () }, some w.handles.next) :=
  rfl

theorem view_loadBackgroundMusic [Zero V] (w : SoundWorld V) (res_name : List UInt8)
    (plays : Bool) : (w.loadBackgroundMusic res_name plays).1.view =
      (changeOf w (.loadBackgroundMusic res_name plays)).apply w.view := by
  rw [SoundWorld.loadBackgroundMusic, changeOf]
  by_cases known : res_name ∈ w.mISoundSources
  · rw [if_pos known, if_pos known, dropHeld_eq]
    cases plays with
    | false => exact View.ext rfl rfl (holds_music _ _)
    | true =>
        simp only [play_true, next_deleteHeld, if_true]
        exact View.ext List.map_append rfl (holds_music _ _)
  · rw [if_neg known, if_neg known]
    rfl

theorem view_stopBackgroundMusic (w : SoundWorld V) :
    w.stopBackgroundMusic.view = (Change.release .music true).apply w.view := by
  have music : w.view.holds .music = w.mBackgroundMusic := rfl
  rw [SoundWorld.stopBackgroundMusic, Change.apply, music]
  cases held : w.mBackgroundMusic with
  | none => exact View.ext rfl rfl (update_none (music.trans held)).symm
  | some i => exact View.ext (tracks_stop _ _) rfl (holds_music _ _)

theorem view_setIsPaused (w : SoundWorld V) (i : Nat) (b : Bool) :
    (w.setIsPaused i b).view = w.view :=
  View.ext (tracks_modify_same _ _ fun _ => rfl) rfl rfl

theorem view_setPosition (w : SoundWorld V) (i : Nat) (pos : V) :
    (w.setPosition i pos).view = w.view :=
  View.ext (tracks_modify_same _ _ fun _ => rfl) rfl rfl

theorem view_toggleBackgroundMusicPause (w : SoundWorld V) :
    w.toggleBackgroundMusicPause.view = w.view := by
  rw [SoundWorld.toggleBackgroundMusicPause]
  split
  · rfl
  · split
    · rfl
    · split <;> exact view_setIsPaused w _ _

theorem view_construct {p : Ptr} (absent : w.components p = none) :
    (w.setComponent p (some ⟨none⟩)).view = w.view := by
  refine View.ext rfl rfl ((holds_component w p _).trans ?_)
  have nothing : w.view.holds (.component p) = none := by simp [SoundWorld.view, absent]
  exact update_none nothing

theorem view_loadSound [Zero V] {p : Ptr} {c : SoundComponent} (found : w.components p = some c)
    (res_name : List UInt8) (looped enableSFX : Bool) (pos : V) (plays : Bool) :
    (w.loadSound p c res_name looped enableSFX pos plays).view =
      (changeOf w (.loadSound p res_name looped enableSFX pos plays)).apply w.view := by
  have held : w.view.holds (.component p) = c.mSound := by simp [SoundWorld.view, found]
  rw [SoundWorld.loadSound, changeOf, dropHeld_eq, SoundWorld.get3DSoundInterface]
  by_cases known : res_name ∈ w.mISoundSources
  · simp only [if_pos known]
    cases plays with
    | false =>
        simp only [known, Bool.false_eq_true, and_false, if_false, Change.apply, held]
        exact View.ext rfl rfl (holds_component _ _ _)
    | true =>
        simp only [known, and_self, if_true, Change.apply, held, play_true, next_deleteHeld]
        rw [view_setIsPaused, view_setPosition]
        exact View.ext List.map_append rfl (holds_component _ _ _)
  · simp only [known, false_and, if_false, Change.apply, held]
    exact View.ext rfl rfl (holds_component _ _ _)

theorem view_destroy {p : Ptr} {c : SoundComponent} (found : w.components p = some c) :
    (w.destroy p c).view = (Change.release (.component p) true).apply w.view := by
  have held : w.view.holds (.component p) = c.mSound := by simp [SoundWorld.view, found]
  rw [SoundWorld.destroy, Change.apply, held]
  cases c.mSound with
  | none => exact View.ext rfl rfl (holds_component _ _ _)
  | some i => exact View.ext (tracks_stop _ _) rfl (holds_component _ _ _)

/-- Every step is one of three changes of the tracks and their references. -/
theorem step_view [Zero V] {w' : SoundWorld V} {op : Op V} (returned : step w op = some w') :
    w'.view = (changeOf w op).apply w.view := by
  cases op with
  | loadBackgroundMusic res_name plays =>
      obtain rfl := Option.some.inj returned
      exact view_loadBackgroundMusic w res_name plays
  | stopBackgroundMusic =>
      obtain rfl := Option.some.inj returned
      exact view_stopBackgroundMusic w
  | toggleBackgroundMusicPause =>
      obtain rfl := Option.some.inj returned
      exact view_toggleBackgroundMusicPause w
  | construct p =>
      rw [step] at returned
      split at returned
      · simp at returned
      next absent =>
        obtain rfl := Option.some.inj returned
        exact view_construct (Option.not_isSome_iff_eq_none.mp absent)
  | loadSound p res_name looped enableSFX pos plays =>
      obtain ⟨c, found, rfl⟩ := Option.map_eq_some_iff.mp returned
      exact view_loadSound found res_name looped enableSFX pos plays
  | destroy p =>
      obtain ⟨c, found, rfl⟩ := Option.map_eq_some_iff.mp returned
      exact view_destroy found

end view

section invariant

/-- What every change keeps. A referenced sound was never stopped, music is what the
manager references and components do not, and all of it is looped. -/
structure Sane (v : View) : Prop where
  owned : Owned v.handles v.holds
  accounted : Accounted v.handles v.holds
  numbered : v.handles.next = v.tracks.length
  playing : ∀ holder i, v.holds holder = some i →
    ∃ t, v.tracks[i]? = some t ∧ t.stopped = false ∧ (t.background = true ↔ holder = .music)
  looped : ∀ t ∈ v.tracks, t.background = true → t.looped = true

def Change.Proper : Change → Prop
  | replace holder t => t.stopped = false ∧ (t.background = true ↔ holder = .music) ∧
      (t.background = true → t.looped = true)
  | _ => True

def Change.Quiet (v : View) : Change → Prop
  | release holder false => ∀ i, v.holds holder = some i → ¬ v.Loops i
  | replace holder _ => ∀ i, v.holds holder = some i → ¬ v.Loops i
  | _ => True

variable {v : View} {holder : Holder}

theorem sane_start : Sane ⟨[], .empty, fun _ => none⟩ where
  owned := owned_empty
  accounted := accounted_empty
  numbered := rfl
  playing _ _ held := by simp at held
  looped _ member := by simp at member

theorem changeOf_proper (w : SoundWorld V) (op : Op V) : (changeOf w op).Proper := by
  cases op with
  | loadBackgroundMusic res_name plays =>
      simp only [changeOf]
      split
      · split
        · exact ⟨rfl, by simp, fun _ => rfl⟩
        · trivial
      · trivial
  | loadSound p res_name looped enableSFX pos plays =>
      simp only [changeOf]
      split
      · exact ⟨rfl, by simp, by simp⟩
      · trivial
  | stopBackgroundMusic => trivial
  | toggleBackgroundMusicPause => trivial
  | construct p => trivial
  | destroy p => trivial

theorem get_track {i : Nat} {t : Track} (found : v.tracks[i]? = some t) : i < v.tracks.length :=
  (List.getElem?_eq_some_iff.mp found).1

theorem held_elsewhere {other : Holder} {i : Nat}
    (held : Function.update v.holds holder none other = some i) :
    other ≠ holder ∧ v.holds other = some i := by
  by_cases same : other = holder
  · simp [same] at held
  · exact ⟨same, by simpa [same] using held⟩

theorem Sane.release (sane : Sane v) (stops : Bool) :
    Sane ((Change.release holder stops).apply v) := by
  refine ⟨sane.owned.deleteHeld, sane.owned.accounted_deleteHeld sane.accounted, ?_, ?_, ?_⟩
  · refine (next_deleteHeld _ _).trans (sane.numbered.trans ?_)
    cases stops <;> cases held : v.holds holder <;> simp [Change.apply, held]
  · intro other i held
    obtain ⟨apart, before⟩ := held_elsewhere held
    obtain ⟨t, found, going⟩ := sane.playing other i before
    refine ⟨t, ?_, going⟩
    cases stops with
    | false => exact found
    | true =>
        cases lost : v.holds holder with
        | none => simpa [Change.apply, lost] using found
        | some j =>
            have different : j ≠ i := by
              rintro rfl
              exact apart (sane.owned.distinct other holder j before lost)
            simpa [Change.apply, lost, List.getElem?_modify, different] using found
  · intro t member music
    cases stops with
    | false => exact sane.looped t member music
    | true =>
        cases lost : v.holds holder with
        | none => exact sane.looped t (by simpa [Change.apply, lost] using member) music
        | some j =>
            simp only [Change.apply, lost, if_true, Option.elim_some] at member
            obtain ⟨i, found⟩ := List.mem_iff_getElem?.mp member
            rw [List.getElem?_modify] at found
            obtain ⟨old, earlier, rfl⟩ := Option.map_eq_some_iff.mp found
            have before := sane.looped old (List.mem_of_getElem? earlier)
            split at music <;> split <;> exact before music

theorem Sane.replace {t : Track} (sane : Sane v) (proper : (Change.replace holder t).Proper) :
    Sane ((Change.replace holder t).apply v) := by
  obtain ⟨going, kind, loops⟩ := proper
  have released : Owned (v.handles.deleteHeld (v.holds holder))
      (Function.update v.holds holder none) := sane.owned.deleteHeld
  have count := next_deleteHeld v.handles (v.holds holder)
  have same : Function.update (Function.update v.holds holder none) holder
      (some (v.handles.deleteHeld (v.holds holder)).next) =
        Function.update v.holds holder (some v.handles.next) := by
    rw [Function.update_idem, count]
  have owned : Owned _ (Function.update _ holder _) := released.assign ()
  have accounted := (released.accounted_assign_iff
    (sane.owned.accounted_deleteHeld sane.accounted) ()).mpr
      (Function.update_self (f := v.holds) (v := none) holder)
  rw [same] at owned accounted
  refine ⟨owned, accounted, ?_, ?_, ?_⟩
  · have before := sane.numbered
    simp only [Change.apply, Pool.next, Pool.new, List.length_append, List.length_singleton]
    rw [← before, ← count]
    rfl
  · intro other i held
    by_cases mine : other = holder
    · subst mine
      obtain rfl : v.handles.next = i := by simpa [Change.apply] using held
      exact ⟨t, by simp [Change.apply, sane.numbered], going, kind⟩
    · have before : v.holds other = some i := by simpa [Change.apply, mine] using held
      obtain ⟨old, found, rest⟩ := sane.playing other i before
      refine ⟨old, ?_, rest⟩
      exact (List.getElem?_append_left (get_track found)).trans found
  · intro track member music
    rcases List.mem_append.mp member with old | new
    · exact sane.looped track old music
    · obtain rfl := List.mem_singleton.mp new
      exact loops music

theorem Sane.apply (sane : Sane v) {change : Change} (proper : change.Proper) :
    Sane (change.apply v) := by
  cases change with
  | keep => exact sane
  | release holder stops => exact sane.release stops
  | replace holder t => exact sane.replace proper

def View.Referenced (v : View) : Prop := ∀ i, v.Loops i → Held v.holds i

theorem onlyReferencedPlay_of (sane : Sane v) (referenced : v.Referenced) :
    v.OnlyReferencedPlay := by
  have music : ∀ i, v.Background i → v.holds .music = some i := by
    rintro i ⟨t, found, background, going⟩
    have looped := sane.looped t (List.mem_of_getElem? found) background
    obtain ⟨holder, held⟩ := referenced i ⟨t, found, looped, going⟩
    obtain ⟨t', found', -, kind⟩ := sane.playing holder i held
    obtain rfl : t' = t := Option.some.inj (found'.symm.trans found)
    rwa [kind.mp background] at held
  refine ⟨referenced, fun i j first second => ?_, sane.accounted⟩
  exact Option.some.inj ((music i first).symm.trans (music j second))

/-- A sound that its holder alone references is lost when the holder lets go of it. -/
theorem lost_iff (sane : Sane v) (referenced : v.Referenced) :
    (∀ i, v.Loops i → ∃ other ≠ holder, v.holds other = some i) ↔
      ∀ i, v.holds holder = some i → ¬ v.Loops i := by
  constructor
  · intro kept i held loops
    obtain ⟨other, apart, elsewhere⟩ := kept i loops
    exact apart (sane.owned.distinct other holder i elsewhere held)
  · intro quiet i loops
    obtain ⟨other, held⟩ := referenced i loops
    refine ⟨other, ?_, held⟩
    rintro rfl
    exact quiet i held loops

theorem loops_stop {i j : Nat} : View.Loops { v with tracks := v.tracks.modify j Track.stop } i ↔
    i ≠ j ∧ v.Loops i := by
  simp only [View.Loops, List.getElem?_modify]
  by_cases same : j = i
  · subst same
    simp only [if_true, ne_eq, not_true_eq_false, false_and, iff_false]
    rintro ⟨t, found, -, going⟩
    obtain ⟨old, -, rfl⟩ := Option.map_eq_some_iff.mp found
    simp [Track.stop] at going
  · simp [same, Ne.symm same]

theorem referenced_release (sane : Sane v) (referenced : v.Referenced) (stops : Bool) :
    ((Change.release holder stops).apply v).Referenced ↔
      (Change.release holder stops).Quiet v := by
  cases stops with
  | false =>
      refine Iff.trans ?_ (lost_iff sane referenced)
      exact forall_congr' fun i => imp_congr_right fun _ => by simp [Change.apply, held_update]
  | true =>
      refine ⟨fun _ => trivial, fun _ i loops => held_update.mpr (.inr ?_)⟩
      have kept : v.Loops i ∧ v.holds holder ≠ some i := by
        cases held : v.holds holder with
        | none => exact ⟨by simpa [Change.apply, held, View.Loops] using loops, by simp⟩
        | some j =>
            have stopped : View.Loops { v with tracks := v.tracks.modify j Track.stop } i := by
              simpa [Change.apply, held, View.Loops] using loops
            obtain ⟨apart, before⟩ := loops_stop.mp stopped
            exact ⟨before, fun same => apart (Option.some.inj same).symm⟩
      obtain ⟨other, held⟩ := referenced i kept.1
      refine ⟨other, ?_, held⟩
      rintro rfl
      exact kept.2 held

theorem referenced_replace {t : Track} (sane : Sane v) (referenced : v.Referenced) :
    ((Change.replace holder t).apply v).Referenced ↔ (Change.replace holder t).Quiet v := by
  refine Iff.trans ?_ (lost_iff sane referenced)
  constructor
  · rintro after i ⟨old, found, loops⟩
    have inside := get_track found
    have still : (v.tracks ++ [t])[i]? = some old :=
      (List.getElem?_append_left inside).trans found
    rcases held_update.mp (after i ⟨old, still, loops⟩) with new | elsewhere
    · rw [sane.numbered, Option.some.injEq] at new
      omega
    · exact elsewhere
  · rintro kept i ⟨track, found, loops⟩
    refine held_update.mpr ?_
    by_cases inside : i < v.tracks.length
    · exact .inr (kept i ⟨track, (List.getElem?_append_left inside).symm.trans found, loops⟩)
    · left
      have upto := get_track found
      simp only [Change.apply, List.length_append, List.length_singleton] at upto
      rw [sane.numbered]
      congr 1
      omega

theorem referenced_apply (sane : Sane v) (referenced : v.Referenced) (change : Change) :
    (change.apply v).Referenced ↔ change.Quiet v := by
  cases change with
  | keep => exact ⟨fun _ => trivial, fun _ => referenced⟩
  | release holder stops => exact referenced_release sane referenced stops
  | replace holder t => exact referenced_replace sane referenced

theorem guard_iff {w : SoundWorld V} (sane : Sane w.view) (op : Op V) :
    Guard w op ↔ (changeOf w op).Quiet w.view := by
  have music : (∀ i, w.view.holds .music = some i → ¬ w.view.Loops i) ↔
      w.mBackgroundMusic = none := by
    constructor
    · intro quiet
      by_contra held
      obtain ⟨i, held⟩ := Option.ne_none_iff_exists'.mp held
      obtain ⟨t, found, going, kind⟩ := sane.playing .music i held
      have looped := sane.looped t (List.mem_of_getElem? found) (kind.mpr rfl)
      exact quiet i held ⟨t, found, looped, going⟩
    · intro empty i held
      have none : w.view.holds .music = none := empty
      simp [none] at held
  cases op with
  | loadBackgroundMusic res_name plays =>
      simp only [Guard, changeOf]
      split
      next known =>
        simp only [known, true_imp_iff]
        split <;> exact music.symm
      next unknown => simp [unknown, Change.Quiet]
  | loadSound p res_name looped enableSFX pos plays =>
      simp only [Guard, changeOf]
      split <;> exact Iff.rfl
  | stopBackgroundMusic => exact Iff.rfl
  | toggleBackgroundMusicPause => exact Iff.rfl
  | construct p => exact Iff.rfl
  | destroy p => exact Iff.rfl

end invariant

theorem guard_of_none [Zero V] {w : SoundWorld V} {op : Op V} (stuck : step w op = none) :
    Guard w op := by
  cases op with
  | loadSound p res_name looped enableSFX pos plays =>
      intro i held
      have absent : w.components p = none := Option.map_eq_none_iff.mp stuck
      simp [SoundWorld.view, absent] at held
  | loadBackgroundMusic res_name plays => simp [step] at stuck
  | stopBackgroundMusic => trivial
  | toggleBackgroundMusicPause => trivial
  | construct p => trivial
  | destroy p => trivial

/-- Only referenced sounds play on in every run exactly when music is only loaded while
there is none, and a component only loads a sound while it has none that loops. -/
theorem onlyReferencedPlay_iff [Zero V] (mISoundSources : List (List UInt8)) (ops : List (Op V)) :
    Throughout step (fun w => w.view.OnlyReferencedPlay) (start mISoundSources) ops ↔
      Along step Guard (start mISoundSources) ops := by
  have silent : (start mISoundSources : SoundWorld V).view = ⟨[], .empty, fun _ => none⟩ := by
    refine View.ext rfl rfl (funext fun holder => ?_)
    cases holder <;> rfl
  have sane : Sane (start mISoundSources : SoundWorld V).view := silent ▸ sane_start
  have quiet : (start mISoundSources : SoundWorld V).view.OnlyReferencedPlay := by
    refine onlyReferencedPlay_of sane ?_
    rintro i ⟨t, found, -⟩
    simp [silent] at found
  refine throughout_iff (I := fun w : SoundWorld V => Sane w.view) (L := fun _ => True)
    (fun w op sane quiet _ => ?_) (fun w op w' sane _ _ _ returned => ?_)
    sane quiet fun _ _ => trivial
  · cases outcome : step w op with
    | none => simpa using guard_of_none outcome
    | some w' =>
        have view := step_view outcome
        have sane' := sane.apply (changeOf_proper w op)
        rw [guard_iff sane, ← referenced_apply sane quiet.referenced]
        simp only [Option.some.injEq, forall_eq', view]
        exact ⟨fun after => after.referenced, onlyReferencedPlay_of sane'⟩
  · rw [step_view returned]
    exact sane.apply (changeOf_proper w op)

/-- The second load leaves the first track playing, and nothing references it. -/
theorem unreferenced_twoLoads : ¬ Throughout step
    (fun w : SoundWorld (Int × Int × Int) => w.view.OnlyReferencedPlay) (start [[97]])
    [.loadBackgroundMusic [97] true, .loadBackgroundMusic [97] true] := by
  intro all
  have quiet := all _ (List.prefix_refl _) _ rfl
  obtain ⟨holder, held⟩ := quiet.referenced 0 ⟨⟨true, true, false⟩, rfl, rfl, rfl⟩
  cases holder with
  | music => exact absurd held (by decide)
  | component p => exact absurd held (show (none : Option Nat) ≠ some 0 by decide)

end Ssuge.Sounds

import Ssuge.Animations
import Ssuge.Approach
import Mathlib.Data.Rat.Floor
import Mathlib.Tactic.NormNum

/-! Where the animations of a mesh component stand. An animation that does not loop is left
where it is by a step that would take it to its end, or back to its beginning, and nothing else
is done there. So it never shows its last frame, and comes to rest where the next step no longer
fits. -/

namespace Ssuge.Components

open CString Procedure GuardedRun Approach

abbrev exactScalar (F : Type) [Field F] [LinearOrder F] : Scalar F where
  decidableLT := inferInstance
  decidableLE := inferInstance

attribute [local instance] exactScalar

section times

open MeshComponent

variable {F V Q B : Type} [Field F] [LinearOrder F]

/-- The animation stands before its end. -/
def Inside (a : AnimationState F) : Prop := 0 ≤ a.timePosition ∧ a.timePosition < a.length

/-- Ogre keeps the time of an animation that does not loop between its beginning and its end,
and wraps the time of one that loops. -/
structure SetsTime (lib : Library F V Q B) : Prop where
  others : ∀ a time, lib.setTimePosition a time =
    { a with timePosition := (lib.setTimePosition a time).timePosition }
  clamped : ∀ a time, Inside a → a.loop = false →
    (lib.setTimePosition a time).timePosition = max 0 (min a.length time)
  wrapped : ∀ a time, Inside a → a.loop = true → Inside (lib.setTimePosition a time)

variable {lib : Library F V Q B} {a : AnimationState F}

theorem setTimePosition_once (sets : SetsTime lib) (inside : Inside a) (once : a.loop = false)
    {time : F} (low : 0 ≤ time) (high : time < a.length) :
    lib.setTimePosition a time = { a with timePosition := time } := by
  rw [sets.others, sets.clamped a time inside once, min_eq_right high.le, max_eq_right low]

theorem setTimePosition_inside (sets : SetsTime lib) (inside : Inside a) {time : F}
    (low : 0 ≤ time) (high : time < a.length) : Inside (lib.setTimePosition a time) := by
  cases loops : a.loop with
  | true => exact sets.wrapped a time inside loops
  | false =>
      rw [setTimePosition_once sets inside loops low high]
      exact ⟨low, high⟩

variable [IsStrictOrderedRing F]

theorem advance_once (sets : SetsTime lib) (inside : Inside a) (once : a.loop = false) {dT : F}
    (forwards : 0 ≤ dT) (forward : Bool) : advance lib dT forward a =
      { a with timePosition :=
          if forward then approach a.length dT a.timePosition
          else -approach 0 dT (-a.timePosition) } := by
  have ⟨low, high⟩ := inside
  have idle : ¬ a.loop = true := by simp [once]
  rw [advance, if_neg idle]
  cases forward with
  | true =>
      rw [if_pos rfl, if_pos rfl, approach]
      by_cases ends : a.length ≤ a.timePosition + dT
      · rw [if_pos ends, if_pos ends]
      · rw [if_neg ends, if_neg ends]
        exact setTimePosition_once sets inside once (add_nonneg low forwards) (not_le.mp ends)
  | false =>
      rw [if_neg Bool.false_ne_true, if_neg Bool.false_ne_true, approach]
      have same : a.timePosition - dT ≤ 0 ↔ 0 ≤ -a.timePosition + dT := by
        constructor <;> intro begins <;> linarith
      by_cases begins : a.timePosition - dT ≤ 0
      · rw [if_pos begins, if_pos (same.mp begins), neg_neg]
      · rw [if_neg begins, if_neg (same.not.mp begins)]
        have low' : 0 ≤ a.timePosition + -dT := by linarith
        have high' : a.timePosition + -dT < a.length := by linarith
        exact (setTimePosition_once sets inside once low' high').trans (by rw [neg_add, neg_neg])

theorem advance_inside (sets : SetsTime lib) (inside : Inside a) {dT : F} (forwards : 0 ≤ dT)
    (forward : Bool) : Inside (advance lib dT forward a) := by
  cases loops : a.loop with
  | true =>
      rw [advance, if_pos loops]
      exact sets.wrapped a _ inside loops
  | false =>
      rw [advance_once sets inside loops forwards]
      cases forward with
      | true => exact ⟨inside.1.trans (le_approach forwards), approach_lt inside.2⟩
      | false =>
          have before : approach 0 dT (-a.timePosition) ≤ 0 := approach_le (neg_nonpos.mpr inside.1)
          have further : -a.timePosition ≤ approach 0 dT (-a.timePosition) := le_approach forwards
          exact ⟨neg_nonneg.mpr before, (neg_le.mp further).trans_lt inside.2⟩

end times

section runs

open MeshComponent

variable {F V Q B : Type} [Field F] [LinearOrder F]

def AllInside (c : MeshComponent F) : Prop := ∀ name a, c.animation name = some a → Inside a

variable {lib : Library F V Q B} {s t : MeshStage F V Q} {c : MeshComponent F}

theorem AllInside.withAnimation (inside : AllInside c) {name : Name}
    {f : AnimationState F → AnimationState F} (keeps : ∀ a, Inside a → Inside (f a)) :
    AllInside (c.withAnimation name f) := by
  intro other a found
  rw [animation_withAnimation] at found
  split at found
  next same =>
    obtain ⟨before, known, rfl⟩ := Option.map_eq_some_iff.mp found
    exact keeps before (inside name before known)
  next => exact inside other a found

theorem AllInside.changedOver (inside : AllInside c) (current next : Name) :
    AllInside (c.changedOver current next) := by
  refine ((inside.withAnimation ?_).withAnimation ?_).withAnimation ?_
  all_goals exact fun _ => id

/-- However it ends, the animations stand before their ends as they did. -/
def Keeps {α : Type} (p : ComponentProc F V Q (MeshComponent F) α) : Prop :=
  ∀ s, AllInside s.1 → AllInside (p.run s).state.1

theorem Keeps.bind {α β : Type} {p : ComponentProc F V Q (MeshComponent F) α}
    {f : α → ComponentProc F V Q (MeshComponent F) β} (first : Keeps p)
    (rest : ∀ a, Keeps (f a)) : Keeps (p >>= f) := fun s =>
  bind_related (R := fun s t : MeshStage F V Q => AllInside s.1 → AllInside t.1)
    (fun before after inside => after (before inside)) (first s) fun a t _ => rest a t

theorem keeps_orStop {α : Type} (x : Option α) (e : Stop) :
    Keeps (orStop x e : ComponentProc F V Q (MeshComponent F) α) := by
  intro s inside
  cases x <;> exact inside

theorem keeps_pure {α : Type} (value : α) :
    Keeps (pure value : ComponentProc F V Q (MeshComponent F) α) := fun _ inside => inside

theorem keeps_modifyAnimation (name : Name) {f : AnimationState F → AnimationState F}
    (keeps : ∀ a, Inside a → Inside (f a)) :
    Keeps (modifyAnimation name f : ComponentProc F V Q (MeshComponent F) Unit) :=
  fun _ inside => inside.withAnimation keeps

theorem keeps_modifyOwn {f : MeshComponent F → MeshComponent F}
    (same : ∀ c, (f c).mEntity = c.mEntity) :
    Keeps (modifyOwn f : ComponentProc F V Q (MeshComponent F) Unit) := by
  intro s inside name a found
  have before : s.1.animation name = some a := by
    rw [← found, animation, animation]
    exact congrArg (Option.bind · _) (same s.1).symm
  exact inside name a before

theorem keeps_queueAnimation (sets : SetsTime lib) (animName : Name) (looped : Bool)
    (transitionTime : F) (playForward : Bool) :
    Keeps (MeshComponent.queueAnimation lib animName looped transitionTime playForward) := by
  rintro ⟨c, a⟩
  rw [MeshComponent.queueAnimation, bind_get_run]
  by_cases idle : c.mCurrentAnimation = none
  · simp only [if_pos idle]
    refine Keeps.bind (keeps_orStop _ _) (fun entity => ?_) (c, a)
    refine (keeps_orStop _ _).bind fun _ => Keeps.bind ?_ fun _ => Keeps.bind ?_ fun _ => ?_
    · exact keeps_modifyOwn fun _ => rfl
    · exact keeps_modifyAnimation _ fun _ => id
    · exact keeps_pure 0
  · simp only [if_neg idle]
    split
    · refine Keeps.bind (keeps_orStop _ _) (fun entity => ?_) (c, a)
      refine (keeps_orStop _ _).bind fun _ => Keeps.bind ?_ fun _ => Keeps.bind ?_ fun _ =>
        Keeps.bind ?_ fun _ => ?_
      · exact keeps_modifyOwn fun _ => rfl
      · refine keeps_modifyAnimation _ fun a inside => ?_
        have ready : Inside { a with loop := looped, weight := 0 } := inside
        exact setTimePosition_inside sets ready (le_refl 0) (inside.1.trans_lt inside.2)
      · exact keeps_modifyOwn fun _ => rfl
      · exact keeps_pure 0
    · exact keeps_pure 1 (c, a)

def played (a : AnimationState F) (forward : Bool) (dT : F) (n : Nat) : F :=
  if forward then (approach a.length dT)^[n] a.timePosition
  else -(approach 0 dT)^[n] (-a.timePosition)

theorem played_succ (a : AnimationState F) (forward : Bool) (dT : F) (n : Nat) :
    played a forward dT (n + 1) =
      played { a with timePosition := played a forward dT 1 } forward dT n := by
  cases forward <;> simp [played]

variable [IsStrictOrderedRing F]

theorem AllInside.update (sets : SetsTime lib) (inside : AllInside s.1) {input : FrameInput F V Q}
    (forwards : 0 ≤ input.dT) (returned : animate lib s (.update input) = some t) :
    AllInside t.1 := by
  rcases update_returned (animate_update_returned returned) with ⟨-, same⟩ | ⟨current, -, rest⟩
  · exact same ▸ inside
  have moved : AllInside (s.1.advanced lib input.dT current) :=
    inside.withAnimation fun a before => advance_inside sets before forwards _
  rcases rest with same | ⟨next, shown, -, -, -, same⟩
  · exact same ▸ moved
  · exact same ▸ moved.changedOver current next

/-- No animation ever stands at its end, whatever is queued and updated. -/
theorem animations_inside (sets : SetsTime lib) (inside : AllInside s.1)
    {calls : List (AnimationCall F V Q)}
    (forwards : ∀ input, AnimationCall.update input ∈ calls → 0 ≤ input.dT) :
    Throughout (animate lib) (fun t => AllInside t.1) s calls := by
  have ahead : ∀ call ∈ calls, ∀ input, call = AnimationCall.update input → 0 ≤ input.dT :=
    fun call member input same => forwards input (same ▸ member)
  refine (along_of_forall ahead).throughout (fun s call t inside ahead stepped => ?_) inside
  cases call with
  | update input => exact inside.update sets (ahead input rfl) stepped
  | queueAnimation animName looped transitionTime playForward =>
      rw [animate, AnimationCall.run, resumes_discard] at stepped
      rw [← resumes_state stepped]
      exact keeps_queueAnimation sets animName looped transitionTime playForward s inside

theorem animate_update_once {input : FrameInput F V Q} {name : Name} {a : AnimationState F}
    (sets : SetsTime lib) (current : s.1.mCurrentAnimation = some name)
    (found : s.1.animation name = some a) (once : a.loop = false) (inside : Inside a)
    (forwards : 0 ≤ input.dT) (returned : animate lib s (.update input) = some t) :
    t.1 = s.1.advanced lib input.dT name := by
  rcases update_returned (animate_update_returned returned) with
    ⟨idle, -⟩ | ⟨current', named, rest⟩
  · simp [current] at idle
  obtain rfl : name = current' := Option.some.inj (current.symm.trans named)
  rcases rest with moved | ⟨next, shown, -, played, loops, -⟩
  · exact moved
  -- an animation that does not loop is never changed over
  rw [advanced, animation_withAnimation, if_pos rfl, found, Option.map_some,
    advance_once sets inside once forwards] at played
  obtain rfl := Option.some.inj played
  rw [once] at loops
  cases loops

theorem animate_updates {inputs : List (FrameInput F V Q)} {name : Name} {a : AnimationState F}
    {dT : F} (sets : SetsTime lib) (current : s.1.mCurrentAnimation = some name)
    (found : s.1.animation name = some a) (once : a.loop = false) (inside : Inside a)
    (forwards : 0 ≤ dT) (equal : ∀ input ∈ inputs, input.dT = dT)
    (ran : runSteps (animate lib) s (inputs.map .update) = some t) :
    t.1.animation name = some
      { a with timePosition := played a s.1.mPlayAnimationForward dT inputs.length } := by
  induction inputs generalizing s a with
  | nil =>
      obtain rfl := Option.some.inj ran
      rw [found]
      cases s.1.mPlayAnimationForward <;> simp [played]
  | cons input inputs ih =>
      obtain ⟨u, stepped, rest⟩ := Option.bind_eq_some_iff.mp ran
      obtain rfl := equal input List.mem_cons_self
      have moved := animate_update_once sets current found once inside forwards stepped
      have first : advance lib input.dT s.1.mPlayAnimationForward a =
          { a with timePosition := played a s.1.mPlayAnimationForward input.dT 1 } :=
        advance_once sets inside once forwards _
      have stands : u.1.animation name =
          some { a with timePosition := played a s.1.mPlayAnimationForward input.dT 1 } := by
        rw [moved, advanced, animation_withAnimation, if_pos rfl, found, Option.map_some, first]
      have direction : u.1.mPlayAnimationForward = s.1.mPlayAnimationForward := by rw [moved]; rfl
      have after := ih (by rw [moved]; exact current) stands once
        (first ▸ advance_inside sets inside forwards _)
        (fun other member => equal other (List.mem_cons_of_mem _ member)) rest
      rw [after, direction, List.length_cons]
      exact congrArg (fun time => some { a with timePosition := time })
        (played_succ a _ _ _).symm

variable [FloorSemiring F]

/-- After equal steps the current animation, if it does not loop, has gone as many of them as fit
before its end, or before its beginning. -/
theorem position_after {inputs : List (FrameInput F V Q)} {name : Name} {a : AnimationState F}
    {dT : F} (sets : SetsTime lib) (current : s.1.mCurrentAnimation = some name)
    (found : s.1.animation name = some a) (once : a.loop = false) (inside : Inside a)
    (positive : 0 < dT) (equal : ∀ input ∈ inputs, input.dT = dT)
    (ran : runSteps (animate lib) s (inputs.map .update) = some t) :
    t.1.animation name = some { a with
      timePosition :=
        if s.1.mPlayAnimationForward then
          a.timePosition + (min inputs.length (strides a.length dT a.timePosition) : Nat) * dT
        else
          a.timePosition - (min inputs.length (strides 0 dT (-a.timePosition)) : Nat) * dT } := by
  rw [animate_updates sets current found once inside positive.le equal ran, played,
    approach_iterate positive, approach_iterate positive, neg_add, neg_neg, sub_eq_add_neg]

end runs

section rationals

def rationalTimes : Library ℚ Unit Unit Unit where
  real x := x.bits.toNat
  vector _ _ _ := ()
  scale _ _ := ()
  quarter := 1 / 4
  unitX := ()
  unitY := ()
  negativeUnitZ := ()
  degrees _ _ := ()
  radians _ _ := ()
  getPitch _ := 0
  rotateNode _ _ := ()
  rotateCamera _ _ := ()
  translate _ _ := ()
  convertLocalToWorldPosition _ _ := ()
  perSecond _ _ := ()
  setTimePosition a time := { a with
    timePosition :=
      if time = a.timePosition then time
      else if a.loop then time - a.length * ⌊time / a.length⌋
      else max 0 (min a.length time) }
  newCamera := ⟨(), (), 100⟩
  calculateLocalInertia _ _ := ()
  newBody _ _ _ _ := ()
  setWorldTransform _ _ := ()
  applyForce _ _ _ := ()
  applyTorqueImpulse _ _ := ()

theorem setsTime_rational : SetsTime rationalTimes where
  others _ _ := rfl
  clamped a time inside once := by
    simp only [rationalTimes, once, Bool.false_eq_true, if_false]
    split
    next same => rw [same, min_eq_right inside.2.le, max_eq_right inside.1]
    next => rfl
  wrapped a time inside loops := by
    have positive : 0 < a.length := inside.1.trans_lt inside.2
    simp only [Inside, rationalTimes, loops, if_true]
    split
    next same => exact same ▸ inside
    next =>
      have low : ⌊time / a.length⌋ * a.length ≤ time :=
        (le_div_iff₀ positive).mp (Int.floor_le _)
      have high : time < (⌊time / a.length⌋ + 1) * a.length :=
        (div_lt_iff₀ positive).mp (Int.lt_floor_add_one _)
      constructor <;> linarith

def walker : MeshStage ℚ Unit Unit :=
  ({ MeshComponent.constructed with
      mEntity := some ⟨true, fun name =>
        if name = chars "walk" then some ⟨false, false, 1, 0, 3⟩ else none⟩ },
    ⟨chars "Walker", ⟨(), ()⟩, none, none, none, none, 0, .missing⟩)

def walkFrame : FrameInput ℚ Unit Unit := ⟨1, false, (), 0, 0, 0, 0, ⟨(), ()⟩, false⟩

theorem allInside_walker : AllInside walker.1 := by
  intro name a found
  simp only [walker, MeshComponent.animation, Option.bind_some] at found
  split at found
  next =>
    obtain rfl := Option.some.inj found
    constructor <;> norm_num
  next => cases found

/-- The walk is queued and then updated to its end. -/
theorem animations_inside_walk : Throughout (animate rationalTimes) (fun t => AllInside t.1) walker
    (.queueAnimation (chars "walk") false 1 true :: List.replicate 5 (.update walkFrame)) := by
  refine animations_inside setsTime_rational allInside_walker fun input member => ?_
  simp only [List.mem_cons, reduceCtorEq, List.mem_replicate, false_or] at member
  obtain rfl := AnimationCall.update.inj member.2
  norm_num [walkFrame]

def walking : MeshStage ℚ Unit Unit :=
  ({ walker.1 with mCurrentAnimation := some (chars "walk") }, walker.2)

/-- Of five steps two are made: the third would reach the end. -/
theorem position_after_walk : ∃ t,
    runSteps (animate rationalTimes) walking ((List.replicate 5 walkFrame).map .update) = some t ∧
      t.1.animation (chars "walk") = some ⟨false, false, 1, 2, 3⟩ := by
  have returns : (runSteps (animate rationalTimes) walking
      ((List.replicate 5 walkFrame).map .update)).isSome := rfl
  obtain ⟨t, ran⟩ := Option.isSome_iff_exists.mp returns
  have inside : Inside (⟨false, false, 1, 0, 3⟩ : AnimationState ℚ) := by
    constructor <;> norm_num
  have equal : ∀ input ∈ List.replicate 5 walkFrame, input.dT = 1 :=
    fun input member => List.eq_of_mem_replicate member ▸ rfl
  have fit : strides (3 : ℚ) 1 0 = 2 := by norm_num [strides]
  have current : walking.1.mCurrentAnimation = some (chars "walk") := rfl
  have stands := position_after setsTime_rational current rfl rfl inside one_pos equal ran
  refine ⟨t, ran, stands.trans ?_⟩
  norm_num [walking, walker, MeshComponent.constructed, fit]

end rationals

end Ssuge.Components

import Ssuge.Animations

/-! What `queueAnimation` reports to its caller: the number that it returns, or the exception
with which it ends, held against what it has done to the component. -/

namespace Ssuge.Components

open CString Procedure

variable {F V Q B : Type}

section functions

variable [Scalar F]
variable (lib : Library F V Q B)

namespace MeshComponent

def asFirst (c : MeshComponent F) (animName : Name) (looped : Bool) : MeshComponent F :=
  { c with mCurrentAnimation := some animName }.withAnimation animName fun a =>
    { a with enabled := true, loop := looped }

def asNext (c : MeshComponent F) (animName : Name) (looped : Bool) (transitionTime : F)
    (playForward : Bool) : MeshComponent F :=
  { { c with mNextAnimation := some animName, mNextLooping := looped }.withAnimation animName
      fun a => lib.setTimePosition { a with loop := looped, weight := 0 } 0 with
    mPlayAnimationForward := playForward
    mTransitionTimeTotal := transitionTime
    mTransitionTimeCur := 0 }

end MeshComponent

end functions

open MeshComponent

/-- The named animation is the current one or the next one, with this looping flag and this
direction. -/
structure IsQueued (c : MeshComponent F) (animName : Name) (looped playForward : Bool) : Prop where
  place : c.mCurrentAnimation = some animName ∨
    c.mNextAnimation = some animName ∧ c.mNextLooping = looped
  loops : (c.animation animName).map AnimationState.loop = some looped
  direction : c.mPlayAnimationForward = playForward

/-- The end of `queueAnimation` tells what became of the component `c`: with the result 0 the
animation is queued, and with another result or an exception nothing has become of it, nor
of anything else. -/
def Truthful (c : MeshComponent F) (animName : Name) (looped playForward : Bool) :
    Ending Stop (MeshStage F V Q) Int → Prop
  | .returned result t =>
      if result = 0 then IsQueued t.1 animName looped playForward else t.1 = c
  | .stopped (.threw _) t => t.1 = c
  | .stopped _ _ => False

/-- The first animation needs the direction that the component has, and a later one has to
exist. -/
structure ReportGuard [Zero F] [LT F] (c : MeshComponent F) (animName : Name)
    (transitionTime : F) (playForward : Bool) : Prop where
  first : c.mCurrentAnimation = none → (c.animation animName).isSome →
    c.mPlayAnimationForward = playForward
  next : c.mCurrentAnimation ≠ none → 0 < transitionTime → (c.animation animName).isSome

section ends

variable [Scalar F]
variable {lib : Library F V Q B} {s : MeshStage F V Q} {name : Name} {looped forward : Bool}
  {transitionTime : F}

theorem result_first (idle : s.1.mCurrentAnimation = none)
    (known : (s.1.animation name).isSome) :
    (queueAnimation lib name looped transitionTime forward).run s =
      .returned 0 (s.1.asFirst name looped, s.2) := by
  obtain ⟨entity, state, loaded, found⟩ := entity_of_animation known
  rw [queueAnimation, bind_get_run]
  simp only [idle, if_true, loaded, bind_some_run, found]
  rfl

theorem result_next (busy : s.1.mCurrentAnimation ≠ none) (long : 0 < transitionTime)
    (known : (s.1.animation name).isSome) :
    (queueAnimation lib name looped transitionTime forward).run s =
      .returned 0 (s.1.asNext lib name looped transitionTime forward, s.2) := by
  obtain ⟨entity, state, loaded, found⟩ := entity_of_animation known
  rw [queueAnimation, bind_get_run]
  simp only [if_neg busy, if_pos long, loaded, bind_some_run, found]
  rfl

theorem result_unknown (loaded : s.1.mEntity.isSome) (unknown : s.1.animation name = none)
    (queued : s.1.mCurrentAnimation = none ∨ 0 < transitionTime) :
    (queueAnimation lib name looped transitionTime forward).run s =
      .stopped (if s.1.mCurrentAnimation = none then .threw .ogre else .undefined) s := by
  obtain ⟨entity, loaded⟩ := Option.isSome_iff_exists.mp loaded
  have missing : entity.animationStates name = none := by
    simpa [MeshComponent.animation, loaded] using unknown
  rw [queueAnimation, bind_get_run]
  by_cases idle : s.1.mCurrentAnimation = none
  · simp only [if_pos idle, loaded, bind_some_run, missing, bind_none_run]
  · have long : 0 < transitionTime := queued.resolve_left idle
    simp only [if_neg idle, if_pos long, loaded, bind_some_run, missing, bind_none_run]

theorem result_refused (busy : s.1.mCurrentAnimation ≠ none) (short : ¬ 0 < transitionTime) :
    (queueAnimation lib name looped transitionTime forward).run s = .returned 1 s := by
  rw [queueAnimation, bind_get_run]
  simp only [if_neg busy, if_neg short, pure_run]

omit [Scalar F] in
theorem isQueued_asFirst {c : MeshComponent F} (known : (c.animation name).isSome) :
    IsQueued (c.asFirst name looped) name looped forward ↔ c.mPlayAnimationForward = forward := by
  constructor
  · exact fun queued => queued.direction
  · intro direction
    obtain ⟨state, known⟩ := Option.isSome_iff_exists.mp known
    refine ⟨.inl rfl, ?_, direction⟩
    rw [asFirst, animation_withAnimation, if_pos rfl]
    have same : ({ c with mCurrentAnimation := some name } : MeshComponent F).animation name =
        some state := known
    rw [same]
    rfl

theorem isQueued_asNext (keeps : KeepsLooks lib) {c : MeshComponent F}
    (known : (c.animation name).isSome) :
    IsQueued (c.asNext lib name looped transitionTime forward) name looped forward := by
  obtain ⟨state, known⟩ := Option.isSome_iff_exists.mp known
  refine ⟨.inr ⟨rfl, rfl⟩, ?_, rfl⟩
  have prepared := animation_withAnimation
    { c with mNextAnimation := some name, mNextLooping := looped } name name
    fun a => lib.setTimePosition { a with loop := looped, weight := 0 } 0
  have same : ({ c with mNextAnimation := some name, mNextLooping := looped } :
      MeshComponent F).animation name = some state := known
  rw [if_pos rfl, same] at prepared
  have shown : (c.asNext lib name looped transitionTime forward).animation name =
      some (lib.setTimePosition { state with loop := looped, weight := 0 } 0) := prepared
  rw [shown, Option.map_some]
  exact congrArg some (keeps { state with loop := looped, weight := 0 } 0).2.2

/-- `queueAnimation` reports truthfully, and fails cleanly, exactly when the first animation is
not to be played in another direction and each later one exists. -/
theorem queueAnimation_truthful_iff (keeps : KeepsLooks lib) (s : MeshStage F V Q)
    (loaded : s.1.mEntity.isSome) (name : Name) (looped : Bool) (transitionTime : F)
    (forward : Bool) :
    Truthful s.1 name looped forward
        ((queueAnimation lib name looped transitionTime forward).run s) ↔
      ReportGuard s.1 name transitionTime forward := by
  by_cases idle : s.1.mCurrentAnimation = none
  · have guard : ReportGuard s.1 name transitionTime forward ↔
        ((s.1.animation name).isSome → s.1.mPlayAnimationForward = forward) :=
      ⟨fun report => report.first idle, fun first => ⟨fun _ => first, fun busy => absurd idle busy⟩⟩
    rw [guard]
    cases found : s.1.animation name with
    | none =>
        rw [result_unknown loaded found (.inl idle), if_pos idle]
        simp [Truthful]
    | some state =>
        have known : (s.1.animation name).isSome := by rw [found]; rfl
        rw [result_first idle known, Truthful, if_pos rfl, isQueued_asFirst known]
        simp
  · have guard : ReportGuard s.1 name transitionTime forward ↔
        (0 < transitionTime → (s.1.animation name).isSome) :=
      ⟨fun report => report.next idle, fun next => ⟨fun is => absurd is idle, fun _ => next⟩⟩
    rw [guard]
    by_cases long : 0 < transitionTime
    · cases found : s.1.animation name with
      | none =>
          rw [result_unknown loaded found (.inr long), if_neg idle]
          simp [Truthful, long]
      | some state =>
          have known : (s.1.animation name).isSome := by rw [found]; rfl
          rw [result_next idle long known, Truthful, if_pos rfl]
          simp [isQueued_asNext keeps known]
    · rw [result_refused idle long]
      simp [Truthful, long]

end ends

section line

attribute [local instance] instScalarInt

theorem queueAnimation_truthful_walk : Truthful dancer.1 (chars "walk") true true
    ((queueAnimation line (chars "walk") true 1 true).run dancer) :=
  (queueAnimation_truthful_iff keepsLooks_line dancer rfl (chars "walk") true 1 true).mpr
    ⟨fun _ _ => rfl, fun busy => absurd rfl busy⟩

/-- A first animation is to be played backwards, and the second one does not exist. -/
theorem queueAnimation_misreports :
    ¬ Truthful dancer.1 (chars "walk") true false
      ((queueAnimation line (chars "walk") true 1 false).run dancer) ∧
    ¬ Truthful (dancer.1.asFirst (chars "walk") true) (chars "swim") true true
      ((queueAnimation line (chars "swim") true 1 true).run
        (dancer.1.asFirst (chars "walk") true, dancer.2)) := by
  refine ⟨fun truthful => ?_, fun truthful => truthful⟩
  exact absurd truthful.direction (by decide)

end line

end Ssuge.Components

import Ssuge.DisabledComponents

/-! The animations of a mesh component over its calls of `queueAnimation` and `update`. The
component remembers two animations. The first one stays the current one for ever; a later
one is only prepared when it is queued, and the next `update` shows it at full weight if
the current one loops. Nothing hides it again but to be queued once more. -/

namespace Ssuge.Components

open CString Procedure GuardedRun

variable {F V Q B : Type}

abbrev MeshStage (F V Q : Type) := MeshComponent F × Around F V Q

inductive AnimationCall (F V Q : Type)
  | queueAnimation (animName : Name) (looped : Bool) (transitionTime : F) (playForward : Bool)
  | update (input : FrameInput F V Q)

/-- What is seen of an animation: whether it is enabled, and its weight. -/
def seen (s : MeshStage F V Q) (name : Name) : Option (Bool × F) :=
  (s.1.animation name).map fun a => (a.enabled, a.weight)

def Remembered (s : MeshStage F V Q) (name : Name) : Prop :=
  s.1.mCurrentAnimation = some name ∨ s.1.mNextAnimation = some name

section calls

variable [Scalar F]
variable (lib : Library F V Q B)

def AnimationCall.run : AnimationCall F V Q → ComponentProc F V Q (MeshComponent F) Unit
  | .queueAnimation animName looped transitionTime playForward =>
      discard (MeshComponent.queueAnimation lib animName looped transitionTime playForward)
  | .update input => MeshComponent.update lib input

def animate (s : MeshStage F V Q) (call : AnimationCall F V Q) : Option (MeshStage F V Q) :=
  ((call.run lib).run s).resumes Stop.caught

def Visible (s : MeshStage F V Q) (name : Name) : Prop :=
  ∃ weight, seen s name = some (true, weight) ∧ 0 < weight

/-- What is visible is the current animation or the next one, and at most one has weight
one. -/
structure NoneForgotten (s : MeshStage F V Q) : Prop where
  remembered : ∀ name, Visible s name → Remembered s name
  single : ∀ m n, seen s m = some (true, 1) → seen s n = some (true, 1) → m = n

/-- So it is after an `update` that follows. -/
def AtUpdate (s : MeshStage F V Q) : Prop :=
  ∀ input t, animate lib s (.update input) = some t → NoneForgotten t

/-- While there is a current animation, one is not queued over another that is visible,
unless that is the current one. -/
def QueueGuard (s : MeshStage F V Q) : AnimationCall F V Q → Prop
  | .queueAnimation animName _ transitionTime _ =>
      s.1.mCurrentAnimation = none ∨ ¬ 0 < transitionTime ∨ seen s animName = none ∨
        ∀ next, s.1.mNextAnimation = some next →
          next = animName ∨ s.1.mCurrentAnimation = some next ∨ ¬ Visible s next
  | .update _ => True

structure Fresh (s : MeshStage F V Q) : Prop where
  loaded : s.1.mEntity.isSome
  current : s.1.mCurrentAnimation = none
  next : s.1.mNextAnimation = none
  disabled : ∀ name weight, seen s name ≠ some (true, weight)

end calls

/-- What `setTimePosition` of Ogre leaves alone. -/
def KeepsLooks (lib : Library F V Q B) : Prop :=
  ∀ a time, (lib.setTimePosition a time).enabled = a.enabled ∧
    (lib.setTimePosition a time).weight = a.weight ∧ (lib.setTimePosition a time).loop = a.loop

namespace MeshComponent

def withAnimation (c : MeshComponent F) (name : Name)
    (f : AnimationState F → AnimationState F) : MeshComponent F :=
  { c with
    mEntity := c.mEntity.map fun entity => { entity with
      animationStates :=
        Function.update entity.animationStates name ((entity.animationStates name).map f) } }

theorem animation_withAnimation (c : MeshComponent F) (name other : Name)
    (f : AnimationState F → AnimationState F) : (c.withAnimation name f).animation other =
      if other = name then (c.animation name).map f else c.animation other := by
  cases entity : c.mEntity with
  | none => simp [withAnimation, animation, entity]
  | some e =>
      by_cases same : other = name
      · subst same
        simp [withAnimation, animation, entity]
      · simp [withAnimation, animation, entity, same]

theorem modifyAnimation_run (name : Name) (f : AnimationState F → AnimationState F)
    (s : MeshStage F V Q) :
    (modifyAnimation name f).run s = .returned () (s.1.withAnimation name f, s.2) := rfl

theorem bind_modifyAnimation {α : Type} (name : Name) (f : AnimationState F → AnimationState F)
    (p : Unit → ComponentProc F V Q (MeshComponent F) α) (s : MeshStage F V Q) :
    (modifyAnimation name f >>= p).run s = (p ()).run (s.1.withAnimation name f, s.2) := rfl

variable [Scalar F]

def advanced (c : MeshComponent F) (lib : Library F V Q B) (dT : F) (current : Name) :
    MeshComponent F :=
  c.withAnimation current (advance lib dT c.mPlayAnimationForward)

def changedOver (c : MeshComponent F) (current next : Name) : MeshComponent F :=
  ((c.withAnimation next fun a => { a with enabled := true }).withAnimation
    current fun a => { a with weight := 0 }).withAnimation next fun a => { a with weight := 1 }

end MeshComponent

open MeshComponent

theorem seen_withAnimation (c : MeshComponent F) (a : Around F V Q) (name other : Name)
    {f : AnimationState F → AnimationState F} {g : Bool × F → Bool × F}
    (looks : ∀ state, ((f state).enabled, (f state).weight) = g (state.enabled, state.weight)) :
    seen (c.withAnimation name f, a) other =
      if other = name then (seen (c, a) other).map g else seen (c, a) other := by
  rw [seen, animation_withAnimation]
  by_cases same : other = name
  · subst same
    rw [if_pos rfl, if_pos rfl, seen, Option.map_map, Option.map_map]
    exact congrArg (fun h => (c.animation other).map h) (funext looks)
  · rw [if_neg same, if_neg same, seen]

section effects

variable [Scalar F]

theorem seen_changeOver (c : MeshComponent F) (a : Around F V Q) (current next name : Name) :
    seen (c.changedOver current next, a) name =
      if name = next then (seen (c, a) name).map fun _ => (true, 1)
      else if name = current then (seen (c, a) name).map fun look => (look.1, 0)
      else seen (c, a) name := by
  rw [changedOver, seen_withAnimation _ a next name (g := fun look => (look.1, 1)) fun _ => rfl,
    seen_withAnimation _ a current name (g := fun look => (look.1, 0)) fun _ => rfl,
    seen_withAnimation _ a next name (g := fun look => (true, look.2)) fun _ => rfl]
  by_cases at_next : name = next
  · rw [if_pos at_next, if_pos at_next, if_pos at_next]
    cases seen (c, a) name with
    | none => simp
    | some look => split <;> rfl
  · rw [if_neg at_next, if_neg at_next, if_neg at_next]

variable {lib : Library F V Q B}

theorem advance_looks (keeps : KeepsLooks lib) (dT : F) (forward : Bool) (a : AnimationState F) :
    (advance lib dT forward a).enabled = a.enabled ∧
      (advance lib dT forward a).weight = a.weight ∧
        (advance lib dT forward a).loop = a.loop := by
  have added : ∀ offset, (addTime lib a offset).enabled = a.enabled ∧
      (addTime lib a offset).weight = a.weight ∧ (addTime lib a offset).loop = a.loop :=
    fun offset => keeps a _
  rw [advance]
  split
  · exact added _
  · split
    · split
      · exact ⟨rfl, rfl, rfl⟩
      · exact added _
    · split
      · exact ⟨rfl, rfl, rfl⟩
      · exact added _

variable (lib) in
omit [Scalar F] in
theorem rotateYost_run (q : Q) (s : MeshStage F V Q) :
    (s.2.testGhost = .missing ∧ (rotateYost lib q).run s = .stopped .undefined s) ∨
      (s.2.testGhost ≠ .missing ∧ ∃ a, (rotateYost lib q).run s = .returned () (s.1, a)) := by
  rw [rotateYost, bind_get_run]
  cases s.2.testGhost with
  | missing => exact .inl ⟨rfl, rfl⟩
  | this => exact .inr ⟨by simp, _, rfl⟩
  | other orientation => exact .inr ⟨by simp, _, rfl⟩

variable (lib) in
def MissesGhost (input : FrameInput F V Q) (a : Around F V Q) : Prop :=
  a.testGhost = .missing ∧ input.noDevice = true ∧ lib.quarter < a.accum + input.dT

variable (lib) in
/-- The sensor part of `update` leaves the component alone, and returns unless the ghost is
missing when it is turned. -/
theorem updateYost_run (input : FrameInput F V Q) (s : MeshStage F V Q) :
    (¬ MissesGhost lib input s.2 ∧ ∃ a, (updateYost lib input).run s = .returned () (s.1, a)) ∨
      (MissesGhost lib input s.2 ∧ ∃ t, (updateYost lib input).run s = .stopped .undefined t) := by
  set later : MeshStage F V Q := (s.1, { s.2 with accum := s.2.accum + input.dT }) with later_eq
  have shape : (updateYost lib input).run s =
      (if input.noDevice ∧ lib.quarter < later.2.accum then
        rotateYost lib input.sensor >>= fun _ => modifyAround fun a => { a with accum := 0 }
      else pure () : ComponentProc F V Q (MeshComponent F) Unit).run later := rfl
  rw [shape]
  by_cases turned : input.noDevice ∧ lib.quarter < later.2.accum
  · rw [if_pos turned]
    rcases rotateYost_run lib input.sensor later with ⟨missing, stopped⟩ | ⟨there, a, returned⟩
    · exact .inr ⟨⟨missing, turned⟩, later, bind_of_stopped stopped _⟩
    · exact .inl ⟨fun misses => there misses.1, _, bind_of_returned returned _⟩
  · rw [if_neg turned]
    exact .inl ⟨fun misses => turned misses.2, _, rfl⟩

/-- The component remembers the same animations, and `update` shows the next one instead of a
current one that loops, if it changes what is seen. -/
structure Updated (s t : MeshStage F V Q) : Prop where
  current : t.1.mCurrentAnimation = s.1.mCurrentAnimation
  next : t.1.mNextAnimation = s.1.mNextAnimation
  looks : (∀ name, seen t name = seen s name) ∨
    ∃ current next, s.1.mCurrentAnimation = some current ∧ s.1.mNextAnimation = some next ∧
      ∀ name, seen t name = if name = next then (seen s name).map fun _ => (true, 1)
        else if name = current then (seen s name).map fun look => (look.1, 0)
        else seen s name

theorem Updated.known {s t : MeshStage F V Q} (updated : Updated s t) {name : Name}
    (known : (seen s name).isSome) : (seen t name).isSome := by
  rcases updated.looks with same | ⟨c, n, -, -, changed⟩
  · rwa [same]
  · rw [changed]
    split
    · rwa [Option.isSome_map]
    · split
      · rwa [Option.isSome_map]
      · exact known

theorem updateAnimations_returned {input : FrameInput F V Q} {s t : MeshStage F V Q}
    (rest : (updateAnimations lib input).run s = .returned () t) :
    s.1.mCurrentAnimation = none ∧ t.1 = s.1 ∨
      ∃ current, s.1.mCurrentAnimation = some current ∧
        (t.1 = s.1.advanced lib input.dT current ∨
          ∃ next shown, s.1.mNextAnimation = some next ∧
            (s.1.advanced lib input.dT current).animation current = some shown ∧
            shown.loop = true ∧
            t.1 = (s.1.advanced lib input.dT current).changedOver current next) := by
  rw [updateAnimations, bind_get_run] at rest
  cases current : s.1.mCurrentAnimation with
  | none =>
      simp only [current, pure_run, Ending.returned.injEq, true_and] at rest
      exact .inl ⟨rfl, rest ▸ rfl⟩
  | some c =>
      simp only [current] at rest
      rw [bind_get_run, bind_modifyAnimation, bind_get_run, ← advanced] at rest
      refine .inr ⟨c, rfl, ?_⟩
      have nexts : (s.1.advanced lib input.dT c).mNextAnimation = s.1.mNextAnimation := rfl
      cases next : s.1.mNextAnimation with
      | none =>
          simp only [nexts, next, pure_run, Ending.returned.injEq, true_and] at rest
          exact .inl (rest ▸ rfl)
      | some n =>
          simp only [nexts, next] at rest
          cases found : (s.1.advanced lib input.dT c).animation c with
          | none =>
              rw [found, bind_none_run] at rest
              simp at rest
          | some shown =>
              rw [found, bind_some_run] at rest
              by_cases loops : shown.loop
              · rw [if_pos loops, bind_modifyAnimation, bind_modifyAnimation] at rest
                simp only [modifyAnimation_run, Ending.returned.injEq, true_and] at rest
                exact .inr ⟨n, shown, rfl, rfl, loops, rest ▸ rfl⟩
              · rw [if_neg loops, pure_run, Ending.returned.injEq] at rest
                exact .inl (rest.2 ▸ rfl)

theorem update_returned {input : FrameInput F V Q} {s t : MeshStage F V Q}
    (returned : (MeshComponent.update lib input).run s = .returned () t) :
    s.1.mCurrentAnimation = none ∧ t.1 = s.1 ∨
      ∃ current, s.1.mCurrentAnimation = some current ∧
        (t.1 = s.1.advanced lib input.dT current ∨
          ∃ next shown, s.1.mNextAnimation = some next ∧
            (s.1.advanced lib input.dT current).animation current = some shown ∧
            shown.loop = true ∧
            t.1 = (s.1.advanced lib input.dT current).changedOver current next) := by
  obtain ⟨⟨⟩, u, yost, rest⟩ := bind_eq_returned.mp returned
  obtain ⟨a, rfl⟩ : ∃ a, u = (s.1, a) := by
    rcases updateYost_run lib input s with ⟨-, a, ran⟩ | ⟨-, v, ran⟩
    · exact ⟨a, by simpa using yost.symm.trans ran⟩
    · exact absurd (yost.symm.trans ran) (by simp)
  have moved := updateAnimations_returned rest
  exact moved

theorem seen_advanced (keeps : KeepsLooks lib) (c : MeshComponent F) (a : Around F V Q) (dT : F)
    (current name : Name) : seen (c.advanced lib dT current, a) name = seen (c, a) name := by
  have moved := seen_withAnimation c a current name (g := id) fun state =>
    Prod.ext (advance_looks keeps dT c.mPlayAnimationForward state).1
      (advance_looks keeps dT c.mPlayAnimationForward state).2.1
  rw [advanced, moved, Option.map_id]
  exact ite_self _

theorem update_run (keeps : KeepsLooks lib) (input : FrameInput F V Q) {s t : MeshStage F V Q}
    (returned : (MeshComponent.update lib input).run s = .returned () t) : Updated s t := by
  obtain ⟨c, a⟩ := t
  rcases update_returned returned with ⟨-, rfl⟩ | ⟨current, is_current, rest⟩
  · exact ⟨rfl, rfl, .inl fun _ => rfl⟩
  rcases rest with rfl | ⟨next, shown, is_next, -, -, rfl⟩
  · exact ⟨rfl, rfl, .inl (seen_advanced keeps s.1 a input.dT current)⟩
  · refine ⟨rfl, rfl, .inr ⟨current, next, is_current, is_next, fun name => ?_⟩⟩
    rw [seen_changeOver, seen_advanced keeps]
    rfl

theorem updateAnimations_stopped {input : FrameInput F V Q} {s t : MeshStage F V Q} {e : Stop}
    (rest : (updateAnimations lib input).run s = .stopped e t) : e = .undefined := by
  obtain ⟨c, a⟩ := s
  rw [updateAnimations, bind_get_run] at rest
  cases current : c.mCurrentAnimation with
  | none => simp [current] at rest
  | some name =>
      simp only [current] at rest
      rw [bind_get_run, bind_modifyAnimation, bind_get_run] at rest
      split at rest
      · simp at rest
      · rcases bind_eq_stopped.mp rest with lookup | ⟨state, v, -, changeOver⟩
        · cases found : (c.withAnimation name
            (advance lib input.dT c.mPlayAnimationForward)).animation name with
          | none =>
              simp [found] at lookup
              exact lookup.1.symm
          | some state => simp [found] at lookup
        · split at changeOver <;> cases changeOver

theorem update_stopped {input : FrameInput F V Q} {s t : MeshStage F V Q} {e : Stop}
    (stopped : (MeshComponent.update lib input).run s = .stopped e t) : e = .undefined := by
  rcases bind_eq_stopped.mp stopped with yost | ⟨⟨⟩, u, -, rest⟩
  · rcases updateYost_run lib input s with ⟨-, a, ran⟩ | ⟨-, v, ran⟩
    · exact absurd (yost.symm.trans ran) (by simp)
    · exact (Ending.stopped.inj (yost.symm.trans ran)).1
  · exact updateAnimations_stopped rest

theorem animate_update_returned {input : FrameInput F V Q} {s t : MeshStage F V Q}
    (returned : animate lib s (.update input) = some t) :
    (MeshComponent.update lib input).run s = .returned () t := by
  rw [animate, AnimationCall.run] at returned
  cases ran : (MeshComponent.update lib input).run s with
  | returned value u =>
      rw [ran] at returned
      exact congrArg _ (Option.some.inj returned)
  | stopped e u =>
      rw [ran, update_stopped ran] at returned
      simp [Ending.resumes, Stop.caught] at returned

theorem animate_update (keeps : KeepsLooks lib) {input : FrameInput F V Q}
    {s t : MeshStage F V Q} (returned : animate lib s (.update input) = some t) : Updated s t :=
  update_run keeps input (animate_update_returned returned)

omit [Scalar F] in
theorem entity_of_animation {c : MeshComponent F} {name : Name}
    (known : (c.animation name).isSome) :
    ∃ entity state, c.mEntity = some entity ∧ entity.animationStates name = some state := by
  obtain ⟨state, known⟩ := Option.isSome_iff_exists.mp known
  obtain ⟨entity, loaded, found⟩ := Option.bind_eq_some_iff.mp known
  exact ⟨entity, state, loaded, found⟩

omit [Scalar F] in
theorem entity_of_seen {s : MeshStage F V Q} {name : Name} (known : (seen s name).isSome) :
    ∃ entity state, s.1.mEntity = some entity ∧ entity.animationStates name = some state := by
  rw [seen, Option.isSome_map] at known
  exact entity_of_animation known

variable (lib) in
theorem animate_first {s : MeshStage F V Q} {name : Name}
    (idle : s.1.mCurrentAnimation = none) (known : (seen s name).isSome) (looped : Bool)
    (transitionTime : F) (forward : Bool) :
    ∃ t, animate lib s (.queueAnimation name looped transitionTime forward) = some t ∧
      t.1.mCurrentAnimation = some name ∧ t.1.mNextAnimation = s.1.mNextAnimation ∧
        ∀ other, seen t other =
          if other = name then (seen s other).map fun look => (true, look.2) else seen s other := by
  obtain ⟨entity, state, loaded, found⟩ := entity_of_seen known
  set c : MeshComponent F := { s.1 with mCurrentAnimation := some name } with c_eq
  refine ⟨(c.withAnimation name fun a => { a with enabled := true, loop := looped }, s.2),
    ?_, rfl, rfl, fun other => ?_⟩
  · rw [animate, AnimationCall.run, resumes_discard, MeshComponent.queueAnimation, bind_get_run]
    simp only [idle, if_true, loaded, bind_some_run, found]
    rfl
  · exact seen_withAnimation c s.2 name other (g := fun look => (true, look.2)) fun _ => rfl

theorem animate_next (keeps : KeepsLooks lib) {s : MeshStage F V Q} {name : Name}
    (busy : s.1.mCurrentAnimation ≠ none) (known : (seen s name).isSome) (looped : Bool)
    {transitionTime : F} (long : 0 < transitionTime) (forward : Bool) :
    ∃ t, animate lib s (.queueAnimation name looped transitionTime forward) = some t ∧
      t.1.mCurrentAnimation = s.1.mCurrentAnimation ∧ t.1.mNextAnimation = some name ∧
        ∀ other, seen t other =
          if other = name then (seen s other).map fun look => (look.1, 0) else seen s other := by
  obtain ⟨entity, state, loaded, found⟩ := entity_of_seen known
  set c : MeshComponent F := { s.1 with mNextAnimation := some name, mNextLooping := looped }
    with c_eq
  set prepared := c.withAnimation name fun a =>
    lib.setTimePosition { a with loop := looped, weight := 0 } 0 with prepared_eq
  refine ⟨({ prepared with
      mPlayAnimationForward := forward
      mTransitionTimeTotal := transitionTime
      mTransitionTimeCur := 0 }, s.2), ?_, rfl, rfl, fun other => ?_⟩
  · rw [animate, AnimationCall.run, resumes_discard, MeshComponent.queueAnimation, bind_get_run]
    simp only [if_neg busy, if_pos long, loaded, bind_some_run, found]
    rfl
  · refine seen_withAnimation c s.2 name other (g := fun look => (look.1, 0)) fun a => ?_
    obtain ⟨enabled, weight, -⟩ := keeps { a with loop := looped, weight := 0 } 0
    exact Prod.ext enabled weight

omit [Scalar F] in
theorem lookup_state {α : Type} {s : MeshStage F V Q} {name : Name}
    (unknown : seen s name = none) (e : Stop) (p : ComponentProc F V Q (MeshComponent F) α) :
    ((orStop s.1.mEntity .undefined >>= fun entity =>
      orStop (entity.animationStates name) e >>= fun _ => p).run s).state = s := by
  cases loaded : s.1.mEntity with
  | none => rfl
  | some entity =>
      have missing : entity.animationStates name = none := by
        simpa [seen, MeshComponent.animation, loaded] using unknown
      rw [bind_some_run, missing, bind_none_run]
      rfl

theorem animate_unqueued {s t : MeshStage F V Q} {name : Name} {looped forward : Bool}
    {transitionTime : F}
    (unqueued : seen s name = none ∨ s.1.mCurrentAnimation ≠ none ∧ ¬ 0 < transitionTime)
    (returned : animate lib s (.queueAnimation name looped transitionTime forward) = some t) :
    t = s := by
  obtain ⟨c, a⟩ := s
  rw [animate, AnimationCall.run, resumes_discard] at returned
  rw [← resumes_state returned, MeshComponent.queueAnimation, bind_get_run]
  by_cases idle : c.mCurrentAnimation = none
  · simp only [if_pos idle]
    exact lookup_state (unqueued.resolve_right fun queued => queued.1 idle) _ _
  · simp only [if_neg idle]
    by_cases long : 0 < transitionTime
    · rw [if_pos long]
      exact lookup_state (unqueued.resolve_right fun queued => queued.2 long) _ _
    · rw [if_neg long]
      rfl

variable (lib) in
theorem update_returns {s : MeshStage F V Q} (input : FrameInput F V Q)
    (device : input.noDevice = false)
    (known : ∀ current, s.1.mCurrentAnimation = some current → (seen s current).isSome) :
    ∃ t, animate lib s (.update input) = some t := by
  obtain ⟨c, a⟩ := s
  obtain ⟨a', sensor⟩ : ∃ a', (updateYost lib input).run (c, a) = .returned () (c, a') := by
    rcases updateYost_run lib input (c, a) with ⟨-, returned⟩ | ⟨⟨-, none, -⟩, -⟩
    · exact returned
    · simp [device] at none
  rw [animate, AnimationCall.run, MeshComponent.update, bind_of_returned sensor, updateAnimations,
    bind_get_run]
  cases current : c.mCurrentAnimation with
  | none => exact ⟨_, rfl⟩
  | some name =>
      simp only []
      rw [bind_get_run, bind_modifyAnimation, bind_get_run]
      cases next : (c.withAnimation name
          (advance lib input.dT c.mPlayAnimationForward)).mNextAnimation with
      | none => exact ⟨_, rfl⟩
      | some next =>
          have still : ((c.withAnimation name
              (advance lib input.dT c.mPlayAnimationForward)).animation name).isSome := by
            rw [animation_withAnimation, if_pos rfl, Option.isSome_map]
            simpa [seen] using known name current
          obtain ⟨state, found⟩ := Option.isSome_iff_exists.mp still
          simp only []
          rw [found, bind_some_run]
          split <;> exact ⟨_, rfl⟩

end effects

section invariant

variable [Scalar F]
variable {lib : Library F V Q B}

/-- What the calls keep: nothing is visible that is not remembered, and when a next animation
is visible that is not the current one, the current one is not. -/
structure TwoRemembered (s : MeshStage F V Q) : Prop where
  idle : s.1.mCurrentAnimation = none → s.1.mNextAnimation = none
  known : ∀ current, s.1.mCurrentAnimation = some current → (seen s current).isSome
  remembered : ∀ name, Visible s name → Remembered s name
  exclusive : ∀ current next, s.1.mCurrentAnimation = some current →
    s.1.mNextAnimation = some next → current ≠ next → Visible s next → ¬ Visible s current

theorem TwoRemembered.noneForgotten (unit : (0 : F) < 1) {s : MeshStage F V Q}
    (inv : TwoRemembered s) : NoneForgotten s := by
  refine ⟨inv.remembered, fun m n full full' => ?_⟩
  have visible : Visible s m := ⟨1, full, unit⟩
  have visible' : Visible s n := ⟨1, full', unit⟩
  by_contra other
  rcases inv.remembered m visible with current | next <;>
    rcases inv.remembered n visible' with current' | next'
  · exact other (Option.some.inj (current.symm.trans current'))
  · exact inv.exclusive m n current next' other visible' visible
  · exact inv.exclusive n m current' next (Ne.symm other) visible visible'
  · exact other (Option.some.inj (next.symm.trans next'))

theorem Fresh.twoRemembered {s : MeshStage F V Q} (fresh : Fresh s) : TwoRemembered s where
  idle _ := fresh.next
  known current is := by simp [fresh.current] at is
  remembered name := fun ⟨weight, visible, _⟩ => absurd visible (fresh.disabled name weight)
  exclusive current next is := by simp [fresh.current] at is

theorem visible_congr {s t : MeshStage F V Q} {name : Name} (same : seen t name = seen s name) :
    Visible t name ↔ Visible s name := by
  rw [Visible, Visible, same]

theorem not_visible_weightless (irrefl : ¬ (0 : F) < 0) {s t : MeshStage F V Q} {name : Name}
    (weightless : seen t name = (seen s name).map fun look => (look.1, 0)) : ¬ Visible t name := by
  rintro ⟨weight, enabled, positive⟩
  rw [weightless, Option.map_eq_some_iff] at enabled
  obtain ⟨look, -, same⟩ := enabled
  obtain ⟨-, rfl⟩ := Prod.mk.inj same
  exact irrefl positive

theorem TwoRemembered.update (irrefl : ¬ (0 : F) < 0) (keeps : KeepsLooks lib)
    {s t : MeshStage F V Q} (inv : TwoRemembered s) {input : FrameInput F V Q}
    (returned : animate lib s (.update input) = some t) : TwoRemembered t := by
  have updated := animate_update keeps returned
  have ⟨current, next, looks⟩ := updated
  refine ⟨by rw [current, next]; exact inv.idle, fun c is => ?_, fun name visible => ?_,
    fun c n is after other shown => ?_⟩
  · exact updated.known (inv.known c (current ▸ is))
  · rw [Remembered, current, next]
    rcases looks with same | ⟨c, n, is, after, changed⟩
    · exact inv.remembered name ((visible_congr (same name)).mp visible)
    · by_cases at_next : name = n
      · exact .inr (at_next ▸ after)
      · by_cases at_current : name = c
        · exact .inl (at_current ▸ is)
        · have same := (changed name).trans ((if_neg at_next).trans (if_neg at_current))
          exact inv.remembered name ((visible_congr same).mp visible)
  · rcases looks with same | ⟨c', n', is', after', changed⟩
    · exact fun current_shown => inv.exclusive c n (current ▸ is) (next ▸ after) other
        ((visible_congr (same n)).mp shown) ((visible_congr (same c)).mp current_shown)
    · obtain rfl : c' = c := Option.some.inj (is'.symm.trans (current ▸ is))
      obtain rfl : n' = n := Option.some.inj (after'.symm.trans (next ▸ after))
      exact not_visible_weightless irrefl
        ((changed c').trans ((if_neg other).trans (if_pos rfl)))

theorem TwoRemembered.first {s t : MeshStage F V Q} {name : Name} (inv : TwoRemembered s)
    (known : (seen s name).isSome) (idle : s.1.mCurrentAnimation = none)
    (current : t.1.mCurrentAnimation = some name) (next : t.1.mNextAnimation = s.1.mNextAnimation)
    (looks : ∀ other, seen t other =
      if other = name then (seen s other).map fun look => (true, look.2) else seen s other) :
    TwoRemembered t := by
  have none_next : t.1.mNextAnimation = none := next.trans (inv.idle idle)
  refine ⟨fun is => by simp [current] at is, fun c is => ?_, fun other visible => ?_,
    fun c n _ after => by simp [none_next] at after⟩
  · obtain rfl : name = c := Option.some.inj (current.symm.trans is)
    rw [looks, if_pos rfl, Option.isSome_map]
    exact known
  · by_cases same : other = name
    · exact .inl (same ▸ current)
    · have hidden := inv.remembered other
        ((visible_congr ((looks other).trans (if_neg same))).mp visible)
      rcases hidden with is | after
      · simp [idle] at is
      · simp [inv.idle idle] at after

theorem TwoRemembered.queued (irrefl : ¬ (0 : F) < 0) {s t : MeshStage F V Q} {name : Name}
    (inv : TwoRemembered s) (busy : s.1.mCurrentAnimation ≠ none)
    (hidden : ∀ next, s.1.mNextAnimation = some next →
      next = name ∨ s.1.mCurrentAnimation = some next ∨ ¬ Visible s next)
    (current : t.1.mCurrentAnimation = s.1.mCurrentAnimation)
    (next : t.1.mNextAnimation = some name)
    (looks : ∀ other, seen t other =
      if other = name then (seen s other).map fun look => (look.1, 0) else seen s other) :
    TwoRemembered t := by
  have weightless : ¬ Visible t name :=
    not_visible_weightless irrefl ((looks name).trans (if_pos rfl))
  refine ⟨fun is => absurd (current.symm.trans is) busy, fun c is => ?_,
    fun other visible => ?_, fun c n _ after _ shown => ?_⟩
  · have known := inv.known c (current ▸ is)
    rw [looks]
    split
    · rw [Option.isSome_map]
      exact known
    · exact known
  · have other_ne : other ≠ name := fun same => weightless (same ▸ visible)
    have shown : Visible s other :=
      (visible_congr ((looks other).trans (if_neg other_ne))).mp visible
    rcases inv.remembered other shown with is | after
    · exact .inl (current.trans is)
    · rcases hidden other after with same | is | not_shown
      · exact absurd same other_ne
      · exact .inl (current.trans is)
      · exact absurd shown not_shown
  · obtain rfl : name = n := Option.some.inj (next.symm.trans after)
    exact absurd shown weightless

theorem TwoRemembered.step (irrefl : ¬ (0 : F) < 0) (keeps : KeepsLooks lib)
    {s t : MeshStage F V Q} (inv : TwoRemembered s) {call : AnimationCall F V Q}
    (guard : QueueGuard s call) (returned : animate lib s call = some t) : TwoRemembered t := by
  cases call with
  | update input => exact inv.update irrefl keeps returned
  | queueAnimation name looped transitionTime forward =>
      cases known : seen s name with
      | none => exact animate_unqueued (.inl known) returned ▸ inv
      | some look =>
          have known' : (seen s name).isSome := by rw [known]; rfl
          by_cases idle : s.1.mCurrentAnimation = none
          · obtain ⟨u, ran, current, next, looks⟩ :=
              animate_first lib idle known' looped transitionTime forward
            obtain rfl := Option.some.inj (ran.symm.trans returned)
            exact inv.first known' idle current next looks
          · by_cases long : 0 < transitionTime
            · obtain ⟨u, ran, current, next, looks⟩ :=
                animate_next keeps idle known' looped long forward
              obtain rfl := Option.some.inj (ran.symm.trans returned)
              refine inv.queued irrefl idle ?_ current next looks
              simpa [QueueGuard, idle, long, known] using guard
            · exact animate_unqueued (.inr ⟨idle, long⟩) returned ▸ inv

/-- An animation that is visible when another one is queued over it is forgotten at the
next update. -/
theorem forgotten_of_queued (keeps : KeepsLooks lib) {s t : MeshStage F V Q} {name old : Name}
    (inv : TwoRemembered s) (other : old ≠ name)
    (not_current : s.1.mCurrentAnimation ≠ some old) (shown : Visible s old)
    (current : t.1.mCurrentAnimation = s.1.mCurrentAnimation)
    (next : t.1.mNextAnimation = some name)
    (looks : ∀ other, seen t other =
      if other = name then (seen s other).map fun look => (look.1, 0) else seen s other) :
    ¬ AtUpdate lib t := by
  intro all
  have known : ∀ c, t.1.mCurrentAnimation = some c → (seen t c).isSome := by
    intro c is
    rw [looks]
    have known := inv.known c (current ▸ is)
    split
    · rw [Option.isSome_map]
      exact known
    · exact known
  let input : FrameInput F V Q :=
    ⟨0, false, t.2.node.orientation, 0, 0, 0, 0, ⟨t.2.node.position, t.2.node.orientation⟩, false⟩
  obtain ⟨u, ran⟩ := update_returns lib input rfl known
  obtain ⟨current', next', changed⟩ := animate_update keeps ran
  have same : seen u old = seen t old := by
    rcases changed with same | ⟨c, n, is, after, changed⟩
    · exact same old
    · have not_next : old ≠ n := fun at_next =>
        other (at_next.trans (Option.some.inj (after.symm.trans next)))
      have not_c : old ≠ c := fun at_current =>
        not_current (at_current ▸ current.symm.trans is)
      rw [changed, if_neg not_next, if_neg not_c]
  have still : Visible u old := (visible_congr same).mpr
    ((visible_congr ((looks old).trans (if_neg other))).mpr shown)
  rcases (all input u ran).remembered old still with is | after
  · exact not_current (current.symm.trans (current'.symm.trans is))
  · exact other (Option.some.inj (after.symm.trans (next'.trans next)))

theorem atUpdate_iff_guard (unit : (0 : F) < 1) (irrefl : ¬ (0 : F) < 0) (keeps : KeepsLooks lib)
    {s : MeshStage F V Q} (inv : TwoRemembered s) (call : AnimationCall F V Q) :
    (∀ t, animate lib s call = some t → AtUpdate lib t) ↔ QueueGuard s call := by
  constructor
  · intro all
    cases call with
    | update input => trivial
    | queueAnimation name looped transitionTime forward =>
        by_contra unguarded
        obtain ⟨busy, long, known, next, -, other, not_current, shown⟩ :
            s.1.mCurrentAnimation ≠ none ∧ 0 < transitionTime ∧ seen s name ≠ none ∧
              ∃ next, s.1.mNextAnimation = some next ∧ next ≠ name ∧
                s.1.mCurrentAnimation ≠ some next ∧ Visible s next := by
          simpa [QueueGuard] using unguarded
        obtain ⟨t, ran, current, after, looks⟩ := animate_next keeps busy
          (Option.isSome_iff_ne_none.mpr known) looped long forward
        exact forgotten_of_queued keeps inv other not_current shown current after looks
          (all t ran)
  · intro guard t ran input u updated
    exact ((inv.step irrefl keeps guard ran).update irrefl keeps updated).noneForgotten unit

/-- No forgotten animation keeps playing exactly when none is queued over a visible one. -/
theorem noneForgotten_iff (unit : (0 : F) < 1) (irrefl : ¬ (0 : F) < 0) (keeps : KeepsLooks lib)
    {s : MeshStage F V Q} (fresh : Fresh s) (calls : List (AnimationCall F V Q)) :
    Throughout (animate lib) (AtUpdate lib) s calls ↔ Along (animate lib) QueueGuard s calls := by
  have inv := fresh.twoRemembered
  refine throughout_iff (I := TwoRemembered) (L := fun _ => True)
    (fun s call inv _ _ => atUpdate_iff_guard unit irrefl keeps inv call)
    (fun s call t inv _ _ guard ran => inv.step irrefl keeps guard ran) inv ?_ fun _ _ => trivial
  exact fun input t ran => (inv.update irrefl keeps ran).noneForgotten unit

end invariant

section line

attribute [local instance] instScalarInt

def dancer : MeshStage ℤ ℤ ℤ :=
  ({ MeshComponent.constructed with
      mEntity := some ⟨true, fun name =>
        if name ∈ ["idle", "walk", "run"].map chars then some ⟨false, false, 1, 0, 10⟩ else none⟩ },
    ⟨chars "Dancer", ⟨0, 0⟩, none, none, none, none, 0, .missing⟩)

theorem fresh_dancer : Fresh dancer := by
  refine ⟨rfl, rfl, rfl, fun name weight enabled => ?_⟩
  simp [seen, MeshComponent.animation, dancer, MeshComponent.constructed] at enabled

def queueLooped (name : String) : AnimationCall ℤ ℤ ℤ :=
  .queueAnimation (chars name) true 1 true

def danceFrame : AnimationCall ℤ ℤ ℤ := .update ⟨1, false, 0, 0, 0, 0, 0, ⟨0, 0⟩, false⟩

theorem keepsLooks_line : KeepsLooks line := fun _ _ => ⟨rfl, rfl, rfl⟩

theorem noneForgotten_two : Throughout (animate line) (AtUpdate line) dancer
    [queueLooped "idle", queueLooped "walk", danceFrame] := by
  refine (noneForgotten_iff (by decide) (by decide) keepsLooks_line fresh_dancer _).mpr ?_
  refine ⟨.inl rfl, fun s returned => ⟨.inr (.inr (.inr ?_)), fun t returned => ?_⟩⟩
  · intro next after
    obtain rfl := Option.some.inj returned
    cases after
  · exact ⟨trivial, fun _ _ => trivial⟩

/-- A third animation is queued while the second is played: both play from the next frame
on. -/
theorem forgotten_plays : Fresh dancer ∧ ¬ Throughout (animate line) (AtUpdate line) dancer
    [queueLooped "idle", queueLooped "walk", danceFrame, queueLooped "run"] := by
  refine ⟨fresh_dancer, fun all => ?_⟩
  have played := (all _ (List.prefix_refl _) _ rfl
    ⟨1, false, 0, 0, 0, 0, 0, ⟨0, 0⟩, false⟩ _ rfl).single (chars "walk") (chars "run") rfl rfl
  exact absurd played (by decide)

end line

end Ssuge.Components

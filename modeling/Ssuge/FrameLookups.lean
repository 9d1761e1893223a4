import Ssuge.Animations

/-! The frames of the application, as far as they look up game objects by their names, and
what they do with a lookup that fails. A frame updates each object of the map and then reads
the actions. Whatever else an object does when it is updated, with its other components and
its script, and whatever happens between two frames, may leave the objects and the input in
any state; only the time that the update of meshes adds up is theirs alone. -/

namespace Ssuge.Frames

open CString Procedure GuardedRun Components

/-- What may be NULL: the result of a lookup. -/
inductive Lookup
  | findGameObject (title : Name)
  | getMeshComponent
  | getEntity
deriving DecidableEq

inductive Fault
  | null (lookup : Lookup)
  | stop (reason : Stop)
deriving DecidableEq

variable {F V Q B : Type}

structure Object (F V Q : Type) where
  node : Node V Q
  animation : Option (AnimationState F)
  mOldPosition : Option V
  mVelocity : Option V
  mesh : Option (MeshComponent F)
  camera : Option (CameraComponent F V Q)

structure Application (F V Q : Type) where
  mObjects : OrderedMap Name (Object F V Q)
  actionIsActive : InputActions → Bool
  mActiveCamera : Option Name
  accum : F

/-- Where a frame is: before its beginning, at an object, or past the last one. -/
inductive Phase
  | between
  | running (it : Name)
  | inputs

structure Frame (F V Q : Type) where
  application : Application F V Q
  input : FrameInput F V Q
  phase : Phase

/-- What the program does next, and what the rest of it has left behind meanwhile. -/
inductive Turn (F V Q : Type)
  | frame (found : Application F V Q) (input : FrameInput F V Q)
  | object (sensor : Q) (left : Application F V Q)
  | inputs

abbrev AppProc (F V Q : Type) := Proc Fault (Application F V Q)

namespace Application

def withTime (a : Application F V Q) (accum : F) : Application F V Q := { a with accum := accum }

def findGameObject (a : Application F V Q) (title : Name) : Option (Object F V Q) :=
  a.mObjects.find? title

def setObject (a : Application F V Q) (title : Name) (o : Object F V Q) : Application F V Q :=
  { a with mObjects := a.mObjects.insert title o }

def ghost (a : Application F V Q) (title : Name) : Ghost Q :=
  match a.findGameObject (chars "testGhost") with
  | none => .missing
  | some o => if title = chars "testGhost" then .this else .other o.node.orientation

def around (a : Application F V Q) (title : Name) (o : Object F V Q) : Around F V Q where
  mName := title
  node := o.node
  animation := o.animation
  mOldPosition := o.mOldPosition
  mVelocity := o.mVelocity
  mActiveCamera := a.mActiveCamera
  accum := a.accum
  testGhost := a.ghost title

def turned (a : Application F V Q) : Ghost Q → Application F V Q
  | .other orientation =>
      match a.findGameObject (chars "testGhost") with
      | none => a
      | some o => a.setObject (chars "testGhost")
          { o with node := { o.node with orientation := orientation } }
  | _ => a

def put (title : Name) (o : Object F V Q) (a : Application F V Q) (held : MeshStage F V Q) :
    Application F V Q :=
  ({ a with accum := held.2.accum }.turned held.2.testGhost).setObject title
    { o with
      node := held.2.node
      animation := held.2.animation
      mOldPosition := held.2.mOldPosition
      mVelocity := held.2.mVelocity
      mesh := some held.1 }

end Application

def NeverNull {σ α : Type} (p : Proc Fault σ α) (s : σ) : Prop :=
  ∀ lookup t, p.run s ≠ .stopped (.null lookup) t

def use {σ α : Type} (lookup : Lookup) (p : Option α) : Proc Fault σ α := orStop p (.null lookup)

def onMesh (title : Name) (fault : Stop → Fault)
    (p : ComponentProc F V Q (MeshComponent F) Unit) : AppProc F V Q Unit := do
  let o ← orStop ((← get).findGameObject title) (.stop .undefined)
  let c ← orStop o.mesh (.stop .undefined)
  stopAs fault (within (fun a => (c, a.around title o)) (Application.put title o) p)

/-- With the Oculus support that `BaseApplication.cpp` switches on, no camera is ever made the
active one. -/
def setActiveCamera (cam : Option (Object F V Q)) : AppProc F V Q Nat :=
  match cam.bind Object.camera with
  | none => pure 1
  | some c => pure (if c.mEnable = false then 1 else 0)

section turns

variable [Scalar F]
variable (lib : Library F V Q B)

/-- `MeshComponent::update` in the application. Its sensor part stops at nothing but the use
of `yost`. -/
def updateMesh (it : Name) (input : FrameInput F V Q) : AppProc F V Q Unit := do
  onMesh it (fun _ => .null (.findGameObject (chars "testGhost")))
    (MeshComponent.updateYost lib input)
  onMesh it .stop (MeshComponent.updateAnimations lib input)

/-- `obj->update(dT)`, as far as its mesh. -/
def updateObject (it : Name) (input : FrameInput F V Q) : AppProc F V Q Unit := do
  let o ← orStop ((← get).findGameObject it) (.stop .undefined)
  match o.mesh with
  | none => pure ()
  | some c => if c.mEnable then updateMesh lib it input else pure ()

/-- The action for the third person in `BaseApplication::update`. -/
def updateCamera : AppProc F V Q Unit := do
  let a ← get
  if a.actionIsActive .thirdPerson then
    discard (setActiveCamera (a.findGameObject (chars "mainCam")))
  else pure ()

/-- The action to jump. To queue an animation uses the entity in any case, since the
transition takes 1.5 seconds. -/
def updateJump : AppProc F V Q Unit := do
  let a ← get
  if a.actionIsActive .actionJump then do
    let ninja ← use (.findGameObject (chars "Ninja")) (a.findGameObject (chars "Ninja"))
    let mesh ← use .getMeshComponent ninja.mesh
    let _ ← use .getEntity mesh.mEntity
    onMesh (chars "Ninja") .stop (discard
      (MeshComponent.queueAnimation lib (chars "Backflip") false (lib.real ⟨0x3FC00000⟩) true))
  else pure ()

def updateInputs : AppProc F V Q Unit := do
  updateCamera
  updateJump lib

def at? : Option (Name × Object F V Q) → Phase
  | some entry => .running entry.1
  | none => .inputs

def onApplication (p : AppProc F V Q Unit) : Proc Fault (Frame F V Q) Unit :=
  within Frame.application (fun s a => { s with application := a }) p

def Turn.run : Turn F V Q → Proc Fault (Frame F V Q) Unit
  | .frame found input => do
      match (← get).phase with
      | .between => modify fun s => { s with
          application := found.withTime s.application.accum
          input := input
          phase := at? found.mObjects.entries.head? }
      | _ => stop (.stop .aborted)
  | .object sensor left => do
      let s ← get
      match s.phase with
      | .running it => do
          onApplication (updateObject lib it { s.input with sensor := sensor })
          modify fun s => { s with
            application := left.withTime s.application.accum
            phase := at? (left.mObjects.above it).head? }
      | _ => stop (.stop .aborted)
  | .inputs => do
      match (← get).phase with
      | .inputs => do
          onApplication (updateInputs lib)
          modify fun s => { s with phase := .between }
      | _ => stop (.stop .aborted)

def step (s : Frame F V Q) (turn : Turn F V Q) : Option (Frame F V Q) :=
  ((turn.run lib).run s).resumes fun _ => false

/-- What is looked up in a turn is used only when it was found. -/
def UsesFound (s : Frame F V Q) (turn : Turn F V Q) : Prop := NeverNull (turn.run lib) s

def TurnsGhost (s : Frame F V Q) (it : Name) : Prop :=
  (∃ o c, s.application.findGameObject it = some o ∧ o.mesh = some c ∧ c.mEnable = true) ∧
    s.input.noDevice = true ∧ lib.quarter < s.application.accum + s.input.dT

/-- When the ghost is turned there is one, and when the action is to jump the ninja has a
mesh that is loaded. -/
def Guard (s : Frame F V Q) : Turn F V Q → Prop
  | .frame _ _ => True
  | .object _ _ => ∀ it, s.phase = .running it → TurnsGhost lib s it →
      (s.application.findGameObject (chars "testGhost")).isSome
  | .inputs => s.phase = .inputs → s.application.actionIsActive .actionJump = true →
      ∃ ninja mesh, s.application.findGameObject (chars "Ninja") = some ninja ∧
        ninja.mesh = some mesh ∧ mesh.mEntity.isSome

end turns

section null

variable {σ τ α β : Type}

theorem neverNull_bind {p : Proc Fault σ α} {f : α → Proc Fault σ β} {s : σ} :
    NeverNull (p >>= f) s ↔
      NeverNull p s ∧ ∀ a t, p.run s = .returned a t → NeverNull (f a) t := by
  cases ran : p.run s with
  | returned a t =>
      simp only [NeverNull, bind_of_returned ran, ran, ne_eq, reduceCtorEq, not_false_eq_true,
        implies_true, true_and, Ending.returned.injEq]
      exact ⟨fun rest a' t' ⟨same, same'⟩ => same ▸ same' ▸ rest, fun rest => rest a t ⟨rfl, rfl⟩⟩
  | stopped e t => simp [NeverNull, bind_of_stopped ran, ran]

theorem neverNull_get_bind {f : σ → Proc Fault σ β} {s : σ} :
    NeverNull ((get : Proc Fault σ σ) >>= f) s ↔ NeverNull (f s) s := Iff.rfl

theorem neverNull_some_bind {a : α} {e : Fault} {f : α → Proc Fault σ β} {s : σ} :
    NeverNull ((orStop (some a) e : Proc Fault σ α) >>= f) s ↔ NeverNull (f a) s := Iff.rfl

theorem neverNull_bind_of_returned {p : Proc Fault σ α} {s t : σ} {a : α}
    (returned : p.run s = .returned a t) {f : α → Proc Fault σ β} :
    NeverNull (p >>= f) s ↔ NeverNull (f a) t := by
  rw [NeverNull, bind_of_returned returned, NeverNull]

@[simp] theorem neverNull_pure (a : α) (s : σ) : NeverNull (pure a : Proc Fault σ α) s := by
  simp [NeverNull]

@[simp] theorem neverNull_modify (f : σ → σ) (s : σ) :
    NeverNull (modify f : Proc Fault σ PUnit) s := by
  simp [NeverNull]

@[simp] theorem neverNull_stop (reason : Stop) (s : σ) :
    NeverNull (stop (.stop reason) : Proc Fault σ α) s := by
  simp [NeverNull]

theorem neverNull_use_bind {lookup : Lookup} {p : Option α} {f : α → Proc Fault σ β} {s : σ} :
    NeverNull (use lookup p >>= f) s ↔ ∃ a, p = some a ∧ NeverNull (f a) s := by
  cases p with
  | none => simp [NeverNull, use]
  | some a => simp only [use, neverNull_some_bind, Option.some.injEq, exists_eq_left']

theorem neverNull_orStop (reason : Stop) (p : Option α) (s : σ) :
    NeverNull (orStop p (.stop reason) : Proc Fault σ α) s := by
  cases p <;> simp [NeverNull]

theorem neverNull_within {part : σ → τ} {put : σ → τ → σ} {p : Proc Fault τ α} {s : σ} :
    NeverNull (within part put p) s ↔ NeverNull p (part s) := by
  rw [NeverNull, NeverNull, within_run]
  cases p.run (part s) <;> simp

theorem neverNull_stopAs_stop (p : Proc Stop σ α) (s : σ) :
    NeverNull (stopAs Fault.stop p) s := by
  rw [NeverNull, stopAs_run]
  cases p.run s <;> simp

theorem neverNull_stopAs_null {lookup : Lookup} {p : Proc Stop σ α} {s : σ} :
    NeverNull (stopAs (fun _ => .null lookup) p) s ↔ (p.run s).returns = true := by
  rw [NeverNull, stopAs_run]
  cases p.run s <;> simp [Ending.returns]

end null

section turns

variable [Scalar F]
variable (lib : Library F V Q B)

omit [Scalar F] in
theorem ghost_eq_missing {a : Application F V Q} {title : Name} :
    a.ghost title = .missing ↔ a.findGameObject (chars "testGhost") = none := by
  rw [Application.ghost]
  cases a.findGameObject (chars "testGhost") with
  | none => simp
  | some o => by_cases this : title = chars "testGhost" <;> simp [this]

theorem updateYost_returns_iff (input : FrameInput F V Q) (s : MeshStage F V Q) :
    ((MeshComponent.updateYost lib input).run s).returns = true ↔ ¬ MissesGhost lib input s.2 := by
  rcases updateYost_run lib input s with ⟨there, a, returned⟩ | ⟨misses, t, stopped⟩
  · simp [returned, there, Ending.returns]
  · simp [stopped, misses, Ending.returns]

omit [Scalar F] in
theorem neverNull_onMesh_null {title : Name} {lookup : Lookup}
    {p : ComponentProc F V Q (MeshComponent F) Unit} {a : Application F V Q} {o : Object F V Q}
    {c : MeshComponent F} (found : a.findGameObject title = some o) (mesh : o.mesh = some c) :
    NeverNull (onMesh title (fun _ => .null lookup) p) a ↔
      (p.run (c, a.around title o)).returns = true := by
  rw [onMesh, neverNull_get_bind, found, neverNull_some_bind, mesh, neverNull_some_bind,
    neverNull_stopAs_null, within_run]
  cases p.run (c, a.around title o) <;> rfl

omit [Scalar F] in
theorem neverNull_onMesh_stop (title : Name) (p : ComponentProc F V Q (MeshComponent F) Unit)
    (a : Application F V Q) : NeverNull (onMesh title .stop p) a := by
  rw [onMesh, neverNull_get_bind, neverNull_bind]
  refine ⟨neverNull_orStop _ _ _, fun o t _ => ?_⟩
  rw [neverNull_bind]
  exact ⟨neverNull_orStop _ _ _, fun c u _ => neverNull_stopAs_stop _ _⟩

theorem neverNull_updateMesh {it : Name} {input : FrameInput F V Q} {a : Application F V Q}
    {o : Object F V Q} {c : MeshComponent F} (found : a.findGameObject it = some o)
    (mesh : o.mesh = some c) :
    NeverNull (updateMesh lib it input) a ↔ ¬ MissesGhost lib input (a.around it o) := by
  rw [updateMesh, neverNull_bind, neverNull_onMesh_null found mesh, updateYost_returns_iff]
  exact and_iff_left fun _ t _ => neverNull_onMesh_stop _ _ t

/-- The update of an object uses NULL exactly when its mesh turns a ghost that is missing. -/
theorem neverNull_updateObject (it : Name) (input : FrameInput F V Q) (a : Application F V Q) :
    NeverNull (updateObject lib it input) a ↔
      ((∃ o c, a.findGameObject it = some o ∧ o.mesh = some c ∧ c.mEnable = true) ∧
        input.noDevice = true ∧ lib.quarter < a.accum + input.dT →
          (a.findGameObject (chars "testGhost")).isSome) := by
  rw [updateObject, neverNull_get_bind]
  cases found : a.findGameObject it with
  | none => simp [NeverNull]
  | some o =>
      rw [neverNull_some_bind]
      cases mesh : o.mesh with
      | none => simp [mesh]
      | some c =>
          by_cases enabled : c.mEnable
          · have missing_iff : (a.around it o).testGhost = .missing ↔
                a.findGameObject (chars "testGhost") = none := ghost_eq_missing
            simp only [if_pos enabled]
            rw [neverNull_updateMesh lib found mesh, MissesGhost, missing_iff,
              Option.isSome_iff_ne_none]
            constructor
            · exact fun there ⟨_, turns⟩ missing => there ⟨missing, turns⟩
            · exact fun there ⟨missing, turns⟩ => there ⟨⟨o, c, rfl, mesh, enabled⟩, turns⟩ missing
          · simp [mesh, enabled]

omit [Scalar F] in
theorem updateCamera_run (a : Application F V Q) :
    (updateCamera : AppProc F V Q Unit).run a = .returned () a := by
  have returned : ∀ cam : Option (Object F V Q),
      ∃ n, (setActiveCamera cam).run a = .returned n a := by
    intro cam
    rw [setActiveCamera]
    cases cam.bind Object.camera <;> exact ⟨_, rfl⟩
  rw [updateCamera, bind_get_run]
  split
  · exact discard_returned.mpr (returned _)
  · rfl

theorem neverNull_updateJump (a : Application F V Q) :
    NeverNull (updateJump lib) a ↔ (a.actionIsActive .actionJump = true →
      ∃ ninja mesh, a.findGameObject (chars "Ninja") = some ninja ∧
        ninja.mesh = some mesh ∧ mesh.mEntity.isSome) := by
  rw [updateJump, neverNull_get_bind]
  by_cases jump : a.actionIsActive .actionJump
  · rw [if_pos jump]
    simp only [neverNull_use_bind, neverNull_onMesh_stop, and_true, jump, forall_const,
      Option.isSome_iff_exists, exists_and_left]
  · simp [jump]

/-- A turn uses nothing but what was found exactly when it meets the guard. -/
theorem usesFound_turn_iff (s : Frame F V Q) (turn : Turn F V Q) :
    UsesFound lib s turn ↔ Guard lib s turn := by
  rw [UsesFound]
  cases turn with
  | frame found input =>
      rw [Turn.run, neverNull_get_bind]
      cases s.phase <;> simp [Guard]
  | object sensor left =>
      rw [Turn.run, neverNull_get_bind]
      cases phase : s.phase with
      | running it =>
          simp only [phase, neverNull_bind, onApplication, neverNull_within, neverNull_modify,
            implies_true, and_true, neverNull_updateObject, Guard, TurnsGhost, Phase.running.injEq,
            forall_eq']
      | between => simp [Guard, phase]
      | inputs => simp [Guard, phase]
  | inputs =>
      rw [Turn.run, neverNull_get_bind]
      cases phase : s.phase with
      | inputs =>
          have jump : NeverNull (updateInputs lib) s.application ↔
              NeverNull (updateJump lib) s.application :=
            neverNull_bind_of_returned (updateCamera_run s.application)
          simp only [neverNull_bind, onApplication, neverNull_within, neverNull_modify,
            implies_true, and_true, jump, neverNull_updateJump, Guard, phase, forall_const]
      | between => simp [Guard, phase]
      | running it => simp [Guard, phase]

/-- In every run of frames the results of lookups are used only when they are not NULL
exactly when every turn meets the guard. -/
theorem usesFound_iff (s : Frame F V Q) (turns : List (Turn F V Q)) :
    Along (step lib) (UsesFound lib) s turns ↔ Along (step lib) (Guard lib) s turns :=
  along_iff (I := fun _ => True) (L := fun _ => True)
    (fun s turn _ _ => usesFound_turn_iff lib s turn) (fun _ _ _ _ _ _ _ => trivial) trivial
    fun _ _ => trivial

end turns

section line

attribute [local instance] instScalarInt

def box : Object ℤ ℤ ℤ := ⟨⟨0, 0⟩, none, none, none, some MeshComponent.constructed, none⟩

def lookedUp (objects : List (Name × Object ℤ ℤ ℤ)) (action : Option InputActions) :
    Application ℤ ℤ ℤ where
  mObjects := objects.foldl (fun m entry => m.insert entry.1 entry.2) .empty
  actionIsActive a := some a = action
  mActiveCamera := none
  accum := 0

def second : FrameInput ℤ ℤ ℤ := ⟨1, true, 0, 0, 0, 0, 0, ⟨0, 0⟩, false⟩

def oneFrame (a : Application ℤ ℤ ℤ) : List (Turn ℤ ℤ ℤ) :=
  .frame a second :: a.mObjects.values.map (fun _ => .object 0 a) ++ [.inputs]

def before (a : Application ℤ ℤ ℤ) : Frame ℤ ℤ ℤ := ⟨a, second, .between⟩

def boxAlone : Application ℤ ℤ ℤ := lookedUp [(chars "Box", box)] none

def noNinja : Application ℤ ℤ ℤ := lookedUp [] (some .actionJump)

def bareNinja : Application ℤ ℤ ℤ :=
  lookedUp [(chars "Ninja", { box with mesh := none })] (some .actionJump)

/-- NULL is used when there is a mesh and no ghost, when there is no ninja to jump, and when
the ninja has no mesh. -/
theorem uses_null : ¬ Along (step line) (UsesFound line) (before boxAlone) (oneFrame boxAlone) ∧
    ¬ Along (step line) (UsesFound line) (before noNinja) (oneFrame noNinja) ∧
    ¬ Along (step line) (UsesFound line) (before bareNinja) (oneFrame bareNinja) := by
  refine ⟨fun ⟨_, next⟩ => ?_, fun ⟨_, next⟩ => ?_, fun ⟨_, next⟩ => ?_⟩
  · exact (next _ rfl).1 (.findGameObject (chars "testGhost")) _ rfl
  · exact (next _ rfl).1 (.findGameObject (chars "Ninja")) _ rfl
  · exact ((next _ rfl).2 _ rfl).1 .getMeshComponent _ rfl

end line

end Ssuge.Frames

import Mathlib.Algebra.Ring.Int.Defs
import Ssuge.ComponentOwnership
import Ssuge.Physics

/-! One game object with its components, and the ways in which these act: in each frame, on
the transforms of the object's node, and in what scripts execute. The arithmetic is that of
the types, and what Ogre, Bullet and irrKlang compute is a parameter. Ogre brings a node up
to date when its derived transform is read; a node that was stale then notifies the object,
in the middle of whatever the reader is doing. -/

namespace Ssuge.Components

open CString Procedure
open Physics (Geometry)

/-- What the code does with numbers of type `float`. -/
class Scalar (F : Type) extends Zero F, One F, NatCast F, Add F, Sub F, Neg F, Mul F, LT F, LE F
    where
  decidableLT : DecidableLT F
  decidableLE : DecidableLE F

attribute [reducible, instance] Scalar.decidableLT Scalar.decidableLE

/-- What the code does with vectors. -/
class Vectorial (V : Type) extends Zero V, Add V, Sub V

structure AnimationState (F : Type) where
  enabled : Bool
  loop : Bool
  weight : F
  timePosition : F
  length : F

structure Entity (F : Type) where
  visible : Bool
  animationStates : Name → Option (AnimationState F)

/-- The animations are names of states of the entity; `none` is the NULL pointer. -/
structure MeshComponent (F : Type) where
  mEnable : Bool
  mEntity : Option (Entity F)
  mCurrentAnimation : Option Name
  mNextAnimation : Option Name
  mPlayAnimationForward : Bool
  mTransitionTimeTotal : F
  mTransitionTimeCur : F
  mNextLooping : Bool

structure ISound (V : Type) where
  source : List UInt8
  looped : Bool
  effects : Bool
  paused : Bool
  position : V
  velocity : V

structure SoundComponent (V : Type) where
  mEnable : Bool
  mSound : Option (ISound V)

structure Camera (F V Q : Type) where
  position : V
  orientation : Q
  nearClipDistance : F

structure CameraComponent (F V Q : Type) where
  mEnable : Bool
  mCamera : Camera F V Q
  mForwardDir : V
  mRightDir : V
  mForwardRate : F
  mBackwardRate : F
  mStrafeRate : F
  mIsFirstPerson : Bool
  mYawRate : F
  mPitchRate : F

/-- Nothing was written to a mass that is `none`. The motion state is the one that the body
was constructed with. -/
structure PhysicsComponent (F V Q B : Type) where
  mEnable : Bool
  Cmass : Option F
  mOffset : V
  mShape : Option (Geometry F V)
  mMotionState : Option (V × Q)
  mBody : Option B

abbrev Of (F V Q B : Type) : ComponentType → Type
  | .mesh => MeshComponent F
  | .sound => SoundComponent V
  | .camera => CameraComponent F V Q
  | .physics => PhysicsComponent F V Q B

structure Node (V Q : Type) where
  position : V
  orientation : Q

structure DerivedTransform (V Q : Type) where
  position : V
  orientation : Q

/-- The object with the name `testGhost`, which may be this one. -/
inductive Ghost (Q : Type)
  | missing
  | this
  | other (orientation : Q)

structure Around (F V Q : Type) where
  mName : Name
  node : Node V Q
  /-- The state of the object's own animation, while `mAnimation` is set. -/
  animation : Option (AnimationState F)
  mOldPosition : Option V
  mVelocity : Option V
  /-- The name of the object with the active camera. -/
  mActiveCamera : Option Name
  /-- The static variable of `MeshComponent::update`. -/
  accum : F
  testGhost : Ghost Q

structure World (F V Q B : Type) where
  mLastTick : UInt32
  mOldTime : Int32
  mNewTime : Option Int32
  around : Around F V Q
  mComponents : (t : ComponentType) → Option (Of F V Q B t)

/-- What the libraries compute. `B` is the type of Bullet's rigid bodies. -/
structure Library (F V Q B : Type) where
  real : Binary32 → F
  vector : F → F → F → V
  scale : V → F → V
  quarter : F
  unitX : V
  unitY : V
  negativeUnitZ : V
  /-- The rotation by an angle in degrees about an axis. -/
  degrees : F → V → Q
  /-- The rotation by an angle in radians about an axis. -/
  radians : F → V → Q
  getPitch : Q → F
  rotateNode : Q → Q → Q
  rotateCamera : Q → Q → Q
  /-- `translate` in the local space of the node -/
  translate : Node V Q → V → V
  convertLocalToWorldPosition : DerivedTransform V Q → V → V
  perSecond : V → Int32 → V
  setTimePosition : AnimationState F → F → AnimationState F
  newCamera : Camera F V Q
  calculateLocalInertia : Geometry F V → F → V
  newBody : F → V × Q → Geometry F V → V → B
  setWorldTransform : B → V × Q → B
  applyForce : B → V → V → B
  applyTorqueImpulse : B → V → B

/-- What a frame is told from outside: the time, the rotation that the sensor gives, the
axes of the input devices, and what Ogre derives for the node of the object. -/
structure FrameInput (F V Q : Type) where
  dT : F
  noDevice : Bool
  sensor : Q
  hmove : F
  vmove : F
  mhmove : F
  mvmove : F
  derived : DerivedTransform V Q
  stale : Bool

/-- What an operation is told from outside: the entity that Ogre creates, if it does,
whether a sound is obtained, and what Ogre derives for the node of the object. -/
structure Answers (F V Q : Type) where
  created : Option (Entity F)
  found : Bool
  derived : DerivedTransform V Q
  stale : Bool

abbrev WorldProc (F V Q B : Type) := Proc Stop (World F V Q B)

abbrev ComponentProc (F V Q C : Type) := Proc Stop (C × Around F V Q)

variable {F V Q B : Type}

def getEnable : (t : ComponentType) → Of F V Q B t → Bool
  | .mesh, c => c.mEnable
  | .sound, c => c.mEnable
  | .camera, c => c.mEnable
  | .physics, c => c.mEnable

namespace World

def setComponent (w : World F V Q B) (t : ComponentType) (c : Option (Of F V Q B t)) :
    World F V Q B :=
  { w with mComponents := Function.update w.mComponents t c }

def put (t : ComponentType) (w : World F V Q B) (held : Of F V Q B t × Around F V Q) :
    World F V Q B :=
  { w.setComponent t (some held.1) with around := held.2 }

/-- `BASE_APPLICATION->getTime()`, as the `int` that it is stored in. -/
def getTime (w : World F V Q B) : Int32 := w.mLastTick.toInt32

end World

/-- `mComponents[t]->...`: to call a component that is missing is undefined. -/
def onComponent {α : Type} (t : ComponentType) (p : ComponentProc F V Q (Of F V Q B t) α) :
    WorldProc F V Q B α := do
  let c ← orStop ((← get).mComponents t) .undefined
  within (fun w => (c, w.around)) (World.put t) p

def modifyOwn {C : Type} (f : C → C) : ComponentProc F V Q C Unit :=
  modify fun held => (f held.1, held.2)

def modifyAround {C : Type} (f : Around F V Q → Around F V Q) : ComponentProc F V Q C Unit :=
  modify fun held => (held.1, f held.2)

def modifyNode {C : Type} (f : Node V Q → Node V Q) : ComponentProc F V Q C Unit :=
  modifyAround fun a => { a with node := f a.node }

section functions

variable [Scalar F] [Vectorial V]
variable (lib : Library F V Q B)

def addTime (a : AnimationState F) (offset : F) : AnimationState F :=
  lib.setTimePosition a (a.timePosition + offset)

def getVector (args : Message) (first : Nat) : Eval V := do
  let x ← args.getFloat first
  let y ← args.getFloat (first + 1)
  let z ← args.getFloat (first + 2)
  pure (lib.vector (lib.real x) (lib.real y) (lib.real z))

namespace MeshComponent

def constructed : MeshComponent F where
  mEnable := true
  mEntity := none
  mCurrentAnimation := none
  mNextAnimation := none
  mPlayAnimationForward := true
  mTransitionTimeTotal := 0
  mTransitionTimeCur := 0
  mNextLooping := false

def animation (c : MeshComponent F) (name : Name) : Option (AnimationState F) :=
  c.mEntity.bind fun entity => entity.animationStates name

def modifyAnimation (name : Name) (f : AnimationState F → AnimationState F) :
    ComponentProc F V Q (MeshComponent F) Unit :=
  modifyOwn fun c => { c with
    mEntity := c.mEntity.map fun entity => { entity with
      animationStates :=
        Function.update entity.animationStates name ((entity.animationStates name).map f) } }

/-- The entity's name is taken if the component has an entity. -/
def loadMesh (created : Option (Entity F)) : ComponentProc F V Q (MeshComponent F) Unit := do
  require ((← get).1.mEntity = none) (.threw .ogre)
  let entity ← orStop created (.threw .ogre)
  modifyOwn fun c => { c with mEntity := some entity }

/-- Where a next animation does not exist, the function ends without a result. -/
def queueAnimation (animName : Name) (looped : Bool) (transitionTime : F) (playForward : Bool) :
    ComponentProc F V Q (MeshComponent F) Int := do
  let (c, _) ← get
  if c.mCurrentAnimation = none then do
    let entity ← orStop c.mEntity .undefined
    let _ ← orStop (entity.animationStates animName) (.threw .ogre)
    modifyOwn fun c => { c with mCurrentAnimation := some animName }
    modifyAnimation animName fun a => { a with enabled := true, loop := looped }
    pure 0
  else if 0 < transitionTime then do
    let entity ← orStop c.mEntity .undefined
    let _ ← orStop (entity.animationStates animName) .undefined
    modifyOwn fun c => { c with mNextAnimation := some animName, mNextLooping := looped }
    modifyAnimation animName fun a =>
      lib.setTimePosition { a with loop := looped, weight := 0 } 0
    modifyOwn fun c => { c with
      mPlayAnimationForward := playForward
      mTransitionTimeTotal := transitionTime
      mTransitionTimeCur := 0 }
    pure 0
  else pure 1

/-- `yost->rotate(q)` -/
def rotateYost (q : Q) : ComponentProc F V Q (MeshComponent F) Unit := do
  match (← get).2.testGhost with
  | .missing => stop .undefined
  | .this => modifyNode fun n => { n with orientation := lib.rotateNode n.orientation q }
  | .other orientation =>
      modifyAround fun a => { a with testGhost := .other (lib.rotateNode orientation q) }

/-- The part of `update` about the sensor. -/
def updateYost (input : FrameInput F V Q) : ComponentProc F V Q (MeshComponent F) Unit := do
  modifyAround fun a => { a with accum := a.accum + input.dT }
  if input.noDevice ∧ lib.quarter < (← get).2.accum then do
    rotateYost lib input.sensor
    modifyAround fun a => { a with accum := 0 }
  else pure ()

/-- An animation that does not loop stays where it is once its end is reached, and nothing
else is done about the end. -/
def advance (dT : F) (forward : Bool) (a : AnimationState F) : AnimationState F :=
  if a.loop then addTime lib a ((if forward then 1 else -1) * dT)
  else if forward then
    if a.length ≤ a.timePosition + dT then a else addTime lib a dT
  else if a.timePosition - dT ≤ 0 then a else addTime lib a (-dT)

/-- The part of `update` after the sensor. -/
def updateAnimations (input : FrameInput F V Q) : ComponentProc F V Q (MeshComponent F) Unit := do
  match (← get).1.mCurrentAnimation with
  | none => pure ()
  | some current => do
      let (c, _) ← get
      modifyAnimation current (advance lib input.dT c.mPlayAnimationForward)
      let (c, _) ← get
      match c.mNextAnimation with
      | none => pure ()
      | some next => do
          let shown ← orStop (c.animation current) .undefined
          if shown.loop then do
            modifyAnimation next fun a => { a with enabled := true }
            modifyAnimation current fun a => { a with weight := 0 }
            modifyAnimation next fun a => { a with weight := 1 }
          else pure ()

def update (input : FrameInput F V Q) : ComponentProc F V Q (MeshComponent F) Unit := do
  updateYost lib input
  updateAnimations lib input

end MeshComponent

namespace SoundComponent

def constructed : SoundComponent V := ⟨true, none⟩

/-- `loadSound` as far as the position of the node. The old sound is given up. -/
def takeSound (res_name : List UInt8) (looped enableSFX found : Bool) :
    ComponentProc F V Q (SoundComponent V) Unit :=
  modifyOwn fun c => { c with
    mSound := if found then some ⟨res_name, looped, enableSFX, true, 0, 0⟩ else none }

/-- The rest of `loadSound` -/
def placeSound (pos : V) : ComponentProc F V Q (SoundComponent V) Unit :=
  modifyOwn fun c => { c with
    mSound := c.mSound.map fun sound => { sound with position := pos, paused := false } }

/-- `update` after it has read the position of the node. -/
def moveSound (pos : V) : ComponentProc F V Q (SoundComponent V) Unit := do
  let (c, a) ← get
  match c.mSound with
  | none => pure ()
  | some sound => do
      if sound.effects then do
        let vel ← orStop a.mVelocity .undefined
        modifyOwn fun c => { c with mSound := c.mSound.map fun s => { s with velocity := vel } }
      else pure ()
      modifyOwn fun c => { c with mSound := c.mSound.map fun s => { s with position := pos } }

end SoundComponent

namespace CameraComponent

def constructed : CameraComponent F V Q where
  mEnable := true
  mCamera := lib.newCamera
  mForwardDir := lib.negativeUnitZ
  mRightDir := lib.unitX
  mForwardRate := (10 : Nat)
  mBackwardRate := (10 : Nat)
  mStrafeRate := (10 : Nat)
  mIsFirstPerson := false
  mYawRate := (90 : Nat)
  mPitchRate := (90 : Nat)

def setFirstPerson (b : Bool) : ComponentProc F V Q (CameraComponent F V Q) Unit :=
  modifyOwn fun c => { c with mIsFirstPerson := b }

def setPosition (v : V) : ComponentProc F V Q (CameraComponent F V Q) Unit :=
  modifyOwn fun c => { c with mCamera := { c.mCamera with position := v } }

def setModelOrietation (forwardDir rightDir : V) :
    ComponentProc F V Q (CameraComponent F V Q) Unit :=
  modifyOwn fun c => { c with mForwardDir := forwardDir, mRightDir := rightDir }

def setRotationRates (is_fps_style : Bool) (yaw_rate pitch_rate : F) :
    ComponentProc F V Q (CameraComponent F V Q) Unit :=
  modifyOwn fun c => { c with
    mIsFirstPerson := is_fps_style
    mYawRate := yaw_rate
    mPitchRate := pitch_rate }

def setNear (d : F) : ComponentProc F V Q (CameraComponent F V Q) Unit :=
  modifyOwn fun c => { c with mCamera := { c.mCamera with nearClipDistance := d } }

def pitched (orientation : Q) : Q :=
  let upper := if 1 < lib.getPitch orientation then lib.radians 1 lib.unitX else orientation
  if lib.getPitch upper < -1 then lib.radians (-1) lib.unitX else upper

def translate (d : V) : ComponentProc F V Q (CameraComponent F V Q) Unit :=
  modifyNode fun n => { n with position := lib.translate n d }

def update (input : FrameInput F V Q) : ComponentProc F V Q (CameraComponent F V Q) Unit := do
  let (c, a) ← get
  if c.mIsFirstPerson ∧ a.mActiveCamera = some a.mName then do
    let turn := lib.degrees (c.mPitchRate * input.mvmove * input.dT) lib.unitX
    modifyOwn fun c => { c with
      mCamera := { c.mCamera with
        orientation := pitched lib (lib.rotateCamera c.mCamera.orientation turn) } }
    let rate := if 0 < input.vmove then c.mForwardRate else c.mBackwardRate
    translate lib (lib.scale (lib.scale (lib.scale c.mForwardDir rate) (-input.vmove)) input.dT)
    translate lib
      (lib.scale (lib.scale (lib.scale c.mRightDir c.mStrafeRate) (-input.hmove)) input.dT)
    modifyNode fun n => { n with
      orientation := lib.rotateNode n.orientation
        (lib.degrees (c.mYawRate * -input.mhmove * input.dT) lib.unitY) }
  else pure ()

end CameraComponent

namespace PhysicsComponent

def constructed : PhysicsComponent F V Q B := ⟨true, none, 0, none, none, none⟩

/-- `loadBox` as far as the transform of the node. -/
def takeBox (offset extents : V) (mass : F) :
    ComponentProc F V Q (PhysicsComponent F V Q B) Unit :=
  modifyOwn fun c => { c with
    Cmass := some mass
    mOffset := offset
    mShape := some (.box extents) }

/-- `loadSphere` as far as the transform of the node. It leaves the old offset. -/
def takeSphere (rad mass : F) : ComponentProc F V Q (PhysicsComponent F V Q B) Unit :=
  modifyOwn fun c => { c with Cmass := some mass, mShape := some (.sphere rad) }

/-- The rest of both loads -/
def takeBody (offset : V) (mass : F) (shape : Geometry F V) (n : DerivedTransform V Q) :
    ComponentProc F V Q (PhysicsComponent F V Q B) Unit :=
  let transform := (lib.convertLocalToWorldPosition n offset + n.position, n.orientation)
  let fallInertia := lib.calculateLocalInertia shape mass
  modifyOwn fun c => { c with
    mMotionState := some transform
    mBody := some (lib.newBody mass transform shape fallInertia) }

def update : ComponentProc F V Q (PhysicsComponent F V Q B) Unit := do
  let (c, _) ← get
  match c.mBody with
  | none => pure ()
  | some _ => do
      let (vect, quat) ← orStop c.mMotionState .undefined
      modifyNode fun _ => ⟨vect, quat⟩

def onTransform (n : DerivedTransform V Q) :
    ComponentProc F V Q (PhysicsComponent F V Q B) Unit := do
  let (c, _) ← get
  let Cmass ← orStop c.Cmass .undefined
  if Cmass < 1 then do
    let body ← orStop c.mBody .undefined
    modifyOwn fun c => { c with
      mBody := some (lib.setWorldTransform body (n.position - c.mOffset, n.orientation)) }
  else pure ()

def addForce (force : V) : ComponentProc F V Q (PhysicsComponent F V Q B) Unit := do
  let (c, a) ← get
  let body ← orStop c.mBody .undefined
  modifyOwn fun c => { c with mBody := some (lib.applyForce body force a.node.position) }

def addTorque (torque : V) : ComponentProc F V Q (PhysicsComponent F V Q B) Unit := do
  let (c, _) ← get
  let body ← orStop c.mBody .undefined
  modifyOwn fun c => { c with mBody := some (lib.applyTorqueImpulse body torque) }

end PhysicsComponent

/-- The virtual `Component::onTransform`, which only physics components override. -/
def onTransform (n : DerivedTransform V Q) : ComponentType → WorldProc F V Q B Unit
  | .physics => onComponent .physics (PhysicsComponent.onTransform lib n)
  | _ => pure ()

def transformSlot (n : DerivedTransform V Q) (t : ComponentType) : WorldProc F V Q B Unit := do
  if ((← get).mComponents t).isSome then onTransform lib n t else pure ()

/-- The loop of `nodeUpdated` over the slots. -/
def transformSlots (n : DerivedTransform V Q) : List ComponentType → WorldProc F V Q B Unit
  | [] => pure ()
  | t :: ts => do
      transformSlot lib n t
      transformSlots n ts

def slots : List ComponentType := [.mesh, .sound, .camera, .physics]

def passOn (n : DerivedTransform V Q) (dT : Int32) : WorldProc F V Q B Unit := do
  let CurrentPosition := (← get).around.node.position
  modify fun w => { w with around := { w.around with
    mVelocity := w.around.mOldPosition.map fun old => lib.perSecond (CurrentPosition - old) dT } }
  transformSlots lib n slots
  modify fun w => { w with
    around := { w.around with mOldPosition := some CurrentPosition }
    mOldTime := w.getTime }

/-- `GameObject::nodeUpdated`. The time that has passed is the quotient of an `int` by 1000,
which is zero only if the `int` is. -/
def nodeUpdated (n : DerivedTransform V Q) : WorldProc F V Q B Unit := do
  modify fun w => { w with mNewTime := some w.getTime }
  let w ← get
  let dT := w.getTime - w.mOldTime
  if dT ≠ 0 then passOn lib n dT else pure ()

def readDerived (n : DerivedTransform V Q) (stale : Bool) : WorldProc F V Q B Unit :=
  if stale then nodeUpdated lib n else pure ()

def updateComponent (input : FrameInput F V Q) : ComponentType → WorldProc F V Q B Unit
  | .mesh => onComponent .mesh (MeshComponent.update lib input)
  | .sound => do
      readDerived lib input.derived input.stale
      onComponent .sound (SoundComponent.moveSound input.derived.position)
  | .camera => onComponent .camera (CameraComponent.update lib input)
  | .physics => onComponent .physics PhysicsComponent.update

def updateSlot (input : FrameInput F V Q) (t : ComponentType) : WorldProc F V Q B Unit := do
  match (← get).mComponents t with
  | some c => if getEnable t c = true then updateComponent lib input t else pure ()
  | none => pure ()

/-- The loop of `update` over the slots. -/
def updateSlots (input : FrameInput F V Q) : List ComponentType → WorldProc F V Q B Unit
  | [] => pure ()
  | t :: ts => do
      updateSlot lib input t
      updateSlots input ts

/-- `GameObject::update` up to the script event: what the script does follows as operations
of its own. -/
def update (input : FrameInput F V Q) : WorldProc F V Q B Unit := do
  modify fun w => { w with around := { w.around with
    animation := w.around.animation.map fun a => addTime lib a input.dT } }
  updateSlots lib input slots

/-- With the Oculus support that `BaseApplication.cpp` switches on, no camera is ever
made the active one. -/
def setActiveCamera : WorldProc F V Q B Nat := do
  match (← get).mComponents .camera with
  | none => pure 1
  | some c => pure (if getEnable .camera c = false then 1 else 0)

namespace MeshComponent

def execute (answers : Answers F V Q) (operation : List UInt8) (args : Message) :
    WorldProc F V Q B Unit :=
  if operation = chars "loadMesh" then do
    let _ ← ofEval (args.getString 0)
    onComponent .mesh (loadMesh answers.created)
  else if operation = chars "queueAnimation" then do
    let animName ← ofEval (args.getString 0)
    let looped ← ofEval (args.getInt 1)
    let transitionTime ← ofEval (args.getFloat 2)
    let playForward ← ofEval (args.getInt 3)
    onComponent .mesh (discard
      (queueAnimation lib animName (looped = 1) (lib.real transitionTime) (playForward = 1)))
  else pure ()

end MeshComponent

namespace SoundComponent

/-- Where the sound is not known, no position is read. -/
def loadSound (answers : Answers F V Q) (res_name : List UInt8) (looped enableSFX : Bool) :
    WorldProc F V Q B Unit := do
  onComponent .sound (takeSound res_name looped enableSFX answers.found)
  if answers.found then do
    readDerived lib answers.derived answers.stale
    onComponent .sound (placeSound answers.derived.position)
  else pure ()

def getArguments (args : Message) : Eval (List UInt8 × Bool × Bool) := do
  let res_name ← args.getString 0
  let looped ← args.getInt 1
  let enableSFX ← args.getInt 2
  pure (res_name, looped ≠ 0, enableSFX ≠ 0)

def execute (answers : Answers F V Q) (operation : List UInt8) (args : Message) :
    WorldProc F V Q B Unit :=
  if operation = chars "loadSound" then do
    let (res_name, looped, enableSFX) ← ofEval (getArguments args)
    loadSound lib answers res_name looped enableSFX
  else pure ()

end SoundComponent

def CameraComponent.execute (operation : List UInt8) (args : Message) : WorldProc F V Q B Unit :=
  if operation = chars "setFirstPerson" then do
    let b ← ofEval (args.getInt 0)
    onComponent .camera (setFirstPerson (b ≠ 0))
  else if operation = chars "setPosition" then do
    let v ← ofEval (getVector lib args 0)
    onComponent .camera (setPosition v)
  else if operation = chars "setModelOrietation" then do
    let forwardDir ← ofEval (getVector lib args 0)
    let rightDir ← ofEval (getVector lib args 3)
    onComponent .camera (setModelOrietation forwardDir rightDir)
  else if operation = chars "setRotationRates" then do
    let is_fps_style ← ofEval (args.getInt 0)
    let yaw_rate ← ofEval (args.getFloat 1)
    let pitch_rate ← ofEval (args.getFloat 2)
    onComponent .camera
      (setRotationRates (is_fps_style ≠ 0) (lib.real yaw_rate) (lib.real pitch_rate))
  else if operation = chars "setNear" then do
    let d ← ofEval (args.getFloat 0)
    onComponent .camera (setNear (lib.real d))
  else if operation = chars "activate" then do
    let _ ← setActiveCamera
    pure ()
  else pure ()

namespace PhysicsComponent

def loadBox (answers : Answers F V Q) (offset extents : V) (mass : F) :
    WorldProc F V Q B Unit := do
  onComponent .physics (takeBox offset extents mass)
  readDerived lib answers.derived answers.stale
  onComponent .physics (takeBody lib offset mass (.box extents) answers.derived)

def loadSphere (answers : Answers F V Q) (offset : V) (rad mass : F) :
    WorldProc F V Q B Unit := do
  onComponent .physics (takeSphere rad mass)
  readDerived lib answers.derived answers.stale
  onComponent .physics (takeBody lib offset mass (.sphere rad) answers.derived)

def execute (answers : Answers F V Q) (operation : List UInt8) (args : Message) :
    WorldProc F V Q B Unit :=
  if operation = chars "addForce" then do
    let force ← ofEval (getVector lib args 0)
    onComponent .physics (addForce lib force)
  else if operation = chars "addTorque" then do
    let torque ← ofEval (getVector lib args 0)
    onComponent .physics (addTorque lib torque)
  else if operation = chars "loadBox" then do
    let offset ← ofEval (getVector lib args 0)
    let extents ← ofEval (getVector lib args 3)
    let mass ← ofEval (args.getFloat 6)
    loadBox lib answers offset extents (lib.real mass)
  else if operation = chars "loadSphere" then do
    let offset ← ofEval (getVector lib args 0)
    let rad ← ofEval (args.getFloat 3)
    let mass ← ofEval (args.getFloat 4)
    loadSphere lib answers offset (lib.real rad) (lib.real mass)
  else pure ()

end PhysicsComponent

/-- The virtual `Component::execute`. Its answer is the dummy message. -/
def execute (answers : Answers F V Q) (t : ComponentType) (operation : List UInt8)
    (args : Message) : WorldProc F V Q B Unit :=
  match t with
  | .mesh => MeshComponent.execute lib answers operation args
  | .sound => SoundComponent.execute lib answers operation args
  | .camera => CameraComponent.execute lib operation args
  | .physics => PhysicsComponent.execute lib answers operation args

def exec (answers : Answers F V Q) (t : ComponentType) (operation : List UInt8)
    (args : Message) : WorldProc F V Q B Unit := do
  let _ ← orStop ((← get).mComponents t) .undefined
  execute lib answers t operation args

def newComponent : (t : ComponentType) → Of F V Q B t
  | .mesh => MeshComponent.constructed
  | .sound => SoundComponent.constructed
  | .camera => CameraComponent.constructed lib
  | .physics => PhysicsComponent.constructed

/-- Ogre throws when the name of the camera is taken; for the other components nothing is
created in the scene yet. -/
def createComponent (t : ComponentType) (created : Bool) : WorldProc F V Q B Unit := do
  require (t = .camera → created) (.threw .ogre)
  modify fun w => w.setComponent t (some (newComponent lib t))

/-- The virtual `Component::setEnable`. A mesh also shows or hides its entity. -/
def setEnable (b : Bool) : (t : ComponentType) → ComponentProc F V Q (Of F V Q B t) Unit
  | .mesh => do
      modifyOwn fun (c : MeshComponent F) => { c with mEnable := b }
      let entity ← orStop (← get).1.mEntity .undefined
      modifyOwn fun (c : MeshComponent F) => { c with mEntity := some { entity with visible := b } }
  | .sound => modifyOwn fun (c : SoundComponent V) => { c with mEnable := b }
  | .camera => modifyOwn fun (c : CameraComponent F V Q) => { c with mEnable := b }
  | .physics => modifyOwn fun (c : PhysicsComponent F V Q B) => { c with mEnable := b }

def enableComponent (t : ComponentType) (b : Bool) : WorldProc F V Q B Unit := do
  if ((← get).mComponents t).isSome then onComponent t (setEnable b t) else pure ()

/-- Bullet's step moves the body and sets its motion state. -/
def PhysicsComponent.simulated (motionState : V × Q) (body : B) (c : PhysicsComponent F V Q B) :
    PhysicsComponent F V Q B :=
  { c with
    mMotionState := c.mMotionState.map fun _ => motionState
    mBody := c.mBody.map fun _ => body }

/-- What happens to the object. The rest of the program moves the node, the clock and the
bodies as it likes. -/
inductive Op (F V Q B : Type)
  | tick (ticks : UInt32)
  | elsewhere (around : Around F V Q)
  | simulate (motionState : V × Q) (body : B)
  | createComponent (t : ComponentType) (created : Bool)
  | enableComponent (t : ComponentType) (b : Bool)
  | update (input : FrameInput F V Q)
  | nodeUpdated (n : DerivedTransform V Q)
  | exec (answers : Answers F V Q) (t : ComponentType) (operation : List UInt8) (args : Message)

def Op.run : Op F V Q B → WorldProc F V Q B Unit
  | .tick ticks => modify fun w => { w with mLastTick := ticks }
  | .elsewhere around => modify fun w => { w with around := around }
  | .simulate motionState body => modify fun w =>
      w.setComponent .physics
        ((w.mComponents .physics).map (PhysicsComponent.simulated motionState body))
  | .createComponent t created => Components.createComponent lib t created
  | .enableComponent t b => Components.enableComponent t b
  | .update input => Components.update lib input
  | .nodeUpdated n => Components.nodeUpdated lib n
  | .exec answers t operation args => Components.exec lib answers t operation args

def step (w : World F V Q B) (op : Op F V Q B) : Option (World F V Q B) :=
  ((op.run lib).run w).resumes Stop.caught

end functions

end Ssuge.Components

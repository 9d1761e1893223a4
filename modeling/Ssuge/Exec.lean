import Ssuge.ComponentOwnership
import Ssuge.ObjectArrival
import Ssuge.RegistryMap
import Ssuge.SceneResources

/-! Calls of `exec` from scripts. A call names a component of an object and an operation,
and may bring a message. Nothing is checked on the way: not whether the component is
there, not whether its mesh or body was loaded, and not whether there is a message. Where an
operation reads the derived transform of the node, Ogre may tell the object that its node was
updated, and that goes to the bodies, in the middle of a load too. -/

namespace Ssuge.Exec

open CString Procedure Lua GuardedRun

/-- What a pointer that is followed can fail to point to. -/
inductive Missing
  | component | entity | body | message
deriving DecidableEq, Repr

/-- Why a call does not return: one of the engine's reasons, or a pointer to nothing. -/
inductive Halt
  | stop (reason : Stop)
  | missing (what : Missing)
deriving DecidableEq, Repr

def Halt.caught : Halt → Bool
  | .stop reason => reason.caught
  | .missing _ => false

structure Stage where
  scene : Scene
  lua : State Payload
  stack : List Value
  mCurrentAnimation : Ptr → Bool
  mBody : Ptr → Bool
  Cmass : Ptr → Binary32
  mOldTime : Ptr → Int32

abbrev StageProc := Proc Halt Stage

namespace Stage

def engine (s : Stage) : Engine := s.scene.engine

def frame (s : Stage) : Frame := ⟨⟨s.engine, s.lua⟩, s.stack⟩

def withFrame (s : Stage) (f : Frame) : Stage :=
  { s with
    scene := { s.scene with engine := f.world.engine }
    lua := f.world.lua
    stack := f.stack }

def withScene (s : Stage) (scene : Scene) : Stage := { s with scene := scene }

def withTime (s : Stage) (self : Ptr) (time : Int32) : Stage :=
  { s with mOldTime := Function.update s.mOldTime self time }

def withMass (s : Stage) (component : Ptr) (mass : Binary32) : Stage :=
  { s with Cmass := Function.update s.Cmass component mass }

end Stage

def onFrame {α : Type} (p : LuaProc α) : StageProc α :=
  stopAs .stop (within Stage.frame Stage.withFrame p)

def onScene {α : Type} (p : SceneProc α) : StageProc α :=
  stopAs .stop (within Stage.scene Stage.withScene p)

def onEngine {α : Type} (p : EngineProc α) : StageProc α := onScene (Scene.onEngine p)

structure Answers where
  /-- The address from the allocator. -/
  address : Ptr
  /-- What is there in the place of `Cmass`, which the constructor does not set. -/
  memory : Binary32
  /-- Where Ogre has the node. -/
  position : Binary32 × Binary32 × Binary32
  /-- Whether Ogre or irrKlang finds what an operation names. -/
  finds : Bool
  /-- `BASE_APPLICATION->getTime()` -/
  time : Int32
  /-- The objects that listen to the nodes that Ogre updates when the derived transform of the
  object's node is read: to this node and those above it, as far as they are stale. -/
  stale : List Ptr
  /-- Whether `rotateTowards` rotates. -/
  turns : Bool

def reading {α : Type} (x : Eval α) : StageProc α := stopAs .stop (ofEval x)

def floats (args : Message) (indices : List Nat) : Eval (List Binary32) :=
  indices.mapM args.getFloat

def toLua (ps : List Param) : Eval Message := definedOr (Message.initialized.addAll ps).value

/-- An operation that reads its arguments and leaves everything here as it is. -/
def reads {α : Type} (x : Eval α) (answer : List Param) : StageProc (Eval Message) := do
  let _ ← reading x
  pure (toLua answer)

/-- A new mesh component has no animation, and a new physics component no body and any mass. -/
def createComponent (t : ComponentType) (answers : Answers) (owner : Ptr) : StageProc Unit := do
  let component ← onScene (Scene.createComponent t answers.address owner)
  modify fun s => { s with
    mCurrentAnimation := Function.update s.mCurrentAnimation component false
    mBody := Function.update s.mBody component false
    Cmass := Function.update s.Cmass component answers.memory }

def createRequested (answers : Answers) (owner : Ptr) (compType : List UInt8) : StageProc Unit :=
  match Engine.componentOf compType with
  | some t => createComponent t answers owner
  | none => pure ()

def addAnimationKeyframe (o : GameObject) : StageProc Unit := do
  require (o.mName ++ chars "an1" ∈ (← get).scene.animations) (.stop (.threw .ogre))

def mBody (component : Ptr) : StageProc Unit := do
  require ((← get).mBody component) (.missing .body)

/-- The virtual `Component::onTransform`; only a physics component has its own. -/
def onTransform (component : Ptr) : StageProc Unit := do
  let c ← orStop ((← get).engine.components component) (.stop .undefined)
  match c.type with
  | .physics => if (← get).Cmass component |>.belowOne then mBody component else pure ()
  | _ => pure ()

def transformSlot (o : GameObject) (t : ComponentType) : StageProc Unit :=
  if o.mComponents t ≠ 0 then onTransform (o.mComponents t) else pure ()

/-- `nodeUpdated`, with the slots in their order. The velocity is left out. -/
def nodeUpdated (time : Int32) (self : Ptr) (o : GameObject) : StageProc Unit := do
  if time - (← get).mOldTime self ≠ 0 then do
    transformSlot o .mesh
    transformSlot o .sound
    transformSlot o .camera
    transformSlot o .physics
    modify fun s => s.withTime self time
  else pure ()

/-- Ogre tells the listeners of the nodes that it updates. An object that was deleted listens no
more. -/
def readDerived (time : Int32) : List Ptr → StageProc Unit
  | [] => pure ()
  | p :: stale => do
      match (← get).engine.objects p with
      | some o => nodeUpdated time p o
      | none => pure ()
      readDerived time stale

def readDerivedIf (c : Bool) (answers : Answers) : StageProc Unit :=
  if c then readDerived answers.time answers.stale else pure ()

/-- An operation that turns the node in the space of the world, if it turns it. -/
def turnsInWorld {α : Type} (answers : Answers) (turns : Bool) (x : Eval α) :
    StageProc (Eval Message) := do
  let _ ← reading x
  readDerivedIf turns answers
  pure (toLua [])

/-- `findObjectsByTag`, which does not depend on how often an object was constructed. -/
def findObjectsByTag (tag : Int32) : StageProc (List Ptr) := do
  let (_, v) ← onEngine (within (fun e => (⟨e, 0, fun _ => 0, []⟩ : Registry)) (fun _ r => r.engine)
    (Registry.findObjectsByTag [] tag))
  pure v

def execute (answers : Answers) (self : Ptr) (operation : List UInt8) (args : Message) :
    StageProc (Eval Message) := do
  let o ← onEngine (Engine.object self)
  if operation = chars "setPosition" then reads (floats args [0, 1, 2]) []
  else if operation = chars "createComponent" then do
    createRequested answers self (← reading (args.getString 0))
    pure (toLua [])
  else if operation = chars "getTag" then pure (toLua [.int (Engine.getTag o)])
  else if operation = chars "setScale" then reads (floats args [0, 1, 2]) []
  else if operation = chars "rotate" then reads (floats args [0, 1, 2, 3]) []
  else if operation = chars "createAnimation" then do
    let _ ← reading (args.getFloat 0)
    onScene (Scene.createAnimation self)
    pure (toLua [])
  else if operation = chars "addAnimationKeyframe" then do
    let _ ← reading (floats args [0, 1, 2, 3, 4, 5, 6])
    addAnimationKeyframe o
    pure (toLua [])
  else if operation = chars "getPosition" then
    let (x, y, z) := answers.position
    pure (toLua [.float x, .float y, .float z])
  else if operation = chars "getName" then pure (toLua [.string o.mName])
  else if operation = chars "getGameObject" then do
    let objName ← reading (args.getString 0)
    pure (toLua (((← get).engine.mObjects.find? objName).toList.map .gameObject))
  else if operation = chars "getGameObjectsWithTag" then do
    let v ← findObjectsByTag (← reading (args.getInt 0))
    pure (toLua (v.map .gameObject))
  else if operation = chars "lookAt" then
    turnsInWorld answers true (floats args [0, 1, 2, 3, 4, 5])
  else if operation = chars "moveTo" then reads (floats args [0, 1, 2, 3, 4]) []
  else if operation = chars "moveFoward" then reads (floats args [0, 1]) []
  else if operation = chars "setModelFacing" then reads (floats args [0, 1, 2]) []
  else if operation = chars "rotateTowards" then
    turnsInWorld answers answers.turns (floats args [0, 1, 2, 3])
  else pure (toLua [])

/-- What `toLua.addString("A dummy message.")` makes of the empty message. -/
def dummy : List Param := [.string (chars "A dummy message.")]

namespace MeshComponent

/-- The mesh file may not exist, and the name of the entity may be taken. -/
def loadMesh (finds : Bool) (component : Ptr) : StageProc Unit := do
  require finds (.stop (.threw .ogre))
  discard (onScene (Scene.loadMesh component))

def mEntity (component : Ptr) : StageProc Unit := do
  require ((← get).scene.mEntity component).isSome (.missing .entity)

/-- The first animation starts, a later one is prepared. Where a later one does not exist,
the function ends without a result. -/
def queueAnimation (finds : Bool) (component : Ptr) (transitionTime : Binary32) :
    StageProc Unit := do
  if (← get).mCurrentAnimation component = false then do
    mEntity component
    require finds (.stop (.threw .ogre))
    modify fun s =>
      { s with mCurrentAnimation := Function.update s.mCurrentAnimation component true }
  else if transitionTime.positive then do
    mEntity component
    require finds (.stop .undefined)
  else pure ()

/-- The time is what `queueAnimation` does not only pass on. -/
def queueArguments (args : Message) : Eval Binary32 := do
  let _ ← args.getString 0
  let _ ← args.getInt 1
  let transitionTime ← args.getFloat 2
  let _ ← args.getInt 3
  pure transitionTime

def execute (finds : Bool) (component : Ptr) (operation : List UInt8) (args : Message) :
    StageProc Unit :=
  if operation = chars "loadMesh" then do
    let _ ← reading (args.getString 0)
    loadMesh finds component
  else if operation = chars "queueAnimation" then do
    queueAnimation finds component (← reading (queueArguments args))
  else pure ()

end MeshComponent

namespace SoundComponent

def loadArguments (args : Message) : Eval Unit := do
  let _ ← args.getString 0
  let _ ← args.getInt 1
  let _ ← args.getInt 2

/-- `loadSound` copes with a sound that it does not find, and places one that it finds. -/
def execute (answers : Answers) (operation : List UInt8) (args : Message) : StageProc Unit :=
  if operation = chars "loadSound" then do
    reading (loadArguments args)
    readDerivedIf answers.finds answers
  else pure ()

end SoundComponent

/-- The camera is there from the constructor on. -/
def CameraComponent.execute (owner : Ptr) (operation : List UInt8) (args : Message) :
    StageProc Unit :=
  if operation = chars "setFirstPerson" then discard (reading (args.getInt 0))
  else if operation = chars "setPosition" then discard (reading (floats args [0, 1, 2]))
  else if operation = chars "setModelOrietation" then
    discard (reading (floats args [0, 1, 2, 3, 4, 5]))
  else if operation = chars "setRotationRates" then do
    let _ ← reading (args.getInt 0)
    discard (reading (floats args [1, 2]))
  else if operation = chars "setNear" then discard (reading (floats args [0]))
  else if operation = chars "activate" then discard (onEngine (Engine.setActiveCamera owner))
  else pure ()

namespace PhysicsComponent

/-- `addForce` and `addTorque` -/
def push (component : Ptr) (args : Message) : StageProc Unit := do
  let _ ← reading (floats args [0, 1, 2])
  mBody component

/-- `loadBox` and `loadSphere`: the mass is set, then the transform is read for the body. -/
def load (answers : Answers) (component : Ptr) (mass : Binary32) : StageProc Unit := do
  modify fun s => s.withMass component mass
  readDerived answers.time answers.stale
  modify fun s => { s with mBody := Function.update s.mBody component true }

def boxMass (args : Message) : Eval Binary32 := do
  let _ ← floats args [0, 1, 2, 3, 4, 5]
  args.getFloat 6

def sphereMass (args : Message) : Eval Binary32 := do
  let _ ← floats args [0, 1, 2, 3]
  args.getFloat 4

def execute (answers : Answers) (component : Ptr) (operation : List UInt8) (args : Message) :
    StageProc Unit :=
  if operation = chars "addForce" then push component args
  else if operation = chars "addTorque" then push component args
  else if operation = chars "loadBox" then do
    load answers component (← reading (boxMass args))
  else if operation = chars "loadSphere" then do
    load answers component (← reading (sphereMass args))
  else pure ()

end PhysicsComponent

/-- The virtual `Component::execute`, by the class of the component. -/
def executeOf (answers : Answers) (component : Ptr) (c : Component) (operation : List UInt8)
    (args : Message) : StageProc Unit :=
  match c.type with
  | .mesh => MeshComponent.execute answers.finds component operation args
  | .sound => SoundComponent.execute answers operation args
  | .camera => CameraComponent.execute c.mOwner operation args
  | .physics => PhysicsComponent.execute answers component operation args

def executeComponent (answers : Answers) (component : Ptr) (operation : List UInt8)
    (args : Message) : StageProc (Eval Message) := do
  let c ← orStop ((← get).engine.components component) (.stop .undefined)
  executeOf answers component c operation args
  pure (toLua dummy)

def messageAt (lua : State Payload) : Value → Option (Eval Message)
  | .userdata u =>
      match lua.userdata[u]?.map Userdata.payload with
      | some (.message m) => some m
      | _ => none
  | _ => none

/-- `*data`: the pointer is set only when there are exactly four arguments, and then without
a look at the fourth. -/
def data : StageProc Message := do
  let s ← get
  let m ← orStop (if s.stack.length = 4 then s.stack.head?.bind (messageAt s.lua) else none)
    (.missing .message)
  reading m

/-- `gm->mPtr->mComponents[t]->...` -/
def mComponents (self : Ptr) (t : ComponentType) : StageProc Ptr := do
  let o ← onEngine (Engine.object self)
  require (o.mComponents t ≠ 0) (.missing .component)
  pure (o.mComponents t)

/-- The branches of `__lua_GameObject_exec`. -/
def dispatch (answers : Answers) (self : Ptr) (component operation : List UInt8) :
    StageProc Unit :=
  if component = chars "self" then do
    let args ← data
    onFrame (pushMessage (← execute answers self operation args))
  else
    match Engine.componentOf component with
    | some t => do
        let p ← mComponents self t
        let args ← data
        onFrame (pushMessage (← executeComponent answers p operation args))
    | none => pure ()

/-- `((LuaGameObject *) lua_touserdata(L, n))->mPtr` -/
def gameObjectAt (n : Nat) : LuaProc Ptr := do
  let v ← Frame.fromBottom n
  orStop ((← get).world.mPtr v) .undefined

/-- `lua_tostring(L, n)`; a null pointer must not be compared. -/
def tostring (host : Host) (n : Nat) : LuaProc (List UInt8) := do
  let s ← orStop (host.string? (← Frame.fromBottom n)) .undefined
  pure (cString s)

/-- `__lua_GameObject_exec` -/
def exec (host : Host) (answers : Answers) : StageProc (Option Value) := do
  require (3 ≤ (← get).stack.length) (.stop .raised)
  let self ← onFrame (gameObjectAt 1)
  let component ← onFrame (tostring host 2)
  let operation ← onFrame (tostring host 3)
  dispatch answers self component operation
  onFrame returnTop

/-- A call of `exec` with a string for the component and one for the operation. -/
structure Call where
  self : Value
  component : List UInt8
  operation : List UInt8
  rest : List Value
  answers : Answers

def Call.arguments (call : Call) : List Value :=
  call.self :: .string call.component :: .string call.operation :: call.rest

def Stage.called (s : Stage) (call : Call) : Stage :=
  { s with stack := call.arguments.reverse }

def execStep (host : Host) (s : Stage) (call : Call) : Option Stage :=
  if s.engine.Fresh call.answers.address then
    ((exec host call.answers).run (s.called call)).resumes Halt.caught
  else none

def Stage.Self (s : Stage) (call : Call) (p : Ptr) (o : GameObject) : Prop :=
  s.frame.world.mPtr call.self = some p ∧ s.engine.objects p = some o

/-- No pointer to nothing was followed, and a call that returns has put one new message on
the stack, which is its result. -/
def Answered (s : Stage) : Ending Halt Stage (Option Value) → Prop
  | .returned v t =>
      v = some (.userdata s.lua.userdata.length) ∧
        t.stack = .userdata s.lua.userdata.length :: s.stack ∧
        ∃ m, messageAt t.lua (.userdata s.lua.userdata.length) = some m
  | .stopped (.stop _) _ => True
  | .stopped (.missing _) _ => False

def SafeCall (host : Host) (s : Stage) (call : Call) : Prop :=
  s.engine.Fresh call.answers.address → (∃ p o, s.Self call p o) →
    Answered (s.called call) ((exec host call.answers).run (s.called call))

/-- No body is missing where an update of the object's node is passed on. -/
def Stage.Moves (s : Stage) (time : Int32) (p : Ptr) : Prop :=
  ∀ o, s.engine.objects p = some o → time ≠ s.mOldTime p → o.mComponents .physics ≠ 0 →
    (s.Cmass (o.mComponents .physics)).belowOne → s.mBody (o.mComponents .physics)

def Stage.Movable (s : Stage) (answers : Answers) : Prop :=
  ∀ p ∈ answers.stale, s.Moves answers.time p

def Gets {α : Type} (x : Eval α) : Prop := ∃ a, x = .ok a

/-- The object has what one of its own operations uses, if the operation gets its arguments. -/
def Stage.Turns (s : Stage) (answers : Answers) (operation : List UInt8) (args : Message) :
    Prop :=
  (operation = chars "lookAt" → Gets (floats args [0, 1, 2, 3, 4, 5]) → s.Movable answers) ∧
  (operation = chars "rotateTowards" → Gets (floats args [0, 1, 2, 3]) → answers.turns →
    s.Movable answers)

/-- A physics component has what the operation uses. A load needs the bodies of the updated
nodes when it has set the mass and not yet made its own. -/
def Stage.Bodied (s : Stage) (answers : Answers) (component : Ptr) (operation : List UInt8)
    (args : Message) : Prop :=
  (operation = chars "addForce" ∨ operation = chars "addTorque" →
    Gets (floats args [0, 1, 2]) → s.mBody component) ∧
  (operation = chars "loadBox" → ∀ mass, PhysicsComponent.boxMass args = .ok mass →
    (s.withMass component mass).Movable answers) ∧
  (operation = chars "loadSphere" → ∀ mass, PhysicsComponent.sphereMass args = .ok mass →
    (s.withMass component mass).Movable answers)

/-- The component has what the operation uses, if the operation gets its arguments. -/
def Stage.Loaded (s : Stage) (answers : Answers) (t : ComponentType) (component : Ptr)
    (operation : List UInt8) (args : Message) : Prop :=
  match t with
  | .mesh => operation = chars "queueAnimation" →
      Gets (MeshComponent.queueArguments args) → (s.scene.mEntity component).isSome
  | .sound => operation = chars "loadSound" → Gets (SoundComponent.loadArguments args) →
      answers.finds → s.Movable answers
  | .camera => True
  | .physics => s.Bodied answers component operation args

/-- The condition on the state before a call: there is one more argument, a message, and
the component is there and loaded. -/
def ExecGuard (s : Stage) (call : Call) : Prop :=
  s.engine.Fresh call.answers.address → ∀ p o, s.Self call p o →
    ∃ v m, call.rest = [v] ∧ messageAt s.lua v = some m ∧
      (cString call.component = chars "self" ∧
          (∀ args, m = .ok args → s.Turns call.answers (cString call.operation) args) ∨
        ∃ t, Engine.componentOf (cString call.component) = some t ∧ o.mComponents t ≠ 0 ∧
          ∀ args, m = .ok args →
            s.Loaded call.answers t (o.mComponents t) (cString call.operation) args)

/-- The engine is well-formed, and only a loaded mesh has an animation. -/
structure Stage.Sound (s : Stage) : Prop where
  formed : s.engine.WellFormed
  animated : ∀ p, s.mCurrentAnimation p = true → (s.scene.mEntity p).isSome

/-- No pointer to nothing was followed. -/
def Harmless {α : Type} : Ending Halt Stage α → Prop
  | .stopped (.missing _) _ => False
  | _ => True

/-- A procedure that changes nothing here and follows no pointer to nothing. -/
def Quiet {α : Type} (p : StageProc α) : Prop :=
  ∀ s, (p.run s).state = s ∧ Harmless (p.run s)

section quiet

variable {α β : Type} {p : StageProc α} {f : α → StageProc β}

theorem quiet_pure (a : α) : Quiet (pure a : StageProc α) := fun _ => ⟨rfl, trivial⟩

theorem quiet_get : Quiet (get : StageProc Stage) := fun _ => ⟨rfl, trivial⟩

theorem Quiet.bind (first : Quiet p) (rest : ∀ a, Quiet (f a)) : Quiet (p >>= f) := by
  intro s
  obtain ⟨same, harmless⟩ := first s
  cases run : p.run s with
  | returned a t =>
      rw [run] at same
      obtain rfl : t = s := same
      rw [bind_of_returned run]
      exact rest a t
  | stopped reason t =>
      rw [run] at same harmless
      rw [bind_of_stopped run]
      cases reason <;> exact ⟨same, harmless⟩

theorem Quiet.discard (quiet : Quiet p) : Quiet (discard p) := by
  intro s
  obtain ⟨same, harmless⟩ := quiet s
  rw [discard_run]
  cases run : p.run s with
  | returned a t => exact ⟨by rwa [run] at same, trivial⟩
  | stopped reason t =>
      rw [run] at same harmless
      cases reason <;> exact ⟨same, harmless⟩

theorem quiet_require (c : Prop) [Decidable c] (reason : Stop) :
    Quiet (require c (.stop reason) : StageProc Unit) := by
  intro s
  by_cases holds : c
  · rw [require_pos holds]
    exact ⟨rfl, trivial⟩
  · rw [require_neg holds]
    exact ⟨rfl, trivial⟩

theorem quiet_reading (x : Eval α) : Quiet (reading x) := by
  intro s
  rcases x with (description | _) | a <;> exact ⟨rfl, trivial⟩

theorem reading_returned {x : Eval α} {s t : Stage} {a : α} :
    (reading x).run s = .returned a t ↔ x = .ok a ∧ t = s := by
  rw [reading, stopAs_run, ← ofEval_returned (s := s) (t := t)]
  cases (ofEval x : Proc Stop Stage α).run s <;> simp

theorem quiet_reads (x : Eval α) (answer : List Param) : Quiet (reads x answer) :=
  (quiet_reading x).bind fun _ => quiet_pure _

theorem quiet_onEngine {p : EngineProc α} (same : ∀ e, (p.run e).state = e) :
    Quiet (onEngine p) := by
  intro s
  have same := same s.scene.engine
  rw [onEngine, onScene, stopAs_run, within_run, Scene.onEngine, within_run]
  cases run : p.run s.scene.engine with
  | returned a e =>
      rw [run] at same
      obtain rfl : e = s.scene.engine := same
      exact ⟨rfl, trivial⟩
  | stopped reason e =>
      rw [run] at same
      obtain rfl : e = s.scene.engine := same
      exact ⟨rfl, trivial⟩

theorem pushTagged_state (tag : Int32) (entries : List (Name × Ptr)) (v : List Ptr)
    (r : Registry) : ((Registry.pushTagged tag entries v).run r).state = r := by
  induction entries generalizing v with
  | nil => rfl
  | cons entry rest ih =>
      obtain ⟨title, obj⟩ := entry
      have found := Engine.object_state r.engine obj
      unfold Registry.pushTagged
      cases run : (Engine.object obj).run r.engine with
      | returned o e =>
          rw [run] at found
          obtain rfl : e = r.engine := found
          have first : (Registry.onEngine (Engine.object obj)).run r = .returned o r := by
            rw [Registry.onEngine, within_run, run]
          rw [bind_of_returned first]
          exact ih _
      | stopped reason e =>
          rw [run] at found
          obtain rfl : e = r.engine := found
          have first : (Registry.onEngine (Engine.object obj)).run r = .stopped reason r := by
            rw [Registry.onEngine, within_run, run]
          rw [bind_of_stopped first]
          rfl

theorem quiet_findObjectsByTag (tag : Int32) : Quiet (findObjectsByTag tag) := by
  refine (quiet_onEngine fun e => ?_).bind fun _ => quiet_pure _
  have same := pushTagged_state tag e.mObjects.entries [] ⟨e, 0, fun _ => 0, []⟩
  rw [within_run, Registry.findObjectsByTag, bind_get_run]
  cases run : (Registry.pushTagged tag e.mObjects.entries []).run ⟨e, 0, fun _ => 0, []⟩ with
  | returned v r =>
      rw [run] at same
      rw [bind_of_returned run]
      exact congrArg Registry.engine same
  | stopped reason r =>
      rw [run] at same
      rw [bind_of_stopped run]
      exact congrArg Registry.engine same

theorem quiet_addAnimationKeyframe (o : GameObject) : Quiet (addAnimationKeyframe o) :=
  quiet_get.bind fun _ => quiet_require _ _

theorem setActiveCamera_state (cam : Ptr) (e : Engine) :
    ((Engine.setActiveCamera cam).run e).state = e := by
  unfold Engine.setActiveCamera
  split
  · rfl
  · refine bind_state (Engine.object_state e cam) fun o => ?_
    split
    · rfl
    · rw [bind_get_run]
      cases e.components (o.mComponents .camera) <;> rfl

theorem quiet_camera (owner : Ptr) (operation : List UInt8) (args : Message) :
    Quiet (CameraComponent.execute owner operation args) := by
  unfold CameraComponent.execute
  split
  · exact (quiet_reading _).discard
  split
  · exact (quiet_reading _).discard
  split
  · exact (quiet_reading _).discard
  split
  · exact (quiet_reading _).bind fun _ => (quiet_reading _).discard
  split
  · exact (quiet_reading _).discard
  split
  · exact (quiet_onEngine (setActiveCamera_state owner)).discard
  · exact quiet_pure _

end quiet

structure Stage.Keeps (s s' : Stage) : Prop where
  lua : s'.lua = s.lua
  stack : s'.stack = s.stack
  sound : s.Sound → s'.Sound

section keeping

variable {s s' t : Stage}

theorem Stage.Keeps.refl (s : Stage) : s.Keeps s := ⟨rfl, rfl, id⟩

theorem Stage.Keeps.trans (first : s.Keeps s') (second : s'.Keeps t) : s.Keeps t :=
  ⟨second.lua.trans first.lua, second.stack.trans first.stack, second.sound ∘ first.sound⟩

theorem Quiet.keeps {α : Type} {p : StageProc α} (quiet : Quiet p) (s : Stage) :
    s.Keeps (p.run s).state := by
  rw [(quiet s).1]
  exact .refl s

theorem Quiet.then {α β : Type} {p : StageProc α} {f : α → StageProc β} (quiet : Quiet p)
    {Q : Ending Halt Stage β → Prop} (stops : ∀ reason, Q (.stopped (.stop reason) s))
    (rest : ∀ a, p.run s = .returned a s → Q ((f a).run s)) : Q ((p >>= f).run s) := by
  obtain ⟨same, harmless⟩ := quiet s
  cases run : p.run s with
  | returned a t =>
      rw [run] at same
      obtain rfl : t = s := same
      rw [bind_of_returned run]
      exact rest a run
  | stopped reason t =>
      rw [run] at same harmless
      obtain rfl : t = s := same
      rw [bind_of_stopped run]
      cases reason with
      | stop reason => exact stops reason
      | missing what => exact harmless.elim

/-- Nothing was followed to nothing, and Lua, the stack and the invariant are kept. -/
def Tame {α : Type} (s : Stage) (e : Ending Halt Stage α) : Prop :=
  Harmless e ∧ s.Keeps e.state

theorem Quiet.tame {α : Type} {p : StageProc α} (quiet : Quiet p) (s : Stage) :
    Tame s (p.run s) := ⟨(quiet s).2, quiet.keeps s⟩

theorem Tame.bind {α β : Type} {p : StageProc α} {f : α → StageProc β} (first : Tame s (p.run s))
    (rest : ∀ a t, p.run s = .returned a t → Tame t ((f a).run t)) :
    Tame s ((p >>= f).run s) := by
  obtain ⟨harmless, keeps⟩ := first
  cases run : p.run s with
  | returned a t =>
      rw [run] at keeps
      obtain ⟨harmless, further⟩ := rest a t run
      rw [bind_of_returned run]
      exact ⟨harmless, keeps.trans further⟩
  | stopped reason t =>
      rw [run] at harmless keeps
      rw [bind_of_stopped run]
      cases reason <;> exact ⟨harmless, keeps⟩

theorem onScene_run {α : Type} (p : SceneProc α) (s : Stage) :
    (onScene p).run s = match p.run s.scene with
      | .returned a scene => .returned a (s.withScene scene)
      | .stopped reason scene => .stopped (.stop reason) (s.withScene scene) := by
  rw [onScene, stopAs_run, within_run]
  cases p.run s.scene <;> rfl

theorem object_run {self : Ptr} {o : GameObject} (live : s.engine.objects self = some o) :
    (onEngine (Engine.object self)).run s = .returned o s := by
  rw [onEngine, onScene_run, Scene.object_run live]
  rfl

def Stage.withComponent (s : Stage) (t : ComponentType) (answers : Answers) (owner : Ptr)
    (o : GameObject) : Stage :=
  { s with
    scene := s.scene.withComponent t answers.address owner o
    mCurrentAnimation := Function.update s.mCurrentAnimation answers.address false
    mBody := Function.update s.mBody answers.address false
    Cmass := Function.update s.Cmass answers.address answers.memory }

theorem Stage.Sound.withComponent (sound : s.Sound) {ct : ComponentType} {answers : Answers}
    {owner : Ptr} {o : GameObject} (fresh : s.engine.Fresh answers.address)
    (live : s.engine.objects owner = some o) : (s.withComponent ct answers owner o).Sound := by
  refine ⟨Engine.withComponent_wellFormed sound.formed fresh live, fun p playing => ?_⟩
  by_cases new : p = answers.address
  · simp [Stage.withComponent, new] at playing
  · have before : s.mCurrentAnimation p = true := by
      simpa [Stage.withComponent, new] using playing
    simpa [Stage.withComponent, Scene.withComponent, new] using sound.animated p before

theorem createComponent_taken {ct : ComponentType} {answers : Answers} {owner : Ptr}
    {o : GameObject} (live : s.engine.objects owner = some o) (camera : ct = .camera)
    (taken : o.mName ++ chars "_camera" ∈ s.engine.cameras) :
    (createComponent ct answers owner).run s = .stopped (.stop (.threw .ogre)) s := by
  have refused : (onScene (Scene.createComponent ct answers.address owner)).run s =
      .stopped (.stop (.threw .ogre)) s := by
    rw [onScene_run, Scene.createComponent_taken live camera taken]
    rfl
  exact bind_of_stopped refused _

theorem createComponent_free {ct : ComponentType} {answers : Answers} {owner : Ptr}
    {o : GameObject} (live : s.engine.objects owner = some o)
    (free : ct = .camera → o.mName ++ chars "_camera" ∉ s.engine.cameras) :
    (createComponent ct answers owner).run s =
      .returned () (s.withComponent ct answers owner o) := by
  have made : (onScene (Scene.createComponent ct answers.address owner)).run s =
      .returned answers.address
        (s.withScene (s.scene.withComponent ct answers.address owner o)) := by
    rw [onScene_run, Scene.createComponent_free live free]
  unfold createComponent
  rw [bind_of_returned made, modify_run]
  rfl

theorem createComponent_tame {ct : ComponentType} {answers : Answers} {owner : Ptr}
    {o : GameObject}
    (fresh : s.engine.Fresh answers.address) (live : s.engine.objects owner = some o) :
    Tame s ((createComponent ct answers owner).run s) := by
  by_cases taken : ct = .camera ∧ o.mName ++ chars "_camera" ∈ s.engine.cameras
  · rw [createComponent_taken live taken.1 taken.2]
    exact ⟨trivial, .refl s⟩
  · rw [createComponent_free live fun camera member => taken ⟨camera, member⟩]
    exact ⟨trivial, rfl, rfl, fun sound => sound.withComponent fresh live⟩

theorem onScene_tame {α : Type} (p : SceneProc α)
    (keeps : s.Sound → (s.withScene (p.run s.scene).state).Sound) :
    Tame s ((onScene p).run s) := by
  rw [onScene_run]
  cases run : p.run s.scene with
  | returned a scene =>
      rw [run] at keeps
      exact ⟨trivial, rfl, rfl, keeps⟩
  | stopped reason scene =>
      rw [run] at keeps
      exact ⟨trivial, rfl, rfl, keeps⟩

theorem createAnimation_tame {self : Ptr} {o : GameObject}
    (live : s.engine.objects self = some o) :
    Tame s ((onScene (Scene.createAnimation self)).run s) := by
  refine onScene_tame _ fun sound => ?_
  rw [Scene.createAnimation_run live]
  split
  · exact ⟨sound.formed, sound.animated⟩
  · split <;> exact ⟨sound.formed, sound.animated⟩

theorem run_ite {α : Type} {Q : Ending Halt Stage α → Prop} {c : Prop} [Decidable c]
    {p q : StageProc α} (yes : c → Q (p.run s)) (no : ¬ c → Q (q.run s)) :
    Q ((if c then p else q).run s) := by
  by_cases holds : c
  · rw [if_pos holds]
    exact yes holds
  · rw [if_neg holds]
    exact no holds

theorem Tame.ite {α : Type} {c : Prop} [Decidable c] {p q : StageProc α}
    (yes : Tame s (p.run s)) (no : Tame s (q.run s)) :
    Tame s ((if c then p else q).run s) := run_ite (fun _ => yes) fun _ => no

theorem createRequested_tame {answers : Answers} {owner : Ptr} {o : GameObject}
    (fresh : s.engine.Fresh answers.address) (live : s.engine.objects owner = some o)
    (compType : List UInt8) : Tame s ((createRequested answers owner compType).run s) := by
  unfold createRequested
  cases Engine.componentOf compType with
  | some ct => exact createComponent_tame fresh live
  | none => exact (quiet_pure _).tame s

theorem mBody_run {component : Ptr} (there : s.mBody component) :
    (mBody component).run s = .returned () s := by
  unfold mBody
  rw [bind_get_run, require_pos there]

theorem mBody_missing {component : Ptr} (empty : ¬ s.mBody component) :
    (mBody component).run s = .stopped (.missing .body) s := by
  unfold mBody
  rw [bind_get_run, require_neg empty]

theorem clock_moved (time old : Int32) : time - old ≠ 0 ↔ time ≠ old := by
  rw [ne_eq, ne_eq, Int32.sub_eq_iff_eq_add, Int32.zero_add]

theorem transformSlot_other (sound : s.Sound) {self : Ptr} {o : GameObject}
    (live : s.engine.objects self = some o) {t : ComponentType} (other : t ≠ .physics) :
    (transformSlot o t).run s = .returned () s := by
  unfold transformSlot
  by_cases filled : o.mComponents t ≠ 0
  · obtain ⟨c, held, rfl, -⟩ := sound.formed.slots self o t live filled
    rw [if_pos filled]
    unfold onTransform
    rw [bind_get_run, held, bind_some_run]
    cases type : c.type with
    | physics => exact absurd type other
    | _ => rfl
  · rw [if_neg filled]
    rfl

theorem transformSlot_physics (sound : s.Sound) {self : Ptr} {o : GameObject}
    (live : s.engine.objects self = some o) (filled : o.mComponents .physics ≠ 0) :
    (transformSlot o .physics).run s =
      (if (s.Cmass (o.mComponents .physics)).belowOne then mBody (o.mComponents .physics)
        else pure ()).run s := by
  obtain ⟨c, held, type, -⟩ := sound.formed.slots self o .physics live filled
  unfold transformSlot
  rw [if_pos filled]
  unfold onTransform
  rw [bind_get_run, held, bind_some_run, type]
  exact bind_get_run ..

/-- An update of a node goes to the physics component, if the clock has moved. -/
theorem nodeUpdated_run (sound : s.Sound) {self : Ptr} {o : GameObject}
    (live : s.engine.objects self = some o) (time : Int32) :
    (nodeUpdated time self o).run s =
      if time - s.mOldTime self ≠ 0 then
        (transformSlot o .physics >>= fun _ => modify fun s => s.withTime self time).run s
      else .returned () s := by
  have quiet : ∀ t, t ≠ .physics → (transformSlot o t).run s = .returned () s :=
    fun t other => transformSlot_other sound live other
  unfold nodeUpdated
  rw [bind_get_run]
  by_cases moved : time - s.mOldTime self ≠ 0
  · rw [if_pos moved, if_pos moved, bind_of_returned (quiet .mesh (by decide)),
      bind_of_returned (quiet .sound (by decide)), bind_of_returned (quiet .camera (by decide))]
  · rw [if_neg moved, if_neg moved, pure_run]

theorem nodeUpdated_moves (sound : s.Sound) {self : Ptr} {o : GameObject}
    (live : s.engine.objects self = some o) {time : Int32} (moves : s.Moves time self) :
    (nodeUpdated time self o).run s = .returned () (s.withTime self time) := by
  rw [nodeUpdated_run sound live]
  by_cases moved : time - s.mOldTime self ≠ 0
  · have told : (transformSlot o .physics).run s = .returned () s := by
      by_cases filled : o.mComponents .physics ≠ 0
      · rw [transformSlot_physics sound live filled]
        by_cases light : (s.Cmass (o.mComponents .physics)).belowOne
        · have there := moves o live ((clock_moved ..).mp moved) filled light
          rw [if_pos light, mBody_run there]
        · rw [if_neg light]
          rfl
      · unfold transformSlot
        rw [if_neg filled]
        rfl
    rw [if_pos moved, bind_of_returned told]
    rfl
  · rw [if_neg moved]
    have still : time = s.mOldTime self :=
      not_not.mp fun other => moved ((clock_moved ..).mpr other)
    rw [still, Stage.withTime, Function.update_eq_self]

theorem nodeUpdated_missing (sound : s.Sound) {self : Ptr} {o : GameObject}
    (live : s.engine.objects self = some o) {time : Int32} (stuck : ¬ s.Moves time self) :
    (nodeUpdated time self o).run s = .stopped (.missing .body) s := by
  simp only [Stage.Moves, Classical.not_forall] at stuck
  obtain ⟨o', live', moved, filled, light, empty⟩ := stuck
  obtain rfl := Option.some.inj (live.symm.trans live')
  have stops : (transformSlot o .physics).run s = .stopped (.missing .body) s := by
    rw [transformSlot_physics sound live filled, if_pos light, mBody_missing empty]
  rw [nodeUpdated_run sound live, if_pos ((clock_moved ..).mpr moved), bind_of_stopped stops]

theorem Stage.Sound.withTime (sound : s.Sound) (self : Ptr) (time : Int32) :
    (s.withTime self time).Sound := ⟨sound.formed, sound.animated⟩

theorem moves_withTime {time : Int32} {p : Ptr} (moves : s.Moves time p) (q : Ptr) :
    (s.withTime p time).Moves time q ↔ s.Moves time q := by
  by_cases same : q = p
  · subst same
    refine iff_of_true (fun o _ moved => absurd ?_ moved) moves
    exact (Function.update_self q time s.mOldTime).symm
  · simp [Stage.Moves, Stage.withTime, Stage.engine, Function.update_of_ne same]

theorem readDerived_tame (sound : s.Sound) {time : Int32} {stale : List Ptr}
    (moves : ∀ p ∈ stale, s.Moves time p) : Tame s ((readDerived time stale).run s) := by
  induction stale generalizing s with
  | nil => exact (quiet_pure _).tame s
  | cons p stale ih =>
      unfold readDerived
      rw [bind_get_run]
      have first := moves p List.mem_cons_self
      have later : ∀ q ∈ stale, s.Moves time q := fun q member =>
        moves q (List.mem_cons_of_mem p member)
      cases live : s.engine.objects p with
      | none => exact ih sound later
      | some o =>
          simp only
          rw [bind_of_returned (nodeUpdated_moves sound live first)]
          have rest := ih (sound.withTime p time) fun q member =>
            (moves_withTime first q).mpr (later q member)
          exact ⟨rest.1, rest.2.lua, rest.2.stack,
            fun sound => rest.2.sound (sound.withTime p time)⟩

theorem readDerived_missing (sound : s.Sound) {time : Int32} {stale : List Ptr}
    (stuck : ¬ ∀ p ∈ stale, s.Moves time p) :
    ∃ t, (readDerived time stale).run s = .stopped (.missing .body) t := by
  induction stale generalizing s with
  | nil => simp at stuck
  | cons p stale ih =>
      unfold readDerived
      rw [bind_get_run]
      cases live : s.engine.objects p with
      | none =>
          refine ih sound fun later => stuck fun q member => ?_
          rcases List.mem_cons.mp member with rfl | further
          · intro o live'
            simp [live] at live'
          · exact later q further
      | some o =>
          simp only
          by_cases first : s.Moves time p
          · rw [bind_of_returned (nodeUpdated_moves sound live first)]
            refine ih (sound.withTime p time) fun later => stuck fun q member => ?_
            rcases List.mem_cons.mp member with rfl | further
            · exact first
            · exact (moves_withTime first q).mp (later q further)
          · exact ⟨s, bind_of_stopped (nodeUpdated_missing sound live first) _⟩

theorem readDerivedIf_tame (sound : s.Sound) {c : Bool} {answers : Answers}
    (movable : c = true → s.Movable answers) : Tame s ((readDerivedIf c answers).run s) :=
  run_ite (fun wanted => readDerived_tame sound (movable wanted)) fun _ => (quiet_pure _).tame s

theorem readDerivedIf_missing (sound : s.Sound) {c : Bool} {answers : Answers} (wanted : c = true)
    (stuck : ¬ s.Movable answers) :
    ∃ t, (readDerivedIf c answers).run s = .stopped (.missing .body) t := by
  unfold readDerivedIf
  rw [if_pos wanted]
  exact readDerived_missing sound stuck

theorem turnsInWorld_tame {α : Type} (sound : s.Sound) {answers : Answers} {turns : Bool}
    {x : Eval α} (movable : Gets x → turns = true → s.Movable answers) :
    Tame s ((turnsInWorld answers turns x).run s) := by
  refine (quiet_reading _).then (fun _ => ⟨trivial, .refl s⟩) fun a read => ?_
  obtain ⟨gets, -⟩ := reading_returned.mp read
  exact (readDerivedIf_tame sound (movable ⟨a, gets⟩)).bind fun _ t _ => (quiet_pure _).tame t

theorem turnsInWorld_missing {α : Type} (sound : s.Sound) {answers : Answers} {turns : Bool}
    {x : Eval α} (gets : Gets x) (turned : turns = true) (stuck : ¬ s.Movable answers) :
    ∃ t, (turnsInWorld answers turns x).run s = .stopped (.missing .body) t := by
  obtain ⟨a, gets⟩ := gets
  obtain ⟨t, missing⟩ := readDerivedIf_missing sound turned stuck
  unfold turnsInWorld
  rw [bind_of_returned (reading_returned.mpr ⟨gets, rfl⟩), bind_of_stopped missing]
  exact ⟨t, rfl⟩

/-- Two operations of `GameObject::execute` change something here, two may read the derived
transform, and the others are quiet. -/
theorem execute_cases {answers : Answers} {self : Ptr} {o : GameObject} {operation : List UInt8}
    {args : Message} {Q : Ending Halt Stage (Eval Message) → Prop}
    (live : s.engine.objects self = some o)
    (component : operation = chars "createComponent" → Q ((do
      createRequested answers self (← reading (args.getString 0))
      pure (toLua []) : StageProc (Eval Message)).run s))
    (animation : Q ((do
      let _ ← reading (args.getFloat 0)
      onScene (Scene.createAnimation self)
      pure (toLua []) : StageProc (Eval Message)).run s))
    (lookAt : operation = chars "lookAt" →
      Q ((turnsInWorld answers true (floats args [0, 1, 2, 3, 4, 5])).run s))
    (rotateTowards : operation = chars "rotateTowards" →
      Q ((turnsInWorld answers answers.turns (floats args [0, 1, 2, 3])).run s))
    (quiet : ∀ p : StageProc (Eval Message), Quiet p → Q (p.run s)) :
    Q ((execute answers self operation args).run s) := by
  unfold execute
  rw [bind_of_returned (object_run live)]
  have answer : ∀ ps, Q ((pure (toLua ps) : StageProc (Eval Message)).run s) :=
    fun ps => quiet _ (quiet_pure _)
  have reads : ∀ indices, Q ((reads (floats args indices) []).run s) :=
    fun indices => quiet _ (quiet_reads _ _)
  refine run_ite (fun _ => reads _) fun _ => ?_
  refine run_ite component fun _ => ?_
  refine run_ite (fun _ => answer _) fun _ => ?_
  refine run_ite (fun _ => reads _) fun _ => ?_
  refine run_ite (fun _ => reads _) fun _ => ?_
  refine run_ite (fun _ => animation) fun _ => ?_
  refine run_ite (fun _ => quiet _ ((quiet_reading _).bind fun _ =>
    (quiet_addAnimationKeyframe o).bind fun _ => quiet_pure _)) fun _ => ?_
  refine run_ite (fun _ => quiet _ (quiet_pure _)) fun _ => ?_
  refine run_ite (fun _ => answer _) fun _ => ?_
  refine run_ite (fun _ => quiet _ ((quiet_reading _).bind fun _ =>
    quiet_get.bind fun _ => quiet_pure _)) fun _ => ?_
  refine run_ite (fun _ => quiet _ ((quiet_reading _).bind fun _ =>
    (quiet_findObjectsByTag _).bind fun _ => quiet_pure _)) fun _ => ?_
  refine run_ite lookAt fun _ => ?_
  refine run_ite (fun _ => reads _) fun _ => ?_
  refine run_ite (fun _ => reads _) fun _ => ?_
  refine run_ite (fun _ => reads _) fun _ => ?_
  exact run_ite rotateTowards fun _ => answer _

/-- `GameObject::execute` follows no pointer to nothing where the object can be turned. -/
theorem execute_tame (sound : s.Sound) {answers : Answers} {self : Ptr} {o : GameObject}
    (fresh : s.engine.Fresh answers.address) (live : s.engine.objects self = some o)
    {operation : List UInt8} {args : Message} (turns : s.Turns answers operation args) :
    Tame s ((execute answers self operation args).run s) := by
  refine execute_cases live (fun _ => ?_) ?_ (fun look => ?_) (fun rotate => ?_)
    fun p quiet => quiet.tame s
  · refine (quiet_reading _).then (fun _ => ⟨trivial, .refl s⟩) fun compType _ => ?_
    exact (createRequested_tame fresh live compType).bind fun _ t _ => (quiet_pure _).tame t
  · refine (quiet_reading _).then (fun _ => ⟨trivial, .refl s⟩) fun _ _ => ?_
    exact (createAnimation_tame live).bind fun _ t _ => (quiet_pure _).tame t
  · exact turnsInWorld_tame sound fun gets _ => turns.1 look gets
  · exact turnsInWorld_tame sound fun gets turned => turns.2 rotate gets turned

theorem execute_missing (sound : s.Sound) {answers : Answers} {self : Ptr} {o : GameObject}
    (live : s.engine.objects self = some o) {operation : List UInt8} {args : Message}
    (stuck : ¬ s.Turns answers operation args) :
    ∃ t, (execute answers self operation args).run s = .stopped (.missing .body) t := by
  have either : (operation = chars "lookAt" ∧ Gets (floats args [0, 1, 2, 3, 4, 5]) ∧
        ¬ s.Movable answers) ∨
      (operation = chars "rotateTowards" ∧ Gets (floats args [0, 1, 2, 3]) ∧
        answers.turns = true ∧ ¬ s.Movable answers) := by
    by_contra neither
    simp only [not_or, not_and, not_not] at neither
    exact stuck ⟨neither.1, neither.2⟩
  unfold execute
  rw [bind_of_returned (object_run live)]
  rcases either with ⟨rfl, gets, stuck⟩ | ⟨rfl, gets, turned, stuck⟩
  · iterate 11 rw [if_neg (by decide)]
    rw [if_pos rfl]
    exact turnsInWorld_missing sound gets rfl stuck
  · iterate 15 rw [if_neg (by decide)]
    rw [if_pos rfl]
    exact turnsInWorld_missing sound gets turned stuck

def Stage.withAnimation (s : Stage) (component : Ptr) : Stage :=
  { s with mCurrentAnimation := Function.update s.mCurrentAnimation component true }

theorem Stage.Sound.withAnimation (sound : s.Sound) {component : Ptr}
    (loaded : (s.scene.mEntity component).isSome) : (s.withAnimation component).Sound := by
  refine ⟨sound.formed, fun p playing => ?_⟩
  by_cases same : p = component
  · exact same ▸ loaded
  · exact sound.animated p (by simpa [Stage.withAnimation, same] using playing)

theorem mEntity_run {component : Ptr} (loaded : (s.scene.mEntity component).isSome) :
    (MeshComponent.mEntity component).run s = .returned () s := by
  unfold MeshComponent.mEntity
  rw [bind_get_run, require_pos loaded]

theorem mEntity_missing {component : Ptr} (unloaded : ¬ (s.scene.mEntity component).isSome) :
    (MeshComponent.mEntity component).run s = .stopped (.missing .entity) s := by
  unfold MeshComponent.mEntity
  rw [bind_get_run, require_neg unloaded]

theorem queueAnimation_tame {component : Ptr} (loaded : (s.scene.mEntity component).isSome)
    (finds : Bool) (transitionTime : Binary32) :
    Tame s ((MeshComponent.queueAnimation finds component transitionTime).run s) := by
  unfold MeshComponent.queueAnimation
  rw [bind_get_run]
  refine .ite ?_ (.ite ?_ ((quiet_pure _).tame s))
  · rw [bind_of_returned (mEntity_run loaded)]
    refine (quiet_require _ _).then (fun _ => ⟨trivial, .refl s⟩) fun _ _ => ?_
    exact ⟨trivial, rfl, rfl, fun sound => sound.withAnimation loaded⟩
  · rw [bind_of_returned (mEntity_run loaded)]
    exact (quiet_require _ _).tame s

theorem queueAnimation_missing (sound : s.Sound) {component : Ptr}
    (unloaded : ¬ (s.scene.mEntity component).isSome) (finds : Bool) (transitionTime : Binary32) :
    (MeshComponent.queueAnimation finds component transitionTime).run s =
      .stopped (.missing .entity) s := by
  have still : s.mCurrentAnimation component = false := by
    cases playing : s.mCurrentAnimation component with
    | false => rfl
    | true => exact absurd (sound.animated component playing) unloaded
  unfold MeshComponent.queueAnimation
  rw [bind_get_run, if_pos still, bind_of_stopped (mEntity_missing unloaded)]

theorem loadMesh_tame {component : Ptr} {c : Component} {o : GameObject}
    (held : s.engine.components component = some c) (mesh : c.type = .mesh)
    (live : s.engine.objects c.mOwner = some o) (finds : Bool) :
    Tame s ((MeshComponent.loadMesh finds component).run s) := by
  unfold MeshComponent.loadMesh
  refine (quiet_require _ _).then (fun _ => ⟨trivial, .refl s⟩) fun _ _ => ?_
  have loads : Tame s ((onScene (Scene.loadMesh component)).run s) := by
    refine onScene_tame _ fun sound => ?_
    rw [Scene.loadMesh_run held mesh live]
    split
    · exact ⟨sound.formed, sound.animated⟩
    · refine ⟨sound.formed, fun p playing => ?_⟩
      by_cases same : p = component
      · simp [Ending.state, Stage.withScene, Scene.withEntity, same]
      · simpa [Ending.state, Stage.withScene, Scene.withEntity, same] using
          sound.animated p playing
  exact loads.bind fun _ t _ => (quiet_pure _).tame t

theorem Stage.Sound.withMass (sound : s.Sound) (component : Ptr) (mass : Binary32) :
    (s.withMass component mass).Sound := ⟨sound.formed, sound.animated⟩

theorem load_tame (sound : s.Sound) {answers : Answers} {component : Ptr} {mass : Binary32}
    (movable : (s.withMass component mass).Movable answers) :
    Tame s ((PhysicsComponent.load answers component mass).run s) := by
  have weighs : Tame s ((modify fun s => s.withMass component mass : StageProc Unit).run s) :=
    ⟨trivial, rfl, rfl, fun sound => sound.withMass component mass⟩
  unfold PhysicsComponent.load
  refine weighs.bind fun _ t returned => ?_
  obtain ⟨-, rfl⟩ := Ending.returned.inj returned
  refine (readDerived_tame (sound.withMass component mass) movable).bind fun _ t _ => ?_
  exact ⟨trivial, rfl, rfl, fun sound => ⟨sound.formed, sound.animated⟩⟩

theorem load_missing (sound : s.Sound) {answers : Answers} {component : Ptr} {mass : Binary32}
    (stuck : ¬ (s.withMass component mass).Movable answers) :
    ∃ t, (PhysicsComponent.load answers component mass).run s = .stopped (.missing .body) t := by
  obtain ⟨t, missing⟩ := readDerived_missing (sound.withMass component mass) stuck
  unfold PhysicsComponent.load
  rw [bind_of_returned (modify_run _ s), bind_of_stopped missing]
  exact ⟨t, rfl⟩

section operation

variable {answers : Answers} {component : Ptr} {c : Component} {o : GameObject}
  {operation : List UInt8} {args : Message}

theorem mesh_tame (held : s.engine.components component = some c) (mesh : c.type = .mesh)
    (live : s.engine.objects c.mOwner = some o)
    (loaded : s.Loaded answers .mesh component operation args) (finds : Bool) :
    Tame s ((MeshComponent.execute finds component operation args).run s) := by
  unfold MeshComponent.execute
  by_cases queue : operation = chars "queueAnimation"
  · rw [if_neg (by rw [queue]; decide), if_pos queue]
    refine (quiet_reading _).then (fun _ => ⟨trivial, .refl s⟩) fun transitionTime read => ?_
    obtain ⟨reads, -⟩ := reading_returned.mp read
    exact queueAnimation_tame (loaded queue ⟨transitionTime, reads⟩) finds transitionTime
  · rw [if_neg queue]
    refine .ite ?_ ((quiet_pure _).tame s)
    refine (quiet_reading _).then (fun _ => ⟨trivial, .refl s⟩) fun _ _ => ?_
    exact loadMesh_tame held mesh live finds

theorem mesh_missing (sound : s.Sound)
    (unloaded : ¬ s.Loaded answers .mesh component operation args) (finds : Bool) :
    (MeshComponent.execute finds component operation args).run s =
      .stopped (.missing .entity) s := by
  simp only [Stage.Loaded, Classical.not_imp] at unloaded
  obtain ⟨queue, ⟨transitionTime, reads⟩, empty⟩ := unloaded
  unfold MeshComponent.execute
  rw [if_neg (by rw [queue]; decide), if_pos queue,
    bind_of_returned (reading_returned.mpr ⟨reads, rfl⟩)]
  exact queueAnimation_missing sound empty finds transitionTime

theorem sound_tame (sound : s.Sound)
    (loaded : s.Loaded answers .sound component operation args) :
    Tame s ((SoundComponent.execute answers operation args).run s) := by
  unfold SoundComponent.execute
  refine run_ite (fun load => ?_) fun _ => (quiet_pure _).tame s
  refine (quiet_reading _).then (fun _ => ⟨trivial, .refl s⟩) fun a read => ?_
  obtain ⟨gets, -⟩ := reading_returned.mp read
  exact readDerivedIf_tame sound (loaded load ⟨a, gets⟩)

theorem sound_missing (sound : s.Sound)
    (unloaded : ¬ s.Loaded answers .sound component operation args) :
    ∃ t, (SoundComponent.execute answers operation args).run s =
      .stopped (.missing .body) t := by
  simp only [Stage.Loaded, Classical.not_imp] at unloaded
  obtain ⟨load, ⟨a, gets⟩, found, stuck⟩ := unloaded
  unfold SoundComponent.execute
  rw [if_pos load, bind_of_returned (reading_returned.mpr ⟨gets, rfl⟩)]
  exact readDerivedIf_missing sound found stuck

theorem push_tame (there : Gets (floats args [0, 1, 2]) → s.mBody component) :
    Tame s ((PhysicsComponent.push component args).run s) := by
  refine (quiet_reading _).then (fun _ => ⟨trivial, .refl s⟩) fun v read => ?_
  obtain ⟨reads, -⟩ := reading_returned.mp read
  rw [mBody_run (there ⟨v, reads⟩)]
  exact ⟨trivial, .refl s⟩

theorem push_missing (gets : Gets (floats args [0, 1, 2])) (empty : ¬ s.mBody component) :
    (PhysicsComponent.push component args).run s = .stopped (.missing .body) s := by
  obtain ⟨v, reads⟩ := gets
  unfold PhysicsComponent.push
  rw [bind_of_returned (reading_returned.mpr ⟨reads, rfl⟩), mBody_missing empty]

theorem physics_tame (sound : s.Sound) (bodied : s.Bodied answers component operation args) :
    Tame s ((PhysicsComponent.execute answers component operation args).run s) := by
  have loads : ∀ x : Eval Binary32,
      (∀ mass, x = .ok mass → (s.withMass component mass).Movable answers) →
      Tame s ((reading x >>= PhysicsComponent.load answers component).run s) :=
    fun x movable => (quiet_reading _).then (fun _ => ⟨trivial, .refl s⟩) fun mass read =>
      load_tame sound (movable mass (reading_returned.mp read).1)
  unfold PhysicsComponent.execute
  refine run_ite (fun force => push_tame (bodied.1 (.inl force))) fun _ => ?_
  refine run_ite (fun torque => push_tame (bodied.1 (.inr torque))) fun _ => ?_
  refine run_ite (fun box => loads _ (bodied.2.1 box)) fun _ => ?_
  exact run_ite (fun sphere => loads _ (bodied.2.2 sphere)) fun _ => (quiet_pure _).tame s

theorem physics_missing (sound : s.Sound)
    (unbodied : ¬ s.Bodied answers component operation args) :
    ∃ t, (PhysicsComponent.execute answers component operation args).run s =
      .stopped (.missing .body) t := by
  have loads : ∀ x : Eval Binary32,
      (¬ ∀ mass, x = .ok mass → (s.withMass component mass).Movable answers) →
      ∃ t, (reading x >>= PhysicsComponent.load answers component).run s =
        .stopped (.missing .body) t := by
    intro x stuck
    simp only [Classical.not_forall] at stuck
    obtain ⟨mass, gets, stuck⟩ := stuck
    rw [bind_of_returned (reading_returned.mpr ⟨gets, rfl⟩)]
    exact load_missing sound stuck
  unfold PhysicsComponent.execute
  by_cases push : operation = chars "addForce" ∨ operation = chars "addTorque" →
      Gets (floats args [0, 1, 2]) → s.mBody component
  · by_cases box : operation = chars "loadBox"
    · subst box
      rw [if_neg (by decide), if_neg (by decide), if_pos rfl]
      exact loads _ fun movable => unbodied
        ⟨push, fun _ => movable, fun sphere => absurd sphere (by decide)⟩
    · by_cases sphere : operation = chars "loadSphere"
      · subst sphere
        rw [if_neg (by decide), if_neg (by decide), if_neg (by decide), if_pos rfl]
        exact loads _ fun movable => unbodied ⟨push, fun same => absurd same box, fun _ => movable⟩
      · exact absurd ⟨push, fun same => absurd same box, fun same => absurd same sphere⟩ unbodied
  · simp only [Classical.not_imp] at push
    obtain ⟨force | torque, gets, empty⟩ := push
    · rw [if_pos force]
      exact ⟨s, push_missing gets empty⟩
    · rw [if_neg (by rw [torque]; decide), if_pos torque]
      exact ⟨s, push_missing gets empty⟩

theorem executeOf_tame (sound : s.Sound) (held : s.engine.components component = some c)
    (live : s.engine.objects c.mOwner = some o)
    (loaded : s.Loaded answers c.type component operation args) :
    Tame s ((executeOf answers component c operation args).run s) := by
  unfold executeOf
  cases type : c.type with
  | mesh => exact mesh_tame held type live (type ▸ loaded) answers.finds
  | sound =>
      rw [type] at loaded
      exact sound_tame sound loaded
  | camera => exact (quiet_camera c.mOwner operation args).tame s
  | physics => exact physics_tame sound (by rwa [type] at loaded)

theorem executeComponent_tame (sound : s.Sound) (held : s.engine.components component = some c)
    (live : s.engine.objects c.mOwner = some o)
    (loaded : s.Loaded answers c.type component operation args) :
    Tame s ((executeComponent answers component operation args).run s) := by
  unfold executeComponent
  rw [bind_get_run, held, bind_some_run]
  exact (executeOf_tame sound held live loaded).bind fun _ t _ => (quiet_pure _).tame t

theorem executeOf_missing (sound : s.Sound)
    (unloaded : ¬ s.Loaded answers c.type component operation args) :
    ∃ what t, (executeOf answers component c operation args).run s =
      .stopped (.missing what) t := by
  unfold executeOf
  cases type : c.type with
  | mesh => exact ⟨_, _, mesh_missing sound (type ▸ unloaded) answers.finds⟩
  | sound =>
      rw [type] at unloaded
      exact ⟨_, sound_missing sound unloaded⟩
  | camera =>
      rw [type] at unloaded
      exact absurd trivial unloaded
  | physics => exact ⟨_, physics_missing sound (by rwa [type] at unloaded)⟩

theorem executeComponent_missing (sound : s.Sound)
    (held : s.engine.components component = some c)
    (unloaded : ¬ s.Loaded answers c.type component operation args) :
    ∃ what t, (executeComponent answers component operation args).run s =
      .stopped (.missing what) t := by
  obtain ⟨what, t, missing⟩ := executeOf_missing sound unloaded
  unfold executeComponent
  rw [bind_get_run, held, bind_some_run, bind_of_stopped missing]
  exact ⟨what, t, rfl⟩

end operation

end keeping

section dispatch

variable {s t : Stage} {answers : Answers} {self : Ptr} {o : GameObject}
  {component operation : List UInt8} {m : Eval Message} {args : Message}

structure Stage.Pushed (s t : Stage) : Prop where
  stack : t.stack = .userdata s.lua.userdata.length :: s.stack
  message : ∃ m, messageAt t.lua (.userdata s.lua.userdata.length) = some m
  sound : s.Sound → t.Sound

theorem pushMessage_pushed (s : Stage) (m : Eval Message) :
    ∃ t, (onFrame (pushMessage m)).run s = .returned () t ∧ s.Pushed t := by
  have run := pushMessage_run s.frame.world s.stack m
  refine ⟨s.withFrame ⟨s.frame.world.withMessage m, .userdata s.lua.userdata.length :: s.stack⟩,
    ?_, rfl, ⟨m >>= Message.luaPushMessage, ?_⟩, fun sound => ⟨sound.formed, sound.animated⟩⟩
  · rw [onFrame, stopAs_run, within_run, show s.frame = ⟨s.frame.world, s.stack⟩ from rfl, run]
    rfl
  · have payload := payload_newUserdata s.lua (.message (m >>= Message.luaPushMessage))
      (s.lua.registry (chars "ssuge.Message")) s.lua.userdata.length
    rw [if_pos rfl] at payload
    simp only [messageAt, Stage.withFrame, World.withMessage, World.withLua, Stage.frame, payload]

def Told (s : Stage) : Ending Halt Stage Unit → Prop
  | .returned _ t => s.Pushed t
  | .stopped (.stop _) t => s.Sound → t.Sound
  | .stopped (.missing _) _ => False

theorem Tame.told {p : StageProc (Eval Message)} (tame : Tame s (p.run s)) :
    Told s ((p >>= fun m => onFrame (pushMessage m)).run s) := by
  obtain ⟨harmless, keeps⟩ := tame
  cases run : p.run s with
  | returned m t =>
      rw [run] at keeps
      obtain ⟨t', pushed, stack, message, sound⟩ := pushMessage_pushed t m
      rw [bind_of_returned run, pushed]
      have lua : t.lua = s.lua := keeps.lua
      rw [lua] at stack message
      exact ⟨stack.trans (congrArg _ keeps.stack), message, sound ∘ keeps.sound⟩
  | stopped reason t =>
      rw [run] at harmless keeps
      rw [bind_of_stopped run]
      cases reason with
      | stop reason => exact keeps.sound
      | missing what => exact harmless.elim

def Stage.Given (s : Stage) (m : Eval Message) : Prop :=
  s.stack.length = 4 ∧ s.stack.head?.bind (messageAt s.lua) = some m

theorem data_given (given : s.Given m) : data.run s = (reading m).run s := by
  unfold data
  rw [bind_get_run, if_pos given.1, given.2, bind_some_run]

theorem data_missing (none : ∀ m, ¬ s.Given m) :
    data.run s = .stopped (.missing .message) s := by
  unfold data
  rw [bind_get_run]
  by_cases four : s.stack.length = 4
  · cases found : s.stack.head?.bind (messageAt s.lua) with
    | none => rw [if_pos four, bind_none_run]
    | some m => exact absurd ⟨four, found⟩ (none m)
  · rw [if_neg four, bind_none_run]

def Stage.Serves (s : Stage) (o : GameObject) (component operation : List UInt8)
    (answers : Answers) (m : Eval Message) : Prop :=
  component = chars "self" ∧ (∀ args, m = .ok args → s.Turns answers operation args) ∨
    ∃ t, Engine.componentOf component = some t ∧ o.mComponents t ≠ 0 ∧
      ∀ args, m = .ok args → s.Loaded answers t (o.mComponents t) operation args

theorem data_cases (given : s.Given m) :
    (∃ args, m = .ok args ∧ data.run s = .returned args s) ∨
      ∃ reason, data.run s = .stopped (.stop reason) s := by
  rw [data_given given]
  rcases m with (description | _) | args
  · exact .inr ⟨_, rfl⟩
  · exact .inr ⟨_, rfl⟩
  · exact .inl ⟨args, rfl, rfl⟩

theorem mComponents_run (live : s.engine.objects self = some o) {t : ComponentType}
    (filled : o.mComponents t ≠ 0) :
    (mComponents self t).run s = .returned (o.mComponents t) s := by
  unfold mComponents
  rw [bind_of_returned (object_run live), bind_of_returned (require_pos filled _ _), pure_run]

theorem mComponents_missing (live : s.engine.objects self = some o) {t : ComponentType}
    (empty : o.mComponents t = 0) :
    (mComponents self t).run s = .stopped (.missing .component) s := by
  unfold mComponents
  rw [bind_of_returned (object_run live), bind_of_stopped (require_neg (not_not.mpr empty) _ _)]

theorem dispatch_told (sound : s.Sound) (fresh : s.engine.Fresh answers.address)
    (live : s.engine.objects self = some o) (given : s.Given m)
    (serves : s.Serves o component operation answers m) :
    Told s ((dispatch answers self component operation).run s) := by
  unfold dispatch
  by_cases own : component = chars "self"
  · have turns : ∀ args, m = .ok args → s.Turns answers operation args := by
      rcases serves with ⟨-, turns⟩ | ⟨t, named, -⟩
      · exact turns
      · rw [own, show Engine.componentOf (chars "self") = none by decide] at named
        cases named
    rw [if_pos own]
    rcases data_cases given with ⟨args, read, run⟩ | ⟨reason, ends⟩
    · rw [bind_of_returned run]
      exact (execute_tame sound fresh live (turns args read)).told
    · rw [bind_of_stopped ends]
      exact id
  · obtain ⟨t, named, filled, loaded⟩ := serves.resolve_left fun served => own served.1
    obtain ⟨c, held, type, owner⟩ := sound.formed.slots self o t live filled
    rw [if_neg own, named, bind_of_returned (mComponents_run live filled)]
    rcases data_cases given with ⟨args, read, run⟩ | ⟨reason, ends⟩
    · rw [bind_of_returned run]
      have able : s.Loaded answers c.type (o.mComponents t) operation args :=
        type ▸ loaded args read
      exact (executeComponent_tame sound held (owner ▸ live) able).told
    · rw [bind_of_stopped ends]
      exact id

def Refused (s : Stage) (e : Ending Halt Stage Unit) : Prop :=
  (∃ what t, e = .stopped (.missing what) t) ∨ e = .returned () s

theorem dispatch_refused (sound : s.Sound) (live : s.engine.objects self = some o)
    (unserved : ∀ m, s.Given m → ¬ s.Serves o component operation answers m) :
    Refused s ((dispatch answers self component operation).run s) := by
  unfold dispatch
  by_cases own : component = chars "self"
  · rw [if_pos own]
    by_cases given : ∃ m, s.Given m
    · obtain ⟨m, given⟩ := given
      obtain ⟨args, rfl, stuck⟩ : ∃ args, m = .ok args ∧ ¬ s.Turns answers operation args := by
        by_contra none
        push Not at none
        exact unserved m given (.inl ⟨own, none⟩)
      obtain ⟨t, missing⟩ := execute_missing sound live stuck
      rw [bind_of_returned (data_given given), bind_of_stopped missing]
      exact .inl ⟨_, _, rfl⟩
    · rw [bind_of_stopped (data_missing (not_exists.mp given))]
      exact .inl ⟨_, _, rfl⟩
  rw [if_neg own]
  cases named : Engine.componentOf component with
  | none => exact .inr rfl
  | some t =>
      by_cases empty : o.mComponents t = 0
      · rw [bind_of_stopped (mComponents_missing live empty)]
        exact .inl ⟨_, _, rfl⟩
      rw [bind_of_returned (mComponents_run live empty)]
      by_cases given : ∃ m, s.Given m
      · obtain ⟨m, given⟩ := given
        obtain ⟨args, rfl, unloaded⟩ : ∃ args, m = .ok args ∧
            ¬ s.Loaded answers t (o.mComponents t) operation args := by
          by_contra none
          push Not at none
          exact unserved m given (.inr ⟨t, named, empty, none⟩)
        obtain ⟨c, held, type, -⟩ := sound.formed.slots self o t live empty
        have unable : ¬ s.Loaded answers c.type (o.mComponents t) operation args := by rwa [type]
        obtain ⟨what, t, missing⟩ := executeComponent_missing sound held unable
        rw [bind_of_returned (data_given given), bind_of_stopped missing]
        exact .inl ⟨_, _, rfl⟩
      · rw [bind_of_stopped (data_missing (not_exists.mp given))]
        exact .inl ⟨_, _, rfl⟩

theorem data_state (s : Stage) : (data.run s).state = s := by
  by_cases given : ∃ m, s.Given m
  · obtain ⟨m, given⟩ := given
    rw [data_given given]
    exact (quiet_reading m s).1
  · rw [data_missing (not_exists.mp given)]
    rfl

theorem dispatch_dead (dead : s.engine.objects self = none) :
    ((dispatch answers self component operation).run s).state = s := by
  have gone : (onEngine (Engine.object self)).run s = .stopped (.stop .undefined) s := by
    rw [onEngine, onScene_run, Scene.object_dead dead]
    rfl
  unfold dispatch
  by_cases own : component = chars "self"
  · rw [if_pos own]
    refine bind_state (data_state s) fun args => ?_
    unfold execute
    rw [bind_of_stopped (bind_of_stopped gone _)]
    rfl
  · rw [if_neg own]
    cases Engine.componentOf component with
    | none => rfl
    | some t =>
        unfold mComponents
        rw [bind_of_stopped (bind_of_stopped gone _)]
        rfl

end dispatch

section calls

variable {host : Host} {s s' : Stage} {call : Call} {p : Ptr} {o : GameObject}

theorem fromBottom_called (call : Call) (s : Stage) {n : Nat} {v : Value}
    (found : call.arguments[n - 1]? = some v) :
    (Frame.fromBottom n).run (s.called call).frame = .returned v (s.called call).frame := by
  have reversed : (s.called call).stack.reverse[n - 1]? = some v := by
    rw [Stage.called, List.reverse_reverse, found]
  rw [Frame.fromBottom, bind_get_run]
  exact congrArg (fun x => (orStop x Stop.undefined : LuaProc Value).run (s.called call).frame)
    reversed

theorem onFrame_returned {α : Type} {q : LuaProc α} {a : α} {s : Stage}
    (run : q.run s.frame = .returned a s.frame) : (onFrame q).run s = .returned a s := by
  rw [onFrame, stopAs_run, within_run, run]
  rfl

theorem gameObjectAt_run (self : s.frame.world.mPtr call.self = some p) :
    (onFrame (gameObjectAt 1)).run (s.called call) = .returned p (s.called call) := by
  refine onFrame_returned ?_
  unfold gameObjectAt
  rw [bind_of_returned (fromBottom_called call s rfl), bind_get_run]
  exact congrArg (fun x => (orStop x Stop.undefined : LuaProc Ptr).run (s.called call).frame) self

theorem tostring_run {n : Nat} {text : List UInt8}
    (found : call.arguments[n - 1]? = some (.string text)) :
    (onFrame (tostring host n)).run (s.called call) =
      .returned (cString text) (s.called call) := by
  refine onFrame_returned ?_
  unfold tostring
  rw [bind_of_returned (fromBottom_called call s found)]
  rfl

theorem exec_run (self : s.frame.world.mPtr call.self = some p) :
    (exec host call.answers).run (s.called call) =
      (dispatch call.answers p (cString call.component) (cString call.operation) >>=
        fun _ => onFrame returnTop).run (s.called call) := by
  have enough : 3 ≤ (s.called call).stack.length := by simp [Stage.called, Call.arguments]
  unfold exec
  rw [bind_get_run, bind_of_returned (require_pos enough _ _),
    bind_of_returned (gameObjectAt_run self), bind_of_returned (tostring_run rfl),
    bind_of_returned (tostring_run rfl)]

theorem returnTop_run (s : Stage) :
    (onFrame returnTop).run s = .returned s.stack.head? s := onFrame_returned rfl

theorem answered_of_told (self : s.frame.world.mPtr call.self = some p)
    (told : Told (s.called call) ((dispatch call.answers p (cString call.component)
      (cString call.operation)).run (s.called call))) :
    Answered (s.called call) ((exec host call.answers).run (s.called call)) := by
  rw [exec_run self]
  cases run : (dispatch call.answers p (cString call.component)
      (cString call.operation)).run (s.called call) with
  | returned _ t =>
      rw [run] at told
      obtain ⟨stack, message, -⟩ := told
      rw [bind_of_returned run, returnTop_run]
      exact ⟨by rw [stack]; rfl, stack, message⟩
  | stopped reason t =>
      rw [run] at told
      rw [bind_of_stopped run]
      cases reason with
      | stop reason => trivial
      | missing what => exact told

theorem not_answered_of_refused (self : s.frame.world.mPtr call.self = some p)
    (refused : Refused (s.called call) ((dispatch call.answers p (cString call.component)
      (cString call.operation)).run (s.called call))) :
    ¬ Answered (s.called call) ((exec host call.answers).run (s.called call)) := by
  rw [exec_run self]
  rcases refused with ⟨what, t, run⟩ | run
  · rw [bind_of_stopped run]
    exact id
  · rw [bind_of_returned run, returnTop_run]
    rintro ⟨-, stack, -⟩
    exact absurd (congrArg List.length stack) (by simp)

theorem given_called_iff (m : Eval Message) :
    (s.called call).Given m ↔ ∃ v, call.rest = [v] ∧ messageAt s.lua v = some m := by
  unfold Stage.Given Stage.called Call.arguments
  constructor
  · rintro ⟨four, found⟩
    obtain ⟨v, rest⟩ : ∃ v, call.rest = [v] :=
      List.length_eq_one_iff.mp (by simpa using four)
    refine ⟨v, rest, ?_⟩
    simpa [rest] using found
  · rintro ⟨v, rest, found⟩
    simp [rest, found]

theorem safeCall_iff (host : Host) (sound : s.Sound) (call : Call) :
    SafeCall host s call ↔ ExecGuard s call := by
  have inCall : (s.called call).Sound := ⟨sound.formed, sound.animated⟩
  constructor
  · intro safe fresh p o self
    by_contra unserved
    refine not_answered_of_refused self.1 (dispatch_refused inCall self.2 fun m given serves => ?_)
      (safe fresh ⟨p, o, self⟩)
    obtain ⟨v, rest, message⟩ := (given_called_iff m).mp given
    exact unserved ⟨v, m, rest, message, serves⟩
  · rintro guard fresh ⟨p, o, self⟩
    obtain ⟨v, m, rest, message, serves⟩ := guard fresh p o self
    exact answered_of_told self.1 (dispatch_told inCall fresh self.2
      ((given_called_iff m).mpr ⟨v, rest, message⟩) serves)

theorem gameObjectAt_undefined (self : s.frame.world.mPtr call.self = none) :
    (onFrame (gameObjectAt 1)).run (s.called call) =
      .stopped (.stop .undefined) (s.called call) := by
  have undefined : (gameObjectAt 1).run (s.called call).frame =
      .stopped .undefined (s.called call).frame := by
    unfold gameObjectAt
    rw [bind_of_returned (fromBottom_called call s rfl), bind_get_run]
    exact congrArg (fun x => (orStop x Stop.undefined : LuaProc Ptr).run (s.called call).frame)
      self
  rw [onFrame, stopAs_run, within_run, undefined]
  rfl

theorem exec_state (self : s.frame.world.mPtr call.self = some p) :
    ((exec host call.answers).run (s.called call)).state =
      ((dispatch call.answers p (cString call.component) (cString call.operation)).run
        (s.called call)).state := by
  rw [exec_run self]
  cases run : (dispatch call.answers p (cString call.component)
      (cString call.operation)).run (s.called call) with
  | returned _ t =>
      rw [bind_of_returned run, returnTop_run]
      rfl
  | stopped reason t =>
      rw [bind_of_stopped run]
      rfl

theorem Told.sound {e : Ending Halt Stage Unit} (told : Told s e) (sound : s.Sound) :
    e.state.Sound := by
  match e, told with
  | .returned _ t, pushed => exact Stage.Pushed.sound pushed sound
  | .stopped (.stop _) t, kept => exact kept sound

theorem execStep_sound (sound : s.Sound) (guard : ExecGuard s call)
    (stepped : execStep host s call = some s') : s'.Sound := by
  have inCall : (s.called call).Sound := ⟨sound.formed, sound.animated⟩
  rw [execStep] at stepped
  split at stepped
  next fresh =>
    cases self : s.frame.world.mPtr call.self with
    | none =>
        have enough : 3 ≤ (s.called call).stack.length := by simp [Stage.called, Call.arguments]
        unfold exec at stepped
        rw [bind_get_run, bind_of_returned (require_pos enough _ _),
          bind_of_stopped (gameObjectAt_undefined self)] at stepped
        simp [Ending.resumes, Halt.caught, Stop.caught] at stepped
    | some p =>
        rw [← resumes_state stepped, exec_state self]
        cases live : s.engine.objects p with
        | none =>
            have gone : (s.called call).engine.objects p = none := live
            rw [dispatch_dead gone]
            exact inCall
        | some o =>
            obtain ⟨v, m, rest, message, serves⟩ := guard fresh p o ⟨self, live⟩
            exact (dispatch_told inCall fresh live
              ((given_called_iff m).mpr ⟨v, rest, message⟩) serves).sound inCall
  · simp at stepped

end calls

/-- From any sound stage, whatever is attached and loaded: every call of a run is answered
without following a pointer to nothing, exactly when each has its message and finds its
component loaded. -/
theorem exec_safe_iff (host : Host) {s : Stage} (sound : s.Sound) (calls : List Call) :
    Along (execStep host) (SafeCall host) s calls ↔ Along (execStep host) ExecGuard s calls :=
  along_iff (I := Stage.Sound) (L := fun _ => True)
    (fun _ call sound _ => safeCall_iff host sound call)
    (fun _ _ _ sound _ guard stepped => execStep_sound sound guard stepped) sound
    fun _ _ => trivial

def annStage : Stage where
  scene := { Scene.start ⟨fun _ => [], by simp⟩ with
    engine := (Engine.start [] []).withScripted 16 1 (chars "Ann") true }
  lua := ((State.empty.newUserdata (.gameObject 0)).newUserdata
    (.message (toLua [.string (chars "physics")]))).newUserdata
    (.message (toLua (List.replicate 7 (.float ⟨0⟩))))
  stack := []
  mCurrentAnimation _ := false
  mBody _ := false
  Cmass _ := ⟨0⟩
  mOldTime _ := 0

theorem annStage_sound : annStage.Sound :=
  ⟨Engine.withScripted_wellFormed (Engine.start_wellFormed [] []) (by decide) 1 (by decide) true,
    fun _ playing => by cases playing⟩

def answersAt (address : Ptr) : Answers where
  address := address
  memory := ⟨0⟩
  position := (⟨0⟩, ⟨0⟩, ⟨0⟩)
  finds := true
  time := 20
  stale := []
  turns := true

def createPhysics : Call :=
  ⟨.userdata 0, chars "self", chars "createComponent", [.userdata 1], answersAt 32⟩

def loadBox : Call :=
  ⟨.userdata 0, chars "physics", chars "loadBox", [.userdata 2], answersAt 48⟩

def addForce : Call :=
  ⟨.userdata 0, chars "physics", chars "addForce", [.userdata 2], answersAt 64⟩

theorem exec_safe_ann : Along (execStep quietHost) (SafeCall quietHost) annStage
    [createPhysics, loadBox, addForce] := by
  refine (exec_safe_iff quietHost annStage_sound _).mpr ?_
  rw [Along]
  refine ⟨fun _ p o self => ⟨_, _, rfl, rfl, .inl ⟨rfl, fun _ _ => ⟨fun look => ?_,
    fun rotate => ?_⟩⟩⟩, fun s' stepped => ?_⟩
  · exact absurd look (by decide)
  · exact absurd rotate (by decide)
  obtain rfl := Option.some.inj stepped
  rw [Along]
  refine ⟨fun _ p o self => ?_, fun s' stepped => ?_⟩
  · obtain ⟨pointer, live⟩ := self
    obtain rfl : 16 = p := Option.some.inj pointer
    obtain rfl := Option.some.inj live
    refine ⟨_, _, rfl, rfl, .inr ⟨.physics, rfl, by decide, fun _ _ => ⟨fun push => ?_,
      fun _ _ _ => List.forall_mem_nil _, fun sphere => ?_⟩⟩⟩
    · exact absurd push (by decide)
    · exact absurd sphere (by decide)
  obtain rfl := Option.some.inj stepped
  rw [Along]
  refine ⟨fun _ p o self => ?_, fun s' stepped => trivial⟩
  obtain ⟨pointer, live⟩ := self
  obtain rfl : 16 = p := Option.some.inj pointer
  obtain rfl := Option.some.inj live
  refine ⟨_, _, rfl, rfl, .inr ⟨.physics, rfl, by decide, fun _ _ => ⟨fun _ _ => rfl,
    fun box => ?_, fun sphere => ?_⟩⟩⟩
  · exact absurd box (by decide)
  · exact absurd sphere (by decide)

/-- A box of mass zero is loaded while the node is stale, in a later tick. -/
def loadStale : Call := { loadBox with answers := { answersAt 48 with stale := [16] } }

/-- A script pushes an object that has no physics component; and it loads a light body where the
transform of the node was not read yet. -/
theorem not_exec_safe :
    ¬ Along (execStep quietHost) (SafeCall quietHost) annStage [addForce] ∧
    ¬ Along (execStep quietHost) (SafeCall quietHost) annStage [createPhysics, loadStale] := by
  constructor
  · rintro ⟨safe, -⟩
    exact safe (by decide) ⟨16, _, rfl, rfl⟩
  · rintro ⟨-, next⟩
    exact (next _ rfl).1 (by decide) ⟨16, _, rfl, rfl⟩

end Ssuge.Exec

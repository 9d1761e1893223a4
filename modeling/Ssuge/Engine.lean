import Ssuge.InputManager
import Ssuge.OrderedMap
import Ssuge.Procedure

/-! The game objects and components of the engine and everything that holds a pointer
to them: the object map of `BaseApplication`, the registries of `factory.h`, the
input listeners, the sound listener, the active camera and the `LuaGameObject`
buffers of scripts. Memory is a heap of live objects and components; a procedure
that allocates is told the address the allocator returns. Of Ogre the model keeps
the names of the scene nodes and cameras: creating either with a taken name
throws and changes nothing. -/

namespace Ssuge

open CString Procedure

abbrev Name := List UInt8

instance : LawfulBEq Name := inferInstance

inductive Thrown
  | ogre
  | ssuge (description : List UInt8)
deriving DecidableEq, Repr

/-- Why a procedure does not return: a C++ exception, a Lua error, the end of the
program, or undefined behaviour. -/
inductive Stop
  | threw (thrown : Thrown)
  | raised
  | aborted
  | undefined
deriving DecidableEq, Repr

/-- Whoever calls the engine goes on after an exception. -/
def Stop.caught : Stop → Bool
  | .threw _ => true
  | _ => false

/-- What a getter of a message does to its caller. -/
def ofEval {σ α : Type} : Eval α → Proc Stop σ α
  | .ok a => pure a
  | .error .undefined => stop .undefined
  | .error (.thrown description) => stop (.threw (.ssuge (chars description)))

theorem ofEval_returned {σ α : Type} {x : Eval α} {s t : σ} {a : α} :
    (ofEval x).run s = .returned a t ↔ x = .ok a ∧ t = s := by
  rcases x with (description | _) | b
  · simp [ofEval]
  · simp [ofEval]
  · simp [ofEval, eq_comm]

inductive ComponentType
  | mesh | sound | camera | physics
deriving DecidableEq, Repr

structure Component where
  type : ComponentType
  mOwner : Ptr
  mEnable : Bool
deriving DecidableEq, Repr

structure GameObject where
  mTag : UInt32
  mName : Name
  mHasScript : Bool
  mComponents : ComponentType → Ptr

/-- The buffer behind a script's game object; `none` is what nothing was written to. -/
structure LuaGameObject where
  mPtr : Option Ptr
  mClassName : Option (List UInt8)
deriving DecidableEq, Repr

structure Engine where
  objects : Ptr → Option GameObject
  components : Ptr → Option Component
  mObjects : OrderedMap Name Ptr
  sceneNodes : List Name
  cameras : List Name
  msInstances : ComponentType → List Ptr
  mInputManager : InputManager
  mListener : Ptr
  mActiveCamera : Ptr
  /-- The buffers by their userdata; `none` once Lua has collected it. -/
  luaObjects : List (Option LuaGameObject)

abbrev EngineProc := Proc Stop Engine

namespace Engine

def start (sceneNodes cameras : List Name) : Engine where
  objects _ := none
  components _ := none
  mObjects := ∅
  sceneNodes := sceneNodes
  cameras := cameras
  msInstances _ := []
  mInputManager := .constructed
  mListener := 0
  mActiveCamera := 0
  luaObjects := []

def Fresh (e : Engine) (address : Ptr) : Prop :=
  address ≠ 0 ∧ e.objects address = none ∧ e.components address = none

instance (e : Engine) (address : Ptr) : Decidable (e.Fresh address) :=
  decidable_of_iff (address ≠ 0 ∧ (e.objects address).isNone ∧ (e.components address).isNone)
    (by simp [Fresh])

def setObject (e : Engine) (p : Ptr) (o : Option GameObject) : Engine :=
  { e with objects := Function.update e.objects p o }

def setComponent (e : Engine) (p : Ptr) (c : Option Component) : Engine :=
  { e with components := Function.update e.components p c }

/-- `obj->...` -/
def object (p : Ptr) : EngineProc GameObject := do
  orStop ((← get).objects p) .undefined

def createChildSceneNode (name : Name) : EngineProc Unit := do
  require (name ∉ (← get).sceneNodes) (.threw .ogre)
  modify fun e => { e with sceneNodes := name :: e.sceneNodes }

/-- `new GameObject(tag, name)`; the tag of a script is an `int`. -/
def newGameObject (address : Ptr) (tag : UInt32) (name : Name) : EngineProc Unit := do
  createChildSceneNode name
  modify fun e => e.setObject address (some ⟨tag, name, false, fun _ => 0⟩)

def addGameObject (title : Name) (obj : Ptr) : EngineProc Unit := do
  match (← get).mObjects.find? title with
  | none => modify fun e => { e with mObjects := e.mObjects.insert title obj }
  | some _ => stop (.threw (.ssuge
      (chars "An object with name '" ++ title ++ chars "' already exists!")))

def createGameObject (address : Ptr) (tag : UInt32) (title : Name) : EngineProc Ptr := do
  newGameObject address tag title
  addGameObject title address
  pure address

/-- `Factory<T>::deallocate(void * val)`: the first occurrence goes. -/
def deallocate (t : ComponentType) (val : Ptr) : EngineProc Unit :=
  modify fun e =>
    { e with msInstances := Function.update e.msInstances t ((e.msInstances t).erase val) }

/-- `~CameraComponent` destroys the camera that has its owner's name; the other
components have none. -/
def destroyCamera (c : Component) : EngineProc Unit :=
  if c.type = .camera then do
    let owner ← object c.mOwner
    modify fun e => { e with cameras := e.cameras.erase owner.mName }
  else pure ()

def deleteComponent (p : Ptr) : EngineProc Unit :=
  if p = 0 then pure ()
  else do
    let c ← orStop ((← get).components p) .undefined
    destroyCamera c
    modify fun e => e.setComponent p none

/-- The registry that `~GameObject` takes the component of a slot from. -/
def registryOf : ComponentType → ComponentType
  | .mesh => .mesh
  | .sound => .sound
  | .camera => .camera
  | .physics => .camera

/-- One pass of the loop of `~GameObject`. -/
def destroySlot (o : GameObject) (t : ComponentType) : EngineProc Unit := do
  deallocate (registryOf t) (o.mComponents t)
  deleteComponent (o.mComponents t)

def deleteGameObject (p : Ptr) : EngineProc Unit := do
  let o ← object p
  modify fun e => { e with sceneNodes := e.sceneNodes.erase o.mName }
  destroySlot o .mesh
  destroySlot o .sound
  destroySlot o .camera
  destroySlot o .physics
  modify fun e => e.setObject p none

/-- `delete iter->second; mObjects.erase(iter);` -/
def removeEntry (title : Name) (obj : Ptr) : EngineProc Unit := do
  deleteGameObject obj
  modify fun e => { e with mObjects := e.mObjects.erase title }

def removeGameObject (title : Name) : EngineProc Nat := do
  match (← get).mObjects.find? title with
  | some obj =>
      removeEntry title obj
      pure 1
  | none => pure 0

def getTag (o : GameObject) : Int32 := o.mTag.toInt32

/-- The loop over the entries; no destructor adds or erases one. -/
def removeTagged (tag : Int32) : List (Name × Ptr) → EngineProc Unit
  | [] => pure ()
  | (title, obj) :: rest => do
      let o ← object obj
      if getTag o = tag then removeEntry title obj else pure ()
      removeTagged tag rest

def removeGameObjectByTag (tag : Int32) : EngineProc Nat := do
  removeTagged tag (← get).mObjects.entries
  pure 0

/-- What the constructor of a `CameraComponent` creates. -/
def createCamera (t : ComponentType) (name : Name) : EngineProc Unit :=
  if t = .camera then do
    require (name ∉ (← get).cameras) (.threw .ogre)
    modify fun e => { e with cameras := name :: e.cameras }
  else pure ()

def newComponent (t : ComponentType) (address owner : Ptr) : EngineProc Unit := do
  let o ← object owner
  createCamera t (o.mName ++ chars "_camera")
  modify fun e => e.setComponent address (some ⟨t, owner, true⟩)

/-- `Factory<T>::allocate(GameObject * owner)` -/
def allocate (t : ComponentType) (address owner : Ptr) : EngineProc Ptr := do
  newComponent t address owner
  modify fun e =>
    { e with msInstances := Function.update e.msInstances t (e.msInstances t ++ [address]) }
  pure address

/-- `createMeshComponent` and its three siblings: the slot's old component is
overwritten. -/
def createComponent (t : ComponentType) (address owner : Ptr) : EngineProc Ptr := do
  let component ← allocate t address owner
  let o ← object owner
  modify fun e => e.setObject owner
    (some { o with mComponents := Function.update o.mComponents t component })
  pure component

def createMeshComponent := createComponent .mesh

def createSoundComponent := createComponent .sound

def createCameraComponent := createComponent .camera

def createPhysicsComponent := createComponent .physics

def addListener (gObject : Ptr) : EngineProc Nat := do
  let (manager, code) := (← get).mInputManager.addListener gObject
  modify fun e => { e with mInputManager := manager }
  pure code

def removeListener (gObject : Ptr) : EngineProc Nat := do
  let (manager, code) := (← get).mInputManager.removeListener gObject
  modify fun e => { e with mInputManager := manager }
  pure code

/-- `((LuaGameObject *) lua_touserdata(L, ...))->mPtr`, of a buffer that Lua still has. -/
def luaPtr (userdata : Nat) : EngineProc Ptr := do
  let go ← orStop ((← get).luaObjects[userdata]?.join) .undefined
  orStop go.mPtr .undefined

def luaInputRegister (userdata : Nat) : EngineProc Nat := do
  addListener (← luaPtr userdata)

def setListener (gObject : Ptr) : EngineProc Unit :=
  modify fun e => { e with mListener := gObject }

def updateSound : EngineProc Nat := do
  let e ← get
  if e.mListener = 0 then pure 0
  else do
    let _ ← object e.mListener
    pure 0

/-- With the Oculus support that `BaseApplication.cpp` switches on, no camera is ever
made the active one. -/
def setActiveCamera (cam : Ptr) : EngineProc Nat :=
  if cam = 0 then pure 1
  else do
    let o ← object cam
    if o.mComponents .camera = 0 then pure 1
    else do
      let c ← orStop ((← get).components (o.mComponents .camera)) .undefined
      pure (if c.mEnable = false then 1 else 0)

/-- `lua_newuserdata(L, sizeof(LuaGameObject))` -/
def newLuaObject : EngineProc Nat := do
  let userdata := (← get).luaObjects.length
  modify fun e => { e with luaObjects := e.luaObjects ++ [some ⟨none, none⟩] }
  pure userdata

def setLuaObject (userdata : Nat) (go : LuaGameObject) : EngineProc Unit :=
  modify fun e => { e with luaObjects := e.luaObjects.set userdata (some go) }

def classNameSize : Nat := 32

/-- The part of `_l_newGameObject` after the global is set and before `onCreate`:
`strcpy_s` ends the program when the name and its NUL do not fit. -/
def finishGameObject (userdata : Nat) (address : Ptr) (tag : Int32) (name : Name)
    (hasScript : Bool) : EngineProc Unit := do
  let gobj ← createGameObject address tag.toUInt32 name
  setLuaObject userdata ⟨some gobj, none⟩
  require (name.length < classNameSize) .aborted
  setLuaObject userdata ⟨some gobj, some name⟩
  let o ← object gobj
  modify fun e => e.setObject gobj (some { o with mHasScript := hasScript })

/-- What `_l_newGameObject` does in the engine before `onCreate`. -/
def luaNewGameObject (address : Ptr) (tag : Int32) (name : Name) (hasScript : Bool) :
    EngineProc Nat := do
  let userdata ← newLuaObject
  finishGameObject userdata address tag name hasScript
  pure userdata

end Engine

end Ssuge

import Ssuge.Joysticks
import Ssuge.OculusDisplay

/-! The life of the program: `main` with the start of `BaseApplication` and its destructor, and
the constructors and destructors of what it owns. What the world answers is taken from outside:
which calls of SDL and Ogre fail or throw, which devices there are, whether the scripts and the
loop throw. Game objects, and what SDL owns, are left out. A call of something that is not there
any more is undefined, and so is one of NULL. -/

namespace Ssuge

open Procedure

/-- What the program makes with `new`, or gets from a library, and has to destroy. -/
inductive Application.Part
  | mRoot | mOverlaySystem
  | mPhysicsManager | mBroadphase | mCollisionConfiguration | mDispatcher | mSolver
  | mDynamicsWorld
  | mSoundManager | mSoundEngine
  | mInputManager
  | mScriptManager | mLuaState
deriving DecidableEq

inductive Application.Life
  | absent | alive | destroyed
deriving DecidableEq

/-- The classes that are derived from `Singleton`. -/
inductive Application.Class
  | baseApplication | physicsManager | soundManager | inputManager | scriptManager
deriving DecidableEq

/-- `joysticks` is the part of the input manager that has to be closed. -/
structure Application where
  life : Application.Part → Application.Life
  msSingleton : Application.Class → Bool
  oculus : Oculus
  joysticks : Option (Joysticks.Polling × Joysticks.Handles)

namespace Application

open Oculus (Devices Display)

inductive Answer
  | succeeds | fails | throws
deriving DecidableEq

/-- What the world answers. A flag tells whether a call succeeds. -/
structure World where
  sdl : Bool
  root : Bool
  showConfigDialog : Answer
  log : Bool
  window : Answer
  sceneManager : Answer
  resources : Bool
  overlays : Bool
  irrKlang : Bool
  reported : Int32
  opens : Nat → Bool
  scripts : Bool
  devices : Devices
  display : Display
  scene : Bool
  loop : Bool
  numJoysticks : Int32
  attached : Joysticks.Handle → Bool

def start : Application where
  life _ := .absent
  msSingleton _ := false
  oculus := Oculus.constructed
  joysticks := none

def setLife (app : Application) (part : Part) (life : Life) : Application :=
  { app with life := Function.update app.life part life }

def setSingleton (app : Application) (c : Class) (set : Bool) : Application :=
  { app with msSingleton := Function.update app.msSingleton c set }

def make (part : Part) : Proc Oculus.Stop Application Unit :=
  modify fun app => app.setLife part .alive

/-- `delete part;`, or `part->drop();` -/
def destroy (part : Part) : Proc Oculus.Stop Application Unit := do
  let app ← get
  require (app.life part = .alive) .undefined
  modify fun app => app.setLife part .destroyed

/-- `if (part) delete part;`, with the destructor of its class. -/
def deletePart (part : Part) (destructor : Proc Oculus.Stop Application Unit) :
    Proc Oculus.Stop Application Unit := do
  let app ← get
  if app.life part = .absent then pure () else do
    destructor
    destroy part

def singleton (c : Class) : Proc Oculus.Stop Application Unit := do
  let app ← get
  require (app.msSingleton c = false) .exception
  modify fun app => app.setSingleton c true

def singletonDestructor (c : Class) : Proc Oculus.Stop Application Unit := do
  let app ← get
  require (app.msSingleton c = true) .exception
  modify fun app => app.setSingleton c false

/-- `new` for a class derived from `Singleton`. If the constructor throws, the base is destroyed
and the pointer is not set. -/
def construct (c : Class) (part : Part) (constructor : Proc Oculus.Stop Application Unit) :
    Proc Oculus.Stop Application Unit := do
  singleton c
  constructor.handle (· = .exception) (do singletonDestructor c; stop .exception)
  make part

def onOculus {α : Type} (p : Proc Oculus.Stop Oculus α) : Proc Oculus.Stop Application α :=
  within Application.oculus (fun app oculus => { app with oculus := oculus }) p

def failed : Answer → Proc Oculus.Stop Application Bool
  | .succeeds => pure false
  | .fails => pure true
  | .throws => stop .exception

def initializeRoot (world : World) : Proc Oculus.Stop Application Bool := do
  require world.root .exception
  make .mRoot
  failed world.showConfigDialog

def initializeLog (world : World) : Proc Oculus.Stop Application Bool := do
  require world.log .exception
  return false

def initializeWindow (world : World) : Proc Oculus.Stop Application Bool := failed world.window

def initializeSceneManager (world : World) : Proc Oculus.Stop Application Bool :=
  failed world.sceneManager

def initializeResources (world : World) : Proc Oculus.Stop Application Bool := do
  require world.resources .exception
  return false

/-- With the headset there are no viewports yet. -/
def initializeViewports : Proc Oculus.Stop Application Bool := pure false

def initializeGUI (world : World) : Proc Oculus.Stop Application Bool := do
  make .mOverlaySystem
  require world.overlays .exception
  return false

def physicsManager : Proc Oculus.Stop Application Unit := do
  make .mBroadphase
  make .mCollisionConfiguration
  make .mDispatcher
  make .mSolver
  make .mDynamicsWorld

def initializePhysicsManager : Proc Oculus.Stop Application Bool := do
  construct .physicsManager .mPhysicsManager physicsManager
  return false

/-- `SoundManager()`. The engine is used before it is compared with NULL. -/
def soundManager (world : World) : Proc Oculus.Stop Application Unit := do
  require world.irrKlang .undefined
  make .mSoundEngine

def initializeSoundManager (world : World) : Proc Oculus.Stop Application Bool := do
  construct .soundManager .mSoundManager (soundManager world)
  return false

def inputManager (world : World) : Proc Oculus.Stop Application Unit := do
  let made ← orStop (Joysticks.constructed 640 480 0 0 world.reported world.opens) .undefined
  modify fun app => { app with joysticks := some (made.1, ⟨made.2, []⟩) }

def initializeInputManager (world : World) : Proc Oculus.Stop Application Bool := do
  construct .inputManager .mInputManager (inputManager world)
  return false

/-- `ScriptManager()`, which runs all script files and their `init`. -/
def scriptManager (world : World) : Proc Oculus.Stop Application Unit := do
  make .mLuaState
  require world.scripts .exception

def initializeScriptManager (world : World) : Proc Oculus.Stop Application Bool := do
  construct .scriptManager .mScriptManager (scriptManager world)
  return false

def initializeScene (world : World) : Proc Oculus.Stop Application Bool := do
  onOculus (modify fun o => (o.setupOculus world.devices).1)
  discard (onOculus (Oculus.setupOgre world.display))
  require world.scene .exception
  return false

/-- One of the functions that `initialize` calls in turn, with the number it returns when the
function fails. -/
def stage (code : Nat) (init : Proc Oculus.Stop Application Bool)
    (rest : Proc Oculus.Stop Application Nat) : Proc Oculus.Stop Application Nat := do
  let fails ← init
  if fails then pure code else rest

/-- The managers and the scene, the last five calls of `initialize`. -/
def initializeManagers (world : World) : Proc Oculus.Stop Application Nat :=
  stage 9 initializePhysicsManager <|
  stage 10 (initializeSoundManager world) <|
  stage 11 (initializeInputManager world) <|
  stage 12 (initializeScriptManager world) <|
  stage 13 (initializeScene world) <|
  pure 0

def initializeApplication (world : World) : Proc Oculus.Stop Application Nat :=
  stage 1 (pure !world.sdl) <|
  stage 2 (initializeRoot world) <|
  stage 3 (initializeLog world) <|
  stage 4 (initializeWindow world) <|
  stage 5 (initializeSceneManager world) <|
  stage 7 (initializeResources world) <|
  stage 6 initializeViewports <|
  stage 8 (initializeGUI world) <|
  initializeManagers world

def soundManagerDestructor : Proc Oculus.Stop Application Unit := do
  destroy .mSoundEngine
  singletonDestructor .soundManager

def inputManagerDestructor (world : World) : Proc Oculus.Stop Application Unit := do
  let app ← get
  let joysticks ← orStop app.joysticks .undefined
  let handles ← orStop
    (Joysticks.destroy joysticks.1 joysticks.2 world.numJoysticks world.attached) .undefined
  modify fun app => { app with joysticks := some (joysticks.1, handles) }
  singletonDestructor .inputManager

def scriptManagerDestructor : Proc Oculus.Stop Application Unit := do
  destroy .mLuaState
  singletonDestructor .scriptManager

def physicsManagerDestructor : Proc Oculus.Stop Application Unit := do
  deletePart .mDynamicsWorld (pure ())
  deletePart .mSolver (pure ())
  deletePart .mDispatcher (pure ())
  deletePart .mCollisionConfiguration (pure ())
  deletePart .mBroadphase (pure ())
  singletonDestructor .physicsManager

/-- The managers, the overlay system and the root, in the order of `~BaseApplication()`. -/
def deleteManagers (world : World) : Proc Oculus.Stop Application Unit := do
  deletePart .mSoundManager soundManagerDestructor
  deletePart .mInputManager (inputManagerDestructor world)
  deletePart .mScriptManager scriptManagerDestructor
  deletePart .mPhysicsManager physicsManagerDestructor
  deletePart .mOverlaySystem (pure ())
  deletePart .mRoot (pure ())

/-- `~BaseApplication()`, with the destructors of its members and its base. The member `oculus`
is destroyed after the body has deleted the root of Ogre. -/
def destructor (world : World) : Proc Oculus.Stop Application Unit := do
  deleteManagers world
  onOculus Oculus.shutDownOculus
  let app ← get
  onOculus (Oculus.destructor (app.life .mRoot = .alive))
  singletonDestructor .baseApplication

/-- What the handlers in `main` do. The log belongs to the root of Ogre. -/
def logFatalError : Proc Oculus.Stop Application Unit := do
  let app ← get
  require (app.life .mRoot = .alive) .undefined

/-- `if (!app.initialize()) app.run();` -/
def body (world : World) : Proc Oculus.Stop Application Unit := do
  let code ← initializeApplication world
  if code = 0 then require world.loop .exception else pure ()

def main (world : World) : Proc Oculus.Stop Application Unit := do
  singleton .baseApplication
  (body world).handle (· = .exception) logFatalError
  destructor world

namespace World

variable (world : World)

def Opens : Prop :=
  world.sdl ∧ world.root ∧ world.showConfigDialog = .succeeds ∧ world.log ∧
    world.window = .succeeds ∧ world.sceneManager = .succeeds ∧ world.resources ∧ world.overlays

def ClosesJoysticks : Prop :=
  ∃ m opened, Joysticks.constructed 640 480 0 0 world.reported world.opens = some (m, opened) ∧
    (Joysticks.destroy m ⟨opened, []⟩ world.numJoysticks world.attached).isSome

end World

section primitives

variable {app app' : Application} {part : Part} {c : Class}

@[simp] theorem setLife_life (app : Application) (part : Part) (life : Life) (other : Part) :
    (app.setLife part life).life other = if other = part then life else app.life other :=
  Function.update_apply ..

@[simp] theorem setLife_msSingleton (app : Application) (part : Part) (life : Life) :
    (app.setLife part life).msSingleton = app.msSingleton := rfl

@[simp] theorem setLife_oculus (app : Application) (part : Part) (life : Life) :
    (app.setLife part life).oculus = app.oculus := rfl

@[simp] theorem setLife_joysticks (app : Application) (part : Part) (life : Life) :
    (app.setLife part life).joysticks = app.joysticks := rfl

@[simp] theorem setSingleton_msSingleton (app : Application) (c : Class) (set : Bool)
    (other : Class) : (app.setSingleton c set).msSingleton other =
      if other = c then set else app.msSingleton other :=
  Function.update_apply ..

@[simp] theorem setSingleton_life (app : Application) (c : Class) (set : Bool) :
    (app.setSingleton c set).life = app.life := rfl

@[simp] theorem setSingleton_oculus (app : Application) (c : Class) (set : Bool) :
    (app.setSingleton c set).oculus = app.oculus := rfl

@[simp] theorem setSingleton_joysticks (app : Application) (c : Class) (set : Bool) :
    (app.setSingleton c set).joysticks = app.joysticks := rfl

theorem destroy_run (alive : app.life part = .alive) :
    (destroy part).run app = .returned ⟨⟩ (app.setLife part .destroyed) := by
  rw [destroy, bind_get_run, bind_require_run, if_pos alive]
  rfl

theorem deletePart_absent {d : Proc Oculus.Stop Application Unit}
    (absent : app.life part = .absent) :
    (deletePart part d).run app = .returned ⟨⟩ app := by
  rw [deletePart, bind_get_run, if_pos absent]
  rfl

theorem deletePart_alive {d : Proc Oculus.Stop Application Unit} (alive : app.life part = .alive)
    (ran : d.run app = .returned ⟨⟩ app') (still : app'.life part = .alive) :
    (deletePart part d).run app = .returned ⟨⟩ (app'.setLife part .destroyed) := by
  rw [deletePart, bind_get_run, if_neg (by rw [alive]; decide), bind_of_returned ran,
    destroy_run still]

theorem singleton_run (free : app.msSingleton c = false) :
    (singleton c).run app = .returned ⟨⟩ (app.setSingleton c true) := by
  rw [singleton, bind_get_run, bind_require_run, if_pos free]
  rfl

theorem singletonDestructor_run (set : app.msSingleton c = true) :
    (singletonDestructor c).run app = .returned ⟨⟩ (app.setSingleton c false) := by
  rw [singletonDestructor, bind_get_run, bind_require_run, if_pos set]
  rfl

end primitives

end Application

end Ssuge

import Ssuge.Shutdown

/-! How `initialize` ends. Each of the functions that it calls goes on to the next, ends it with a
number or throws; once there is a root it is there however the start ends. If all goes well up
to the managers these are made one by one, and the scene comes last, with the headset. -/

namespace Ssuge.Application

open Procedure

def begun : Application := start.setSingleton .baseApplication true

def rooted : Application := begun.setLife .mRoot .alive

def overlaid : Application := rooted.setLife .mOverlaySystem .alive

section early

variable {world : World} {init : Proc Oculus.Stop Application Bool}
  {rest : Proc Oculus.Stop Application Nat} {s t : Application} {code : Nat}

theorem stage_goes (ran : init.run s = .returned false t) :
    (stage code init rest).run s = rest.run t := by
  rw [stage, bind_of_returned ran, if_neg Bool.false_ne_true]

theorem stage_fails (ran : init.run s = .returned true t) :
    (stage code init rest).run s = .returned code t := by
  rw [stage, bind_of_returned ran, if_pos rfl]
  rfl

theorem stage_throws {e : Oculus.Stop} (ran : init.run s = .stopped e t) :
    (stage code init rest).run s = .stopped e t := bind_of_stopped ran _

theorem initializeRoot_run (root : world.root) : (initializeRoot world).run begun =
    (failed world.showConfigDialog).run rooted := by
  rw [initializeRoot, root]
  rfl

theorem initializeGUI_run (world : World) : (initializeGUI world).run rooted =
    if world.overlays then .returned false overlaid else .stopped .exception overlaid := by
  rw [initializeGUI]
  cases world.overlays <;> rfl

theorem initialize_opens (opens : world.Opens) :
    (initializeApplication world).run begun = (initializeManagers world).run overlaid := by
  obtain ⟨sdl, root, config, log, window, sceneManager, resources, overlays⟩ := opens
  have rootRan := initializeRoot_run root
  rw [config] at rootRan
  have guiRan := initializeGUI_run world
  rw [if_pos overlays] at guiRan
  rw [initializeApplication, sdl, stage_goes rfl, stage_goes rootRan, initializeLog, log,
    stage_goes rfl, initializeWindow, window, stage_goes rfl, initializeSceneManager, sceneManager,
    stage_goes rfl, initializeResources, resources, stage_goes rfl, stage_goes rfl,
    stage_goes guiRan]

def Ends (s : Application) (ending : Procedure.Ending Oculus.Stop Application Nat) : Prop :=
  ending = .stopped .exception s ∨ ∃ code, ending = .returned code s

theorem stage_ends (answer : Answer) (short : answer ≠ .succeeds)
    (ran : init.run s = (failed answer).run t) : Ends t ((stage code init rest).run s) := by
  cases answer with
  | succeeds => exact absurd rfl short
  | fails => exact .inr ⟨code, stage_fails ran⟩
  | throws => exact .inl (stage_throws ran)

/-- Once there is a root, all that goes wrong before the managers leaves it, with or without the
overlay system. -/
theorem initialize_ends (sdl : world.sdl) (root : world.root) (less : ¬ world.Opens) :
    ∃ s, (s = rooted ∨ s = overlaid) ∧ Ends s ((initializeApplication world).run begun) := by
  have rootRan := initializeRoot_run root
  rw [initializeApplication, sdl, stage_goes rfl]
  by_cases config : world.showConfigDialog = .succeeds
  case neg => exact ⟨rooted, .inl rfl, stage_ends _ config rootRan⟩
  rw [config] at rootRan
  rw [stage_goes rootRan, initializeLog]
  cases log : world.log with
  | false => exact ⟨rooted, .inl rfl, .inl (stage_throws rfl)⟩
  | true =>
  rw [stage_goes rfl, initializeWindow]
  by_cases window : world.window = .succeeds
  case neg => exact ⟨rooted, .inl rfl, stage_ends _ window rfl⟩
  rw [window, stage_goes rfl, initializeSceneManager]
  by_cases sceneManager : world.sceneManager = .succeeds
  case neg => exact ⟨rooted, .inl rfl, stage_ends _ sceneManager rfl⟩
  rw [sceneManager, stage_goes rfl, initializeResources]
  cases resources : world.resources with
  | false => exact ⟨rooted, .inl rfl, .inl (stage_throws rfl)⟩
  | true =>
  have guiRan := initializeGUI_run world
  rw [stage_goes rfl, stage_goes rfl]
  by_cases overlays : world.overlays
  · exact absurd ⟨sdl, root, config, log, window, sceneManager, resources, overlays⟩ less
  · rw [if_neg overlays] at guiRan
    exact ⟨overlaid, .inr rfl, .inl (stage_throws guiRan)⟩

end early

section construction

variable {app t : Application} {c : Class} {part : Part}
  {constructor : Proc Oculus.Stop Application Unit}

theorem construct_run (free : app.msSingleton c = false)
    (ran : constructor.run (app.setSingleton c true) = .returned ⟨⟩ t) :
    (construct c part constructor).run app = .returned ⟨⟩ (t.setLife part .alive) := by
  rw [construct, bind_of_returned (singleton_run free),
    bind_of_returned (handle_returned ran _ _)]
  rfl

theorem construct_throws (free : app.msSingleton c = false)
    (ran : constructor.run (app.setSingleton c true) = .stopped .exception t)
    (still : t.msSingleton c = true) :
    (construct c part constructor).run app = .stopped .exception (t.setSingleton c false) := by
  have handled : (constructor.handle (· = .exception) (do
      singletonDestructor c
      stop .exception)).run (app.setSingleton c true) =
        .stopped .exception (t.setSingleton c false) := by
    refine (handle_stopped ran _ _).trans ?_
    rw [if_pos (by decide), bind_of_returned (singletonDestructor_run still), stop_run]
  rw [construct, bind_of_returned (singleton_run free), bind_of_stopped handled]

theorem construct_undefined (free : app.msSingleton c = false)
    (ran : constructor.run (app.setSingleton c true) = .stopped .undefined t) :
    (construct c part constructor).run app = .stopped .undefined t := by
  have handled := handle_stopped ran (· = .exception)
    (do singletonDestructor c; stop .exception)
  rw [if_neg (by decide)] at handled
  rw [construct, bind_of_returned (singleton_run free), bind_of_stopped handled]

def withPhysics : Application :=
  ((((((overlaid.setSingleton .physicsManager true).setLife .mBroadphase .alive).setLife
    .mCollisionConfiguration .alive).setLife .mDispatcher .alive).setLife .mSolver .alive).setLife
      .mDynamicsWorld .alive).setLife .mPhysicsManager .alive

def withSound : Application :=
  ((withPhysics.setSingleton .soundManager true).setLife .mSoundEngine .alive).setLife
    .mSoundManager .alive

variable (m : Joysticks.Polling) (opened : List Joysticks.Handle)

def withInput : Application :=
  Application.setLife { withSound.setSingleton .inputManager true with
    joysticks := some (m, ⟨opened, []⟩) } .mInputManager .alive

def withLua : Application :=
  ((withInput m opened).setSingleton .scriptManager true).setLife .mLuaState .alive

def scripted : Application := (withLua m opened).setLife .mScriptManager .alive

def unscripted : Application := (withLua m opened).setSingleton .scriptManager false

theorem managed_scripted (o : Oculus) : Managed { scripted m opened with oculus := o } where
  alive part _ := by cases part <;> rfl
  script := .inr ⟨rfl, rfl⟩
  set c _ := by cases c <;> rfl

theorem managed_unscripted : Managed (unscripted m opened) where
  alive part other := by
    cases part with
    | mScriptManager => exact absurd rfl other
    | _ => rfl
  script := .inl ⟨rfl, rfl⟩
  set c other := by
    cases c with
    | scriptManager => exact absurd rfl other
    | _ => rfl

end construction

section managers

variable {world : World} {m : Joysticks.Polling} {opened : List Joysticks.Handle}

theorem physicsManager_made : initializePhysicsManager.run overlaid =
    .returned false withPhysics := by
  rw [initializePhysicsManager, bind_of_returned (construct_run rfl rfl)]
  rfl

theorem initializeManagers_silent (silent : world.irrKlang = false) :
    ∃ s, (initializeManagers world).run overlaid = .stopped .undefined s := by
  have stopped : (initializeSoundManager world).run withPhysics = .stopped .undefined
      (withPhysics.setSingleton .soundManager true) := by
    rw [initializeSoundManager, bind_of_stopped (construct_undefined rfl _)]
    rw [soundManager, silent]
    rfl
  exact ⟨_, by rw [initializeManagers, stage_goes physicsManager_made, stage_throws stopped]⟩

theorem soundManager_made (heard : world.irrKlang) :
    (initializeSoundManager world).run withPhysics = .returned false withSound := by
  have ran : (soundManager world).run (withPhysics.setSingleton .soundManager true) = .returned ⟨⟩
      ((withPhysics.setSingleton .soundManager true).setLife .mSoundEngine .alive) := by
    rw [soundManager, heard]
    rfl
  rw [initializeSoundManager, bind_of_returned (construct_run rfl ran)]
  rfl

theorem initializeManagers_crowded (heard : world.irrKlang)
    (stuck : Joysticks.constructed 640 480 0 0 world.reported world.opens = none) :
    ∃ s, (initializeManagers world).run overlaid = .stopped .undefined s := by
  have stopped : (initializeInputManager world).run withSound = .stopped .undefined
      (withSound.setSingleton .inputManager true) := by
    rw [initializeInputManager, bind_of_stopped (construct_undefined rfl _)]
    rw [inputManager, stuck]
    rfl
  exact ⟨_, by rw [initializeManagers, stage_goes physicsManager_made,
    stage_goes (soundManager_made heard), stage_throws stopped]⟩

theorem inputManager_made
    (made : Joysticks.constructed 640 480 0 0 world.reported world.opens = some (m, opened)) :
    (initializeInputManager world).run withSound = .returned false (withInput m opened) := by
  have ran : (inputManager world).run (withSound.setSingleton .inputManager true) = .returned ⟨⟩
      { withSound.setSingleton .inputManager true with joysticks := some (m, ⟨opened, []⟩) } := by
    rw [inputManager, made]
    rfl
  rw [initializeInputManager, bind_of_returned (construct_run rfl ran)]
  rfl

theorem initializeManagers_unscripted (heard : world.irrKlang)
    (made : Joysticks.constructed 640 480 0 0 world.reported world.opens = some (m, opened))
    (threw : world.scripts = false) : (initializeManagers world).run overlaid =
      .stopped .exception (unscripted m opened) := by
  have ran : (scriptManager world).run ((withInput m opened).setSingleton .scriptManager true) =
      .stopped .exception (withLua m opened) := by
    rw [scriptManager, threw]
    rfl
  have stopped : (initializeScriptManager world).run (withInput m opened) =
      .stopped .exception (unscripted m opened) := by
    rw [initializeScriptManager, bind_of_stopped (construct_throws rfl ran rfl)]
    rfl
  rw [initializeManagers, stage_goes physicsManager_made, stage_goes (soundManager_made heard),
    stage_goes (inputManager_made made), stage_throws stopped]

theorem initializeManagers_scripted (heard : world.irrKlang)
    (made : Joysticks.constructed 640 480 0 0 world.reported world.opens = some (m, opened))
    (ran : world.scripts) : (initializeManagers world).run overlaid =
      (stage 13 (initializeScene world) (pure 0)).run (scripted m opened) := by
  have constructed : (scriptManager world).run
      ((withInput m opened).setSingleton .scriptManager true) =
        .returned ⟨⟩ (withLua m opened) := by
    rw [scriptManager, ran]
    rfl
  have script : (initializeScriptManager world).run (withInput m opened) =
      .returned false (scripted m opened) := by
    rw [initializeScriptManager, bind_of_returned (construct_run rfl constructed)]
    rfl
  rw [initializeManagers, stage_goes physicsManager_made, stage_goes (soundManager_made heard),
    stage_goes (inputManager_made made), stage_goes script]

def atDisplay (world : World) (app : Application) : Application :=
  { app with oculus := (app.oculus.setupOculus world.devices).1 }

theorem scene_starts (world : World) (app : Application) : (initializeScene world).run app = (do
    discard (onOculus (Oculus.setupOgre world.display))
    require world.scene .exception
    return false).run (atDisplay world app) := rfl

theorem scene_ends {app : Application} {o' : Oculus} (drawn : ((Oculus.setupOgre world.display).run
      (app.oculus.setupOculus world.devices).1).resumes (· = .exception) = some o') :
    Ends { app with oculus := o' } ((stage 13 (initializeScene world) (pure 0)).run app) := by
  cases ran : (Oculus.setupOgre world.display).run (app.oculus.setupOculus world.devices).1 with
  | returned value o =>
      rw [ran] at drawn
      obtain rfl : o = o' := Option.some.inj drawn
      have first : (discard (onOculus (Oculus.setupOgre world.display))).run
          (atDisplay world app) = .returned ⟨⟩ { app with oculus := o } :=
        discard_returned.mpr ⟨value, within_returned.mpr ⟨o, ran, rfl⟩⟩
      have scene : (initializeScene world).run app = if world.scene then
          .returned false { app with oculus := o }
        else .stopped .exception { app with oculus := o } := by
        rw [scene_starts]
        refine (bind_of_returned first _).trans ?_
        cases world.scene <;> rfl
      cases whole : world.scene with
      | true =>
          rw [whole] at scene
          exact .inr ⟨0, stage_goes scene⟩
      | false =>
          rw [whole] at scene
          exact .inl (stage_throws scene)
  | stopped e o =>
      rw [ran, Ending.resumes] at drawn
      split at drawn
      next caught =>
        obtain rfl : o = o' := Option.some.inj drawn
        obtain rfl : e = .exception := of_decide_eq_true caught
        have first : (discard (onOculus (Oculus.setupOgre world.display))).run
            (atDisplay world app) = .stopped .exception { app with oculus := o } :=
          discard_stopped.mpr (within_stopped.mpr ⟨o, ran, rfl⟩)
        exact .inl (stage_throws ((scene_starts world app).trans (bind_of_stopped first _)))
      · cases drawn

theorem scene_undefined (app : Application) (undrawn : ((Oculus.setupOgre world.display).run
      (app.oculus.setupOculus world.devices).1).resumes (· = .exception) = none) :
    ∃ s, (stage 13 (initializeScene world) (pure 0)).run app = .stopped .undefined s := by
  cases ran : (Oculus.setupOgre world.display).run (app.oculus.setupOculus world.devices).1 with
  | returned value o =>
      rw [ran] at undrawn
      cases undrawn
  | stopped e o =>
      rw [ran, Ending.resumes] at undrawn
      split at undrawn
      · cases undrawn
      next uncaught =>
        obtain rfl : e = .undefined := by
          cases e with
          | exception => exact absurd rfl uncaught
          | undefined => rfl
        have first : (discard (onOculus (Oculus.setupOgre world.display))).run
            (atDisplay world app) = .stopped .undefined { app with oculus := o } :=
          discard_stopped.mpr (within_stopped.mpr ⟨o, ran, rfl⟩)
        exact ⟨_, stage_throws ((scene_starts world app).trans (bind_of_stopped first _))⟩

end managers

end Ssuge.Application

import Ssuge.Application

/-! The destructor of the program. The managers are deleted one by one, each with the base that
makes it a singleton, then the overlay system and the root of Ogre, and the headset is shut down
before and after. -/

namespace Ssuge.Application

open Procedure

structure Destroyed (parts : List Part) (classes : List Class) (app app' : Application) :
    Prop where
  life : ∀ part, app'.life part = if part ∈ parts then .destroyed else app.life part
  msSingleton : ∀ c, app'.msSingleton c = if c ∈ classes then false else app.msSingleton c
  oculus : app'.oculus = app.oculus
  joysticks : .inputManager ∉ classes → app'.joysticks = app.joysticks

section destruction

variable {app app₁ app' : Application} {parts parts' : List Part} {classes classes' : List Class}

theorem Destroyed.trans (first : Destroyed parts classes app app₁)
    (second : Destroyed parts' classes' app₁ app') :
    Destroyed (parts ++ parts') (classes ++ classes') app app' where
  life part := by
    rw [second.life, first.life]
    by_cases now : part ∈ parts' <;> by_cases before : part ∈ parts <;> simp [now, before]
  msSingleton c := by
    rw [second.msSingleton, first.msSingleton]
    by_cases now : c ∈ classes' <;> by_cases before : c ∈ classes <;> simp [now, before]
  oculus := second.oculus.trans first.oculus
  joysticks apart := by
    rw [List.mem_append, not_or] at apart
    exact (second.joysticks apart.2).trans (first.joysticks apart.1)

theorem Destroyed.alive {part : Part} (gone : Destroyed parts classes app app')
    (alive : app.life part = .alive) (apart : part ∉ parts) : app'.life part = .alive := by
  rw [gone.life, if_neg apart, alive]

theorem Destroyed.set {c : Class} (gone : Destroyed parts classes app app')
    (set : app.msSingleton c = true) (apart : c ∉ classes) : app'.msSingleton c = true := by
  rw [gone.msSingleton, if_neg apart, set]

theorem destroyed_setLife (app : Application) (part : Part) :
    Destroyed [part] [] app (app.setLife part .destroyed) :=
  ⟨by simp, by simp, rfl, fun _ => rfl⟩

theorem destroyed_setSingleton (app : Application) (c : Class) :
    Destroyed [] [c] app (app.setSingleton c false) :=
  ⟨by simp, by simp, rfl, fun _ => rfl⟩

theorem Destroyed.deletePart {part : Part} {d : Proc Oculus.Stop Application Unit}
    (alive : app.life part = .alive) (ran : d.run app = .returned ⟨⟩ app₁)
    (gone : Destroyed parts classes app app₁) (apart : part ∉ parts) :
    ∃ app', (deletePart part d).run app = .returned ⟨⟩ app' ∧
      Destroyed (parts ++ [part]) classes app app' := by
  refine ⟨_, deletePart_alive alive ran (gone.alive alive apart), ?_⟩
  simpa using gone.trans (destroyed_setLife app₁ part)

theorem soundManagerDestructor_run (engine : app.life .mSoundEngine = .alive)
    (set : app.msSingleton .soundManager = true) :
    ∃ app', soundManagerDestructor.run app = .returned ⟨⟩ app' ∧
      Destroyed [.mSoundEngine] [.soundManager] app app' := by
  refine ⟨_, ?_, (destroyed_setLife app .mSoundEngine).trans (destroyed_setSingleton _ _)⟩
  rw [soundManagerDestructor, bind_of_returned (destroy_run engine)]
  exact singletonDestructor_run set

theorem scriptManagerDestructor_run (state : app.life .mLuaState = .alive)
    (set : app.msSingleton .scriptManager = true) :
    ∃ app', scriptManagerDestructor.run app = .returned ⟨⟩ app' ∧
      Destroyed [.mLuaState] [.scriptManager] app app' := by
  refine ⟨_, ?_, (destroyed_setLife app .mLuaState).trans (destroyed_setSingleton _ _)⟩
  rw [scriptManagerDestructor, bind_of_returned (destroy_run state)]
  exact singletonDestructor_run set

theorem inputManagerDestructor_run {world : World} {m : Joysticks.Polling}
    {handles handles' : Joysticks.Handles} (joysticks : app.joysticks = some (m, handles))
    (closed : Joysticks.destroy m handles world.numJoysticks world.attached = some handles')
    (set : app.msSingleton .inputManager = true) :
    ∃ app', (inputManagerDestructor world).run app = .returned ⟨⟩ app' ∧
      Destroyed [] [.inputManager] app app' := by
  refine ⟨({ app with joysticks := some (m, handles') }).setSingleton .inputManager false, ?_,
    ⟨by simp, by simp, rfl, by simp⟩⟩
  rw [inputManagerDestructor, bind_get_run, joysticks, bind_some_run, closed, bind_some_run]
  exact singletonDestructor_run set

theorem deleteBare_run {part : Part} (alive : app.life part = .alive) :
    (deletePart part (pure ())).run app = .returned ⟨⟩ (app.setLife part .destroyed) :=
  deletePart_alive alive rfl alive

/-- What `PhysicsManager()` makes, in the order of the destructor. -/
def physicsParts : List Part :=
  [.mDynamicsWorld, .mSolver, .mDispatcher, .mCollisionConfiguration, .mBroadphase]

theorem physicsManagerDestructor_run (alive : ∀ part ∈ physicsParts, app.life part = .alive)
    (set : app.msSingleton .physicsManager = true) :
    ∃ app', physicsManagerDestructor.run app = .returned ⟨⟩ app' ∧
      Destroyed physicsParts [.physicsManager] app app' := by
  have dynamicsWorld := alive .mDynamicsWorld (by decide)
  have solver := alive .mSolver (by decide)
  have dispatcher := alive .mDispatcher (by decide)
  have configuration := alive .mCollisionConfiguration (by decide)
  have broadphase := alive .mBroadphase (by decide)
  have gone := ((((destroyed_setLife app .mDynamicsWorld).trans
    (destroyed_setLife _ .mSolver)).trans (destroyed_setLife _ .mDispatcher)).trans
      (destroyed_setLife _ .mCollisionConfiguration)).trans (destroyed_setLife _ .mBroadphase)
  refine ⟨_, ?_, gone.trans (destroyed_setSingleton _ .physicsManager)⟩
  rw [physicsManagerDestructor, bind_of_returned (deleteBare_run dynamicsWorld),
    bind_of_returned (deleteBare_run (by simpa using solver)),
    bind_of_returned (deleteBare_run (by simpa using dispatcher)),
    bind_of_returned (deleteBare_run (by simpa using configuration)),
    bind_of_returned (deleteBare_run (by simpa using broadphase))]
  exact singletonDestructor_run set

/-- All is there when the destructor runs, but perhaps the script manager. -/
structure Managed (app : Application) : Prop where
  alive : ∀ part, part ≠ .mScriptManager → app.life part = .alive
  script : app.life .mScriptManager = .absent ∧ app.msSingleton .scriptManager = false ∨
    app.life .mScriptManager = .alive ∧ app.msSingleton .scriptManager = true
  set : ∀ c, c ≠ .scriptManager → app.msSingleton c = true

theorem Managed.script_deleted (managed : Managed app) {app₁ : Application}
    (gone : Destroyed parts classes app app₁)
    (spared : .mLuaState ∉ parts ∧ .mScriptManager ∉ parts)
    (kept : .scriptManager ∉ classes) :
    ∃ app' parts', (deletePart .mScriptManager scriptManagerDestructor).run app₁ =
      .returned ⟨⟩ app' ∧ Destroyed parts' [.scriptManager] app₁ app' ∧
        ∀ part, part ∈ parts' ↔ app.life .mScriptManager ≠ .absent ∧
          (part = .mLuaState ∨ part = .mScriptManager) := by
  rcases managed.script with ⟨absent, unset⟩ | ⟨alive, set⟩
  · have still : app₁.life .mScriptManager = .absent := by
      rw [gone.life, if_neg spared.2, absent]
    refine ⟨app₁, [], deletePart_absent still, ⟨by simp, fun c => ?_, rfl, fun _ => rfl⟩,
      by simp [absent]⟩
    by_cases own : c = .scriptManager
    · rw [own, gone.msSingleton, if_neg kept, unset]
      simp
    · simp [own]
  · have state := gone.alive (managed.alive .mLuaState (by decide)) spared.1
    obtain ⟨_, ran, next⟩ := scriptManagerDestructor_run state (gone.set set kept)
    obtain ⟨app', deleted, next⟩ := next.deletePart (gone.alive alive spared.2) ran (by decide)
    exact ⟨app', _, deleted, next, by simp [alive]⟩

theorem deleteManagers_run {world : World} {m : Joysticks.Polling}
    {handles handles' : Joysticks.Handles} (managed : Managed app)
    (joysticks : app.joysticks = some (m, handles))
    (closed : Joysticks.destroy m handles world.numJoysticks world.attached = some handles') :
    ∃ app', (deleteManagers world).run app = .returned ⟨⟩ app' ∧ app'.oculus = app.oculus ∧
      (∀ part, app'.life part = .alive ↔
        part = .mLuaState ∧ app.life .mScriptManager = .absent) ∧
      app'.life .mRoot = .destroyed ∧
      ∀ c, app'.msSingleton c = true ↔ c = .baseApplication := by
  obtain ⟨_, ran, gone⟩ := soundManagerDestructor_run (managed.alive .mSoundEngine (by decide))
    (managed.set .soundManager (by decide))
  obtain ⟨s₁, sound, gone⟩ := gone.deletePart (managed.alive .mSoundManager (by decide)) ran
    (by decide)
  obtain ⟨_, ran, next⟩ := inputManagerDestructor_run
    ((gone.joysticks (by decide)).trans joysticks) closed
    (gone.set (managed.set .inputManager (by decide)) (by decide))
  obtain ⟨s₂, input, next⟩ := next.deletePart
    (gone.alive (managed.alive .mInputManager (by decide)) (by decide)) ran (by decide)
  have gone := gone.trans next
  obtain ⟨s₃, parts, script, next, members⟩ := managed.script_deleted gone (by decide) (by decide)
  have gone := gone.trans next
  have left : ∀ part, part ≠ .mScriptManager → part ≠ .mLuaState →
      part ∉ [Part.mSoundEngine, .mSoundManager, .mInputManager] → s₃.life part = .alive := by
    intro part manager state apart
    refine gone.alive (managed.alive part manager) ?_
    simpa [members, manager, state] using apart
  have apart : ∀ part ∈ physicsParts, part ≠ .mScriptManager ∧ part ≠ .mLuaState ∧
      part ∉ [Part.mSoundEngine, .mSoundManager, .mInputManager] := by decide
  obtain ⟨_, ran, next⟩ := physicsManagerDestructor_run
    (fun part member => left part (apart part member).1 (apart part member).2.1
      (apart part member).2.2)
    (gone.set (managed.set .physicsManager (by decide)) (by simp))
  obtain ⟨s₄, physics, next⟩ := next.deletePart
    (left .mPhysicsManager (by decide) (by decide) (by decide)) ran (by decide)
  have gone := gone.trans next
  have overlay := deleteBare_run
    (gone.alive (managed.alive .mOverlaySystem (by decide)) (by simp [members, physicsParts]))
  have gone := gone.trans (destroyed_setLife s₄ .mOverlaySystem)
  have root := deleteBare_run
    (gone.alive (managed.alive .mRoot (by decide)) (by simp [members, physicsParts]))
  have gone := gone.trans (destroyed_setLife _ .mRoot)
  refine ⟨_, ?_, gone.oculus, fun part => ?_, by simp, fun c => ?_⟩
  · rw [deleteManagers, bind_of_returned sound, bind_of_returned input, bind_of_returned script,
      bind_of_returned physics, bind_of_returned overlay, root]
  · rw [gone.life]
    by_cases lua : part = .mLuaState
    · subst lua
      rcases managed.script with ⟨absent, -⟩ | ⟨alive, -⟩
      · simp [members, physicsParts, absent, managed.alive .mLuaState (by decide)]
      · simp [members, alive]
    · refine iff_of_false ?_ fun both => lua both.1
      rcases managed.script with ⟨absent, -⟩ | ⟨alive, -⟩
      · cases part <;> simp_all [physicsParts]
      · cases part <;> simp_all [physicsParts]
  · rw [gone.msSingleton]
    cases c with
    | baseApplication => simp [managed.set .baseApplication (by decide)]
    | physicsManager | soundManager | inputManager | scriptManager => simp

theorem deleteManagers_undefined {world : World} {m : Joysticks.Polling}
    {handles : Joysticks.Handles} (managed : Managed app)
    (joysticks : app.joysticks = some (m, handles))
    (stuck : Joysticks.destroy m handles world.numJoysticks world.attached = none) :
    ∃ app', (deleteManagers world).run app = .stopped .undefined app' := by
  obtain ⟨_, ran, gone⟩ := soundManagerDestructor_run (managed.alive .mSoundEngine (by decide))
    (managed.set .soundManager (by decide))
  obtain ⟨s₁, sound, gone⟩ := gone.deletePart (managed.alive .mSoundManager (by decide)) ran
    (by decide)
  have alive := gone.alive (managed.alive .mInputManager (by decide)) (by decide)
  have stopped : (inputManagerDestructor world).run s₁ = .stopped .undefined s₁ := by
    rw [inputManagerDestructor, bind_get_run, gone.joysticks (by decide), joysticks, bind_some_run,
      stuck, bind_none_run]
  have input : (Application.deletePart .mInputManager (inputManagerDestructor world)).run s₁ =
      .stopped .undefined s₁ := by
    rw [Application.deletePart, bind_get_run, if_neg (by rw [alive]; decide),
      bind_of_stopped stopped]
  exact ⟨s₁, by rw [deleteManagers, bind_of_returned sound, bind_of_stopped input]⟩

/-- The rest of the destructor, after the managers and the root are deleted. -/
theorem destructor_returns {world : World}
    (ran : (deleteManagers world).run app = .returned ⟨⟩ app₁)
    (root : app₁.life .mRoot ≠ .alive) (set : app₁.msSingleton .baseApplication = true)
    (formed : app₁.oculus.Formed) (safe : ¬ app₁.oculus.Spent) :
    (((destructor world).run app).returns ↔
      app₁.oculus.Clears false ∧ app₁.oculus.m_oculusReady = false) ∧
    ∀ app', (destructor world).run app = .returned ⟨⟩ app' → app'.life = app₁.life ∧
      ∀ c, app'.msSingleton c = if c = .baseApplication then false else app₁.msSingleton c := by
  obtain ⟨o, down, iff⟩ := formed.destructor_returns safe
  have first : (onOculus Oculus.shutDownOculus).run app₁ =
      .returned ⟨⟩ { app₁ with oculus := o } :=
    within_returned.mpr ⟨o, down, rfl⟩
  rw [destructor, bind_of_returned ran, bind_of_returned first, bind_get_run,
    decide_eq_false root]
  cases last : (Oculus.destructor false).run o with
  | returned value o' =>
      have second : (onOculus (Oculus.destructor false)).run { app₁ with oculus := o } =
          .returned ⟨⟩ { app₁ with oculus := o' } :=
        within_returned.mpr ⟨o', last, rfl⟩
      have third : (singletonDestructor .baseApplication).run { app₁ with oculus := o' } =
          .returned ⟨⟩ ({ app₁ with oculus := o' }.setSingleton .baseApplication false) :=
        singletonDestructor_run set
      rw [last] at iff
      rw [bind_of_returned second, third]
      refine ⟨iff_of_true rfl (iff.mp rfl), fun app' ended => ?_⟩
      obtain ⟨-, rfl⟩ := Ending.returned.inj ended
      exact ⟨rfl, fun c => by simp⟩
  | stopped e o' =>
      have second : (onOculus (Oculus.destructor false)).run { app₁ with oculus := o } =
          .stopped e { app₁ with oculus := o' } :=
        within_stopped.mpr ⟨o', last, rfl⟩
      have never : ¬ (app₁.oculus.Clears false ∧ app₁.oculus.m_oculusReady = false) := by
        rw [← iff, last]
        exact Bool.false_ne_true
      rw [bind_of_stopped second]
      exact ⟨iff_of_false Bool.false_ne_true never, fun app' ended => by simp at ended⟩

end destruction

end Ssuge.Application

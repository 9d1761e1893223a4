import Ssuge.Startup

/-! The whole program, from `main` to the end of its destructor: for which answers of the world it
ends without undefined behaviour, and what is left then. -/

namespace Ssuge.Application

open Procedure

section whole

variable {world : World} {s : Application}

theorem main_run : (main world).run start =
    ((body world).handle (· = .exception) logFatalError >>= fun _ =>
      destructor world).run begun := by
  rw [main, bind_of_returned (singleton_run rfl)]
  rfl

theorem body_handled (ends : Ends s ((initializeApplication world).run begun))
    (root : s.life .mRoot = .alive) :
    ((body world).handle (· = .exception) logFatalError).run begun = .returned ⟨⟩ s := by
  have logged : logFatalError.run s = .returned ⟨⟩ s := by
    rw [logFatalError, bind_get_run, require_pos root]
  have caught : ∀ {p : Proc Oculus.Stop Application Unit}, p.run begun = .stopped .exception s →
      (p.handle (· = .exception) logFatalError).run begun = .returned ⟨⟩ s := fun stopped =>
    (handle_stopped stopped _ _).trans ((if_pos (by decide)).trans logged)
  rcases ends with threw | ⟨code, returned⟩
  · exact caught (by rw [body, bind_of_stopped threw])
  · by_cases loops : code = 0
    · cases ran : world.loop with
      | true =>
          refine handle_returned ?_ _ _
          rw [body, bind_of_returned returned, if_pos loops, require_pos ran]
      | false =>
          refine caught ?_
          rw [body, bind_of_returned returned, if_pos loops, require_neg (by simp [ran])]
    · refine handle_returned ?_ _ _
      rw [body, bind_of_returned returned, if_neg loops]
      rfl

theorem main_undefined
    (undefined : (initializeApplication world).run begun = .stopped .undefined s) :
    ¬ ((main world).run start).returns := by
  have stopped : (body world).run begun = .stopped .undefined s := by
    rw [body, bind_of_stopped undefined]
  rw [main_run, bind_of_stopped ((handle_stopped stopped _ _).trans (if_neg (by decide)))]
  exact Bool.false_ne_true

theorem main_of_handled (handled : ((body world).handle (· = .exception) logFatalError).run begun =
    .returned ⟨⟩ s) : (main world).run start = (destructor world).run s := by
  rw [main_run, bind_of_returned handled]

theorem deleteManagers_early (world : World) (early : s = begun ∨ s = rooted ∨ s = overlaid) :
    ∃ app, (deleteManagers world).run s = .returned ⟨⟩ app ∧ app.oculus = Oculus.constructed ∧
      (∀ part, app.life part ≠ .alive) ∧ ∀ c, app.msSingleton c = true ↔ c = .baseApplication := by
  have set : ∀ c, begun.msSingleton c = true ↔ c = .baseApplication := by
    intro c
    cases c <;> decide
  rcases early with rfl | rfl | rfl
  · refine ⟨begun, rfl, rfl, fun part => ?_, set⟩
    cases part <;> decide
  · refine ⟨rooted.setLife .mRoot .destroyed, rfl, rfl, fun part => ?_, set⟩
    cases part <;> decide
  · refine ⟨(overlaid.setLife .mOverlaySystem .destroyed).setLife .mRoot .destroyed, rfl, rfl,
      fun part => ?_, set⟩
    cases part <;> decide

def Leaves (spared : Part → Prop) (ending : Ending Oculus.Stop Application Unit) : Prop :=
  ∃ app, ending = .returned ⟨⟩ app ∧ (∀ part, app.life part = .alive ↔ spared part) ∧
    ∀ c, app.msSingleton c = false

theorem Leaves.returns {spared : Part → Prop} {ending : Ending Oculus.Stop Application Unit}
    (leaves : Leaves spared ending) : ending.returns := by
  obtain ⟨app, rfl, -⟩ := leaves
  rfl

theorem leaves_of_deleted {app₁ : Application} {spared : Part → Prop}
    (ran : (deleteManagers world).run s = .returned ⟨⟩ app₁)
    (gone : ∀ part, app₁.life part = .alive ↔ spared part) (root : app₁.life .mRoot ≠ .alive)
    (set : ∀ c, app₁.msSingleton c = true ↔ c = .baseApplication)
    (formed : app₁.oculus.Formed) (safe : ¬ app₁.oculus.Spent) :
    (((destructor world).run s).returns ↔
      app₁.oculus.Clears false ∧ app₁.oculus.m_oculusReady = false) ∧
    (((destructor world).run s).returns → Leaves spared ((destructor world).run s)) := by
  obtain ⟨iff, ended⟩ := destructor_returns ran root ((set _).mpr rfl) formed safe
  refine ⟨iff, fun returns => ?_⟩
  cases run : (destructor world).run s with
  | stopped e app =>
      rw [run] at returns
      cases returns
  | returned value app =>
      obtain ⟨life, singletons⟩ := ended app run
      refine ⟨app, rfl, fun part => by rw [life, gone], fun c => ?_⟩
      rw [singletons]
      by_cases own : c = .baseApplication
      · rw [if_pos own]
      · rw [if_neg own, ← Bool.not_eq_true, set]
        exact own

theorem destructor_early (world : World) (early : s = begun ∨ s = rooted ∨ s = overlaid) :
    Leaves (fun _ => False) ((destructor world).run s) := by
  obtain ⟨app₁, ran, headset, gone, set⟩ := deleteManagers_early world early
  have formed : app₁.oculus.Formed := headset ▸ Oculus.formed_constructed
  have safe : ¬ app₁.oculus.Spent := headset ▸ Oculus.not_spent_constructed
  obtain ⟨iff, leaves⟩ := leaves_of_deleted ran (fun part => iff_of_false (gone part) id)
    (gone .mRoot) set formed safe
  refine leaves (iff.mpr ?_)
  rw [headset]
  exact ⟨Oculus.clears_constructed, rfl⟩

theorem destructor_late (world : World) {m : Joysticks.Polling} {opened : List Joysticks.Handle}
    (managed : Managed s) (joysticks : s.joysticks = some (m, ⟨opened, []⟩))
    (formed : s.oculus.Formed) (safe : ¬ s.oculus.Spent) :
    (((destructor world).run s).returns ↔
      (Joysticks.destroy m ⟨opened, []⟩ world.numJoysticks world.attached).isSome ∧
        s.oculus.Clears false ∧ s.oculus.m_oculusReady = false) ∧
    (((destructor world).run s).returns →
      Leaves (fun part => part = .mLuaState ∧ s.life .mScriptManager = .absent)
        ((destructor world).run s)) := by
  cases closed : Joysticks.destroy m ⟨opened, []⟩ world.numJoysticks world.attached with
  | none =>
      obtain ⟨app₁, stopped⟩ := deleteManagers_undefined managed joysticks closed
      rw [destructor, bind_of_stopped stopped]
      exact ⟨by simp [Ending.returns], fun returns => absurd returns Bool.false_ne_true⟩
  | some handles' =>
      obtain ⟨app₁, ran, headset, gone, root, set⟩ := deleteManagers_run managed joysticks closed
      have whole := leaves_of_deleted ran gone (by rw [root]; decide) set
        (by rw [headset]; exact formed) (by rw [headset]; exact safe)
      rw [headset] at whole
      exact ⟨whole.1.trans (by simp), whole.2⟩

section late

variable {m : Joysticks.Polling} {opened : List Joysticks.Handle}

/-- How the program ends once the scripts have run: well only if Ogre refuses the node for the
cameras, and there is no sensor. -/
theorem scripted_returns (opens : world.Opens) (heard : world.irrKlang)
    (made : Joysticks.constructed 640 480 0 0 world.reported world.opens = some (m, opened))
    (ran : world.scripts) :
    (((main world).run start).returns ↔
      (Joysticks.destroy m ⟨opened, []⟩ world.numJoysticks world.attached).isSome ∧
        ¬ world.display.createChildSceneNode ∧ ¬ world.devices.All) ∧
    (((main world).run start).returns → Leaves (fun _ => False) ((main world).run start)) := by
  have initialized := (initialize_opens opens).trans (initializeManagers_scripted heard made ran)
  have setUp := Oculus.formed_constructed.setUp world.devices
  set o := (Oculus.constructed.setupOculus world.devices).1
  have unspent : ¬ o.Spent := fun spent => Oculus.not_spent_constructed (setUp.spent.mp spent).1
  have ready : o.m_oculusReady = false ↔ ¬ world.devices.All := by
    rw [← Bool.not_eq_true, setUp.ready]
    exact not_congr (or_iff_right Bool.false_ne_true)
  -- the members for Ogre that `setupOgre` leaves decide how the destructor ends
  have ends : ∀ r, ((Oculus.setupOgre world.display).run o).resumes (· = .exception) =
      some (o.withRig r) → (main world).run start =
        (destructor world).run { scripted m opened with oculus := o.withRig r } := fun r drawn =>
    main_of_handled (body_handled (initialized ▸ scene_ends drawn) rfl)
  have late : ∀ r, (((destructor world).run
      { scripted m opened with oculus := o.withRig r }).returns ↔
        (Joysticks.destroy m ⟨opened, []⟩ world.numJoysticks world.attached).isSome ∧
          r.Clears false ∧ o.m_oculusReady = false) ∧ _ := fun r =>
    destructor_late world (managed_scripted m opened (o.withRig r)) rfl (setUp.formed.withRig r)
      unspent
  by_cases node : world.display.createChildSceneNode
  · have never : ¬ ((main world).run start).returns := by
      cases drawn : ((Oculus.setupOgre world.display).run o).resumes (· = .exception) with
      | none =>
          obtain ⟨s, stopped⟩ := scene_undefined (scripted m opened) drawn
          exact main_undefined (initialized.trans stopped)
      | some o' =>
          have spec := Oculus.setupOgre_spec world.display o
          rw [drawn] at spec
          obtain ⟨r, rfl⟩ := spec.drawn
          rw [ends r drawn, (late r).1]
          rintro ⟨-, clears, -⟩
          exact Bool.false_ne_true (clears.node (Oculus.setupOgre_with_node node drawn)).1
    exact ⟨iff_of_false never fun all => all.2.1 node, fun returns => absurd returns never⟩
  · obtain ⟨iff, leaves⟩ := late o.entered
    have clears : o.entered.Clears false := by
      rw [Oculus.Rig.entered, setUp.rig]
      exact Oculus.clears_entered
    rw [ends _ (Oculus.setupOgre_without_node node)]
    refine ⟨iff.trans ?_, fun returns => ?_⟩
    · rw [ready, and_iff_right clears, and_iff_right node]
    · obtain ⟨app, run, gone, set⟩ := leaves returns
      refine ⟨app, run, fun part => (gone part).trans ?_, set⟩
      have alive : (scripted m opened).life .mScriptManager = .alive := rfl
      exact iff_of_false (fun both => absurd (alive.symm.trans both.2) (by decide)) id

/-- A script has thrown, and its Lua state is never closed. -/
theorem unscripted_returns (opens : world.Opens) (heard : world.irrKlang)
    (made : Joysticks.constructed 640 480 0 0 world.reported world.opens = some (m, opened))
    (threw : world.scripts = false) :
    (((main world).run start).returns ↔
      (Joysticks.destroy m ⟨opened, []⟩ world.numJoysticks world.attached).isSome) ∧
    (((main world).run start).returns → Leaves (· = .mLuaState) ((main world).run start)) := by
  have initialized := (initialize_opens opens).trans
    (initializeManagers_unscripted heard made threw)
  rw [main_of_handled (body_handled (.inl initialized) rfl)]
  obtain ⟨iff, leaves⟩ := destructor_late world (managed_unscripted m opened) rfl
    Oculus.formed_constructed Oculus.not_spent_constructed
  refine ⟨iff.trans (and_iff_left ⟨Oculus.clears_constructed, rfl⟩), fun returns => ?_⟩
  obtain ⟨app, run, gone, set⟩ := leaves returns
  exact ⟨app, run, fun part => (gone part).trans (and_iff_left rfl), set⟩

end late

theorem main_without_sdl (sdl : world.sdl = false) :
    Leaves (fun _ => False) ((main world).run start) := by
  have first : (initializeApplication world).run begun = .returned 1 begun := by
    rw [initializeApplication, sdl, stage_fails rfl]
  have ran : (body world).run begun = .returned ⟨⟩ begun := by
    rw [body, bind_of_returned first]
    rfl
  rw [main_of_handled (handle_returned ran _ _)]
  exact destructor_early world (.inl rfl)

theorem main_without_root (sdl : world.sdl) (root : world.root = false) :
    ¬ ((main world).run start).returns := by
  have first : (initializeRoot world).run begun = .stopped .exception begun := by
    rw [initializeRoot, root]
    rfl
  have second : (initializeApplication world).run begun = .stopped .exception begun := by
    rw [initializeApplication, sdl, stage_goes rfl, stage_throws first]
  have threw : (body world).run begun = .stopped .exception begun := by
    rw [body, bind_of_stopped second]
  have handled := handle_stopped threw (· = .exception) logFatalError
  rw [main_run, bind_of_stopped (handled.trans (if_pos (by decide)))]
  exact Bool.false_ne_true

theorem main_closed (less : ¬ world.Opens) :
    (((main world).run start).returns ↔ (world.sdl → world.root)) ∧
      (((main world).run start).returns → Leaves (fun _ => False) ((main world).run start)) := by
  cases sdl : world.sdl with
  | false =>
      have leaves := main_without_sdl sdl
      exact ⟨iff_of_true leaves.returns fun got => absurd got Bool.false_ne_true, fun _ => leaves⟩
  | true =>
      cases root : world.root with
      | false =>
          have never := main_without_root sdl root
          refine ⟨iff_of_false never fun both => ?_, fun returns => absurd returns never⟩
          exact Bool.false_ne_true (both rfl)
      | true =>
          obtain ⟨s, early, ends⟩ := initialize_ends sdl root less
          have alive : s.life .mRoot = .alive := by
            rcases early with rfl | rfl <;> rfl
          have leaves := destructor_early world (.inr early)
          rw [main_of_handled (body_handled ends alive)]
          exact ⟨iff_of_true leaves.returns fun _ => rfl, fun _ => leaves⟩

theorem main_opened (opens : world.Opens) :
    (((main world).run start).returns ↔ (world.irrKlang ∧ world.ClosesJoysticks) ∧
      (world.scripts → ¬ world.display.createChildSceneNode ∧ ¬ world.devices.All)) ∧
    (((main world).run start).returns →
      Leaves (fun part => part = .mLuaState ∧ ¬ world.scripts) ((main world).run start)) := by
  have initialized := initialize_opens opens
  cases heard : world.irrKlang with
  | false =>
      obtain ⟨s, stopped⟩ := initializeManagers_silent heard
      have never := main_undefined (initialized.trans stopped)
      refine ⟨iff_of_false never fun all => ?_, fun returns => absurd returns never⟩
      exact Bool.false_ne_true all.1.1
  | true =>
      cases made : Joysticks.constructed 640 480 0 0 world.reported world.opens with
      | none =>
          obtain ⟨s, stopped⟩ := initializeManagers_crowded heard made
          have never := main_undefined (initialized.trans stopped)
          refine ⟨iff_of_false never ?_, fun returns => absurd returns never⟩
          rintro ⟨⟨-, m, opened, made', -⟩, -⟩
          cases made.symm.trans made'
      | some joysticks =>
          obtain ⟨m, opened⟩ := joysticks
          have closes : world.ClosesJoysticks ↔ (Joysticks.destroy m ⟨opened, []⟩
              world.numJoysticks world.attached).isSome := by
            constructor
            · rintro ⟨m', opened', made', closed⟩
              obtain ⟨rfl, rfl⟩ := Prod.mk.inj (Option.some.inj (made.symm.trans made'))
              exact closed
            · exact fun closed => ⟨m, opened, made, closed⟩
          cases ran : world.scripts with
          | false =>
              obtain ⟨iff, leaves⟩ := unscripted_returns opens heard made ran
              exact ⟨iff.trans (by simp [closes]), fun returns => by simpa using leaves returns⟩
          | true =>
              obtain ⟨iff, leaves⟩ := scripted_returns opens heard made ran
              exact ⟨iff.trans (by simp [closes]), fun returns => by simpa using leaves returns⟩

/-- The program ends well exactly if the root of Ogre is made as soon as SDL is there, irrKlang
and the joysticks do what is expected of them, and Ogre refuses the node for the cameras and
there is no sensor when the scene comes to the headset. -/
theorem main_returns_iff (world : World) :
    ((main world).run start).returns ↔ (world.sdl → world.root) ∧ (world.Opens →
      (world.irrKlang ∧ world.ClosesJoysticks) ∧
        (world.scripts → ¬ world.display.createChildSceneNode ∧ ¬ world.devices.All)) := by
  by_cases opens : world.Opens
  · rw [(main_opened opens).1, and_iff_right fun _ => opens.2.1]
    exact (imp_iff_right opens).symm
  · rw [(main_closed opens).1, and_iff_left fun got => absurd got opens]

/-- When the program ends well, all that it has made is destroyed, but the Lua state if a script
threw, and no singleton is set. -/
theorem main_destroysAll {world : World} (returns : ((main world).run start).returns) :
    Leaves (fun part => part = .mLuaState ∧ world.Opens ∧ ¬ world.scripts)
      ((main world).run start) := by
  by_cases opens : world.Opens
  · obtain ⟨app, run, gone, set⟩ := (main_opened opens).2 returns
    exact ⟨app, run, fun part => (gone part).trans (by simp [opens]), set⟩
  · obtain ⟨app, run, gone, set⟩ := (main_closed opens).2 returns
    exact ⟨app, run, fun part => (gone part).trans (by simp [opens]), set⟩

def throwing : World where
  sdl := true
  root := true
  showConfigDialog := .succeeds
  log := true
  window := .succeeds
  sceneManager := .succeeds
  resources := true
  overlays := true
  irrKlang := true
  reported := 0
  opens _ := false
  scripts := false
  devices := ⟨false, false, false⟩
  display := ⟨true, fun _ => true, true, true, true, fun _ => true, fun _ => true⟩
  scene := true
  loop := true
  numJoysticks := 0
  attached _ := false

theorem main_throwing : Leaves (fun part => part = .mLuaState ∧ throwing.Opens ∧ ¬ throwing.scripts)
    ((main throwing).run start) :=
  main_destroysAll rfl

end whole

end Ssuge.Application

import Ssuge.OculusDisplay

/-! Calls of the class `Oculus` in any order, while the root of Ogre exists and exceptions are
caught. What may be called is decided by the history: by what was found, set up and shut down
since. -/

namespace Ssuge.Oculus

open Procedure OwnedPool GuardedRun Histories

/-- A call from outside, while the root of Ogre exists. -/
inductive Call
  | setupOculus (devices : Devices)
  | setupOgre (display : Display)
  | shutDownOculus
  | shutDownOgre
  | update
  | resetOrientation

def Call.proc : Call → Proc Stop Oculus Unit
  | setupOculus devices => modify fun o => (o.setupOculus devices).1
  | setupOgre display => discard (Oculus.setupOgre display)
  | shutDownOculus => Oculus.shutDownOculus
  | shutDownOgre => Oculus.shutDownOgre true
  | update => Oculus.update
  | resetOrientation => Oculus.resetOrientation

/-- An exception is caught by the caller. -/
def step (o : Oculus) (call : Call) : Option Oculus :=
  (call.proc.run o).resumes (· = .exception)

namespace Call

def Readies : Call → Prop
  | setupOculus devices => devices.All
  | _ => False

def FindsHeadset : Call → Prop
  | setupOculus devices => devices.Headset
  | _ => False

def FindsManager : Call → Prop
  | setupOculus devices => devices.deviceManager
  | _ => False

def Leaves : Call → Prop
  | setupOgre display => display.Leaves
  | _ => False

def Attaches : Call → Prop
  | setupOgre display => display.Attaches
  | _ => False

end Call

section histories

variable (calls : List Call)

/-- A headset was set up, and not shut down since. -/
def Readied : Prop := Since (fun _ call => call.Readies) (· = .shutDownOculus) calls

/-- A headset that was set up was shut down, and none was found since. -/
def SensorSpent : Prop :=
  Since (fun before call => call = .shutDownOculus ∧ Readied before) Call.FindsHeadset calls

/-- A device manager was found, and not shut down since. -/
def Configured : Prop := Since (fun _ call => call.FindsManager) (· = .shutDownOculus) calls

/-- A camera was left without a node, and both were not attached since. -/
def CameraLoose : Prop := Since (fun _ call => call.Leaves) Call.Attaches calls

end histories

/-- What may be called after a history: no shutdown of a headset that was shut down, a display
only with its resources and a device manager, and no shutdown of a camera without a node. -/
def Allowed (before : List Call) : Call → Prop
  | .shutDownOculus => ¬ SensorSpent before
  | .setupOgre display => display.Finds ∧ (display.Asks → Configured before)
  | .shutDownOgre => ¬ CameraLoose before
  | _ => True

structure Told (before : List Call) (o : Oculus) : Prop where
  formed : Formed o
  framed : o.Framed
  ready : o.m_oculusReady ↔ Readied before
  spent : Spent o ↔ SensorSpent before
  config : o.Live .stereoConfig ↔ Configured before
  loose : o.Loose ↔ CameraLoose before

theorem told_constructed : Told [] constructed where
  formed := formed_constructed
  framed := ⟨nofun, nofun, nofun, nofun, nofun⟩
  ready := iff_of_false (by decide) since_nil
  spent := iff_of_false not_spent_constructed since_nil
  config := iff_of_false (by decide) since_nil
  loose := iff_of_false (fun ⟨_, has, _⟩ => nomatch has) since_nil

section runs

variable {before : List Call} {o o' : Oculus} {call : Call}

theorem Told.idle (told : Told before o) (idle : call = .update ∨ call = .resetOrientation) :
    Told (before ++ [call]) o := by
  have flags : ¬ call.Readies ∧ ¬ call.FindsHeadset ∧ ¬ call.FindsManager ∧ ¬ call.Leaves ∧
      ¬ call.Attaches ∧ call ≠ .shutDownOculus := by
    rcases idle with rfl | rfl <;> exact ⟨id, id, id, id, id, nofun⟩
  obtain ⟨readies, headset, manager, leaves, attaches, open_⟩ := flags
  refine ⟨told.formed, told.framed, ?_, ?_, ?_, ?_⟩
  · rw [told.ready, Readied, Readied, since_snoc]
    simp [readies, open_]
  · rw [told.spent, SensorSpent, SensorSpent, since_snoc]
    simp [headset, open_]
  · rw [told.config, Configured, Configured, since_snoc]
    simp [manager, open_]
  · rw [told.loose, CameraLoose, CameraLoose, since_snoc]
    simp [leaves, attaches]

theorem Told.setupOculus (told : Told before o) (devices : Devices) :
    Told (before ++ [.setupOculus devices]) (o.setupOculus devices).1 := by
  have setUp := told.formed.setUp devices
  refine ⟨setUp.formed, setUp.rig ▸ told.framed, ?_, ?_, ?_, ?_⟩
  · rw [setUp.ready, told.ready, Readied, Readied, since_snoc]
    simp [Call.Readies, or_comm]
  · rw [setUp.spent, told.spent, SensorSpent, SensorSpent, since_snoc]
    simp [Call.FindsHeadset]
  · rw [setUp.config, told.config, Configured, Configured, since_snoc]
    simp [Call.FindsManager, or_comm]
  · rw [setUp.rig, told.loose, CameraLoose, CameraLoose, since_snoc]
    simp [Call.Leaves, Call.Attaches]

theorem Told.shutDownOculus (told : Told before o) (safe : ¬ Spent o) (down : ShutDown o o') :
    Told (before ++ [.shutDownOculus]) o' := by
  have dead : ∀ member, ¬ o'.Live member := fun member live =>
    live_iff.mp live (down.holds member)
  have held := told.formed.sensor_iff safe
  refine ⟨down.formed, down.rig ▸ told.framed, ?_, ?_, ?_, ?_⟩
  · rw [down.ready, Readied, since_snoc]
    simp [Call.Readies]
  · rw [told.spent] at safe
    rw [Spent, and_iff_left (dead _), down.sensor, held, told.ready, SensorSpent, since_snoc]
    rw [SensorSpent] at safe
    simp [safe]
  · rw [Configured, since_snoc]
    simp [dead, Call.FindsManager]
  · rw [down.rig, told.loose, CameraLoose, CameraLoose, since_snoc]
    simp [Call.Leaves, Call.Attaches]

theorem Told.setupOgre (told : Told before o) {display : Display}
    (drawn : Drawn display o o') : Told (before ++ [.setupOgre display]) o' := by
  obtain ⟨r, rfl⟩ := drawn.drawn
  refine ⟨told.formed.withRig r, drawn.framed told.framed, ?_, ?_, ?_, ?_⟩
  · change o.m_oculusReady ↔ _
    rw [told.ready, Readied, Readied, since_snoc]
    simp [Call.Readies]
  · change Spent o ↔ _
    rw [told.spent, SensorSpent, SensorSpent, since_snoc]
    simp [Call.FindsHeadset]
  · rw [live_withRig, told.config, Configured, Configured, since_snoc]
    simp [Call.FindsManager]
  · rw [drawn.loose, told.loose, CameraLoose, CameraLoose, since_snoc]
    rfl

theorem Told.shutDownOgre (told : Told before o) (attached : ¬ o.Loose) :
    Told (before ++ [.shutDownOgre]) (o.withRig o.cleared) := by
  refine ⟨told.formed.withRig _, o.framed_cleared, ?_, ?_, ?_, ?_⟩
  · change o.m_oculusReady ↔ _
    rw [told.ready, Readied, Readied, since_snoc]
    simp [Call.Readies]
  · change Spent o ↔ _
    rw [told.spent, SensorSpent, SensorSpent, since_snoc]
    simp [Call.FindsHeadset]
  · rw [live_withRig, told.config, Configured, Configured, since_snoc]
    simp [Call.FindsManager]
  · rw [told.loose, CameraLoose] at attached
    rw [toRig_withRig, CameraLoose, since_snoc]
    exact iff_of_false o.not_loose_cleared fun since => since.elim id fun old => attached old.1

theorem update_run (told : Told before o) : Oculus.update.run o = .returned () o := by
  have node : o.m_ogreReady → o.m_cameraNode := told.framed.ready
  have fusion : o.m_ogreReady ∧ o.m_oculusReady → o.Live .sensorFusion := fun both =>
    told.formed.used both.2 _
  rw [Oculus.update, bind_get_run, bind_require_run, if_pos node, require_pos fusion]

theorem resetOrientation_run (told : Told before o) :
    resetOrientation.run o = .returned () o := by
  have safe := told.formed.others .sensorFusion (by decide)
  rw [resetOrientation, accessHeld, bind_get_run, require_pos safe]

end runs

section steps

variable {before : List Call} {o : Oculus}

/-- What a call does, or that it may not be made. -/
theorem Told.step (told : Told before o) (call : Call) :
    (step o call).elim (¬ Allowed before call)
      fun o' => Allowed before call ∧ Told (before ++ [call]) o' := by
  cases call with
  | setupOculus devices => exact ⟨trivial, told.setupOculus devices⟩
  | setupOgre display =>
      have spec := setupOgre_spec display o
      rw [Oculus.step, Call.proc, resumes_discard]
      cases resumed : ((Oculus.setupOgre display).run o).resumes (· = .exception) with
      | none =>
          rw [resumed] at spec
          exact fun allowed => spec ⟨allowed.1, fun asks => told.config.mpr (allowed.2 asks)⟩
      | some o' =>
          rw [resumed] at spec
          exact ⟨⟨spec.finds, fun asks => told.config.mp (spec.config asks)⟩,
            told.setupOgre spec.toDrawn⟩
  | shutDownOculus =>
      by_cases spent : Spent o
      · obtain ⟨o', run⟩ := told.formed.shutDown_spent spent
        rw [Oculus.step, Call.proc, run]
        exact fun allowed => allowed (told.spent.mp spent)
      · obtain ⟨o', run, down⟩ := told.formed.shutDown spent
        rw [Oculus.step, Call.proc, run]
        exact ⟨fun again => spent (told.spent.mpr again), told.shutDownOculus spent down⟩
  | shutDownOgre =>
      by_cases loose : o.Loose
      · have stuck : ¬ o.Clears true := fun clears => told.framed.clears_iff.mp clears loose
        obtain ⟨o', run⟩ := shutDownOgre_undefined stuck
        rw [Oculus.step, Call.proc, run]
        exact fun allowed => allowed (told.loose.mp loose)
      · rw [Oculus.step, Call.proc, shutDownOgre_returned (told.framed.clears_iff.mpr loose)]
        exact ⟨fun again => loose (told.loose.mpr again), told.shutDownOgre loose⟩
  | update =>
      rw [Oculus.step, Call.proc, update_run told]
      exact ⟨trivial, told.idle (.inl rfl)⟩
  | resetOrientation =>
      rw [Oculus.step, Call.proc, resetOrientation_run told]
      exact ⟨trivial, told.idle (.inr rfl)⟩

theorem Told.isSome_iff (told : Told before o) (call : Call) :
    (Oculus.step o call).isSome ↔ Allowed before call := by
  have spec := told.step call
  cases stepped : Oculus.step o call with
  | none =>
      rw [stepped] at spec
      exact iff_of_false nofun spec
  | some o' =>
      rw [stepped] at spec
      exact iff_of_true rfl spec.1

theorem Told.next {o' : Oculus} {call : Call} (told : Told before o)
    (stepped : Oculus.step o call = some o') : Told (before ++ [call]) o' := by
  have spec := told.step call
  rw [stepped] at spec
  exact spec.2

/-- Calls of any kind in any order are all defined exactly if each of them may be made after
those before it: no headset is shut down again before another one is found, no display is set
up without its resources or with no device manager found since the last shutdown, and none is
shut down while the last attempt that got as far as a camera left one without a node. -/
theorem calls_defined_iff (calls : List Call) :
    (runSteps step constructed calls).isSome ↔
      ∀ before call, before ++ [call] <+: calls → Allowed before call :=
  runs_through_iff (I := Told) told_constructed
    (fun _ _ call told => told.isSome_iff call) fun _ _ _ _ told stepped => told.next stepped

/-- A headset that was ready is shut down twice. -/
example : (runSteps step constructed
    [.setupOculus ⟨true, true, true⟩, .shutDownOculus, .shutDownOculus]).isNone := rfl

end steps

section leaks

variable {o o' : Oculus}

def assignAll (o : Oculus) (assigned : List (Member × Bool)) : Oculus :=
  assigned.foldl (fun o a => o.assign a.1 a.2) o

def Devices.assigned (devices : Devices) : List (Member × Bool) :=
  (.deviceManager, devices.deviceManager) :: if !devices.deviceManager then [] else
    (.stereoConfig, true) :: (.hmd, devices.hmd) :: if !devices.hmd then [] else
      (.sensor, devices.sensor) :: if !devices.sensor then [] else [(.sensorFusion, true)]

theorem flag_same (asleep : o.m_oculusReady = false) : o = { o with m_oculusReady := false } := by
  rw [← asleep]

theorem setupOculus_eq (asleep : o.m_oculusReady = false) (devices : Devices) :
    (o.setupOculus devices).1 = { o.assignAll devices.assigned with
      m_oculusReady := devices.deviceManager && (devices.hmd && devices.sensor) } := by
  obtain ⟨deviceManager, hmd, sensor⟩ := devices
  rw [setupOculus, if_neg (by simp [asleep])]
  cases deviceManager with
  | false => exact flag_same asleep
  | true =>
      cases hmd with
      | false => exact flag_same asleep
      | true =>
          cases sensor with
          | false => exact flag_same asleep
          | true => rfl

theorem Devices.assigned_nodup (devices : Devices) : (devices.assigned.map Prod.fst).Nodup := by
  obtain ⟨deviceManager, hmd, sensor⟩ := devices
  revert deviceManager hmd sensor
  decide

theorem accounted_assignAll_iff {assigned : List (Member × Bool)} (sound : Sound o)
    (nodup : (assigned.map Prod.fst).Nodup) :
    Accounted (o.assignAll assigned).pool (o.assignAll assigned).holds ↔
      Accounted o.pool o.holds ∧ ∀ a ∈ assigned, o.holds a.1 = none := by
  induction assigned generalizing o with
  | nil => simp [assignAll]
  | cons a assigned ih =>
      obtain ⟨apart, nodup⟩ := List.nodup_cons.mp nodup
      have rest : ∀ b ∈ assigned, (o.assign a.1 a.2).holds b.1 = o.holds b.1 := by
        intro b member
        have other : b.1 ≠ a.1 := fun same => apart (same ▸ List.mem_map_of_mem member)
        rw [holds_assign sound, Function.update_of_ne other]
      rw [assignAll, List.foldl_cons]
      refine (ih (sound.assign a.1 a.2) nodup).trans ?_
      rw [accounted_assign_iff sound, List.forall_mem_cons, and_assoc]
      refine and_congr_right fun _ => and_congr_right fun _ => ?_
      exact forall₂_congr fun b member => by rw [rest b member]

/-- Nothing is held, or at least what `setupOculus` asks for first. -/
def Together (o : Oculus) : Prop :=
  (∀ member, o.holds member = none) ∨ o.Live .deviceManager ∧ o.Live .stereoConfig

theorem Formed.accounted_setup_iff (formed : Formed o) (together : Together o)
    (accounted : Accounted o.pool o.holds) (devices : Devices) :
    Accounted (o.setupOculus devices).1.pool (o.setupOculus devices).1.holds ↔
      (o.m_oculusReady ∨ ¬ o.Live .stereoConfig) := by
  cases ready : o.m_oculusReady with
  | true =>
      rw [setupOculus, if_pos ready]
      simp [accounted]
  | false =>
      rw [setupOculus_eq ready]
      refine (accounted_assignAll_iff formed.toSound devices.assigned_nodup).trans ?_
      rcases together with empty | ⟨manager, config⟩
      · exact iff_of_true ⟨accounted, fun a _ => empty a.1⟩
          (.inr fun live => live_iff.mp live (empty _))
      · refine iff_of_false (fun both => live_iff.mp manager ?_) (by simp [config])
        exact both.2 (.deviceManager, devices.deviceManager) List.mem_cons_self

theorem Formed.together_setup (formed : Formed o) (together : Together o)
    (guard : o.m_oculusReady ∨ ¬ o.Live .stereoConfig) (devices : Devices) :
    Together (o.setupOculus devices).1 := by
  have setUp := formed.setUp devices
  cases manager : devices.deviceManager with
  | true => exact .inr ⟨setUp.manager manager, setUp.config.mpr (.inr manager)⟩
  | false =>
      cases ready : o.m_oculusReady with
      | true =>
          rw [setupOculus, if_pos ready]
          exact together
      | false =>
          rcases together with empty | ⟨-, config⟩
          · refine .inl fun member => ?_
            rw [setupOculus_eq ready, Devices.assigned, manager]
            change (o.setNull .deviceManager).holds member = none
            rw [holds_setNull, update_none (empty _), empty]
          · simp [ready, config] at guard

theorem Told.step_devices {before : List Call} {call : Call} (told : Told before o)
    (stepped : Oculus.step o call = some o') :
    (∃ devices, call = .setupOculus devices ∧ o' = (o.setupOculus devices).1) ∨
      (∀ devices, call ≠ .setupOculus devices) ∧ (ShutDown o o' ∨ ∃ r, o' = o.withRig r) := by
  cases call with
  | setupOculus devices => exact .inl ⟨devices, rfl, (Option.some.inj stepped).symm⟩
  | setupOgre display =>
      have spec := setupOgre_spec display o
      rw [Oculus.step, Call.proc, resumes_discard] at stepped
      rw [stepped] at spec
      exact .inr ⟨nofun, .inr spec.drawn⟩
  | shutDownOculus =>
      have spec := told.step .shutDownOculus
      rw [stepped] at spec
      obtain ⟨o'', run, down⟩ := told.formed.shutDown fun spent => spec.1 (told.spent.mp spent)
      rw [Oculus.step, Call.proc, run] at stepped
      obtain rfl := Option.some.inj stepped
      exact .inr ⟨nofun, .inl down⟩
  | shutDownOgre =>
      have spec := told.step .shutDownOgre
      rw [stepped] at spec
      have clears := told.framed.clears_iff.mpr fun loose => spec.1 (told.loose.mp loose)
      rw [Oculus.step, Call.proc, shutDownOgre_returned clears] at stepped
      exact .inr ⟨nofun, .inr ⟨_, (Option.some.inj stepped).symm⟩⟩
  | update =>
      rw [Oculus.step, Call.proc, update_run told] at stepped
      exact .inr ⟨nofun, .inr ⟨o.toRig, (Option.some.inj stepped).symm⟩⟩
  | resetOrientation =>
      rw [Oculus.step, Call.proc, resetOrientation_run told] at stepped
      exact .inr ⟨nofun, .inr ⟨o.toRig, (Option.some.inj stepped).symm⟩⟩

/-- No call but a second attempt loses anything. -/
theorem Told.accounted_step {before : List Call} {call : Call} (told : Told before o)
    (together : Together o) (accounted : Accounted o.pool o.holds)
    (stepped : Oculus.step o call = some o') : Accounted o'.pool o'.holds ↔
      ∀ devices, call = .setupOculus devices → Readied before ∨ ¬ Configured before := by
  rcases told.step_devices stepped with ⟨devices, rfl, rfl⟩ | ⟨other, down | ⟨r, rfl⟩⟩
  · rw [told.formed.accounted_setup_iff together accounted, told.ready, told.config]
    simp
  · exact iff_of_true (down.accounted accounted) fun devices same => absurd same (other devices)
  · exact iff_of_true accounted fun devices same => absurd same (other devices)

theorem Told.together_step {before : List Call} {call : Call} (told : Told before o)
    (together : Together o) (stepped : Oculus.step o call = some o')
    (guard : ∀ devices, call = .setupOculus devices → Readied before ∨ ¬ Configured before) :
    Together o' := by
  rcases told.step_devices stepped with ⟨devices, rfl, rfl⟩ | ⟨other, down | ⟨r, rfl⟩⟩
  · refine told.formed.together_setup together ?_ devices
    rw [told.ready, told.config]
    exact guard devices rfl
  · exact .inl down.holds
  · exact together

/-- In a run of calls that are all defined, everything that the library gave is at any time held
by a member or was given back once, exactly if no set-up comes after one that found a device
manager and then failed, with no shutdown since. -/
theorem nothingLost_iff {calls : List Call} (defined : (runSteps step constructed calls).isSome) :
    Throughout step (fun o => Accounted o.pool o.holds) constructed calls ↔
      ∀ before call, before ++ [call] <+: calls → ∀ devices, call = .setupOculus devices →
        Readied before ∨ ¬ Configured before := by
  obtain ⟨o, reached⟩ := Option.isSome_iff_exists.mp defined
  clear defined
  suffices both : (Throughout step (fun o => Accounted o.pool o.holds) constructed calls ↔ _) ∧
      (Throughout step (fun o => Accounted o.pool o.holds) constructed calls → Together o) from
    both.1
  induction calls using List.reverseRecOn generalizing o with
  | nil =>
      obtain rfl := Option.some.inj reached
      exact ⟨iff_of_true (throughout_nil.mpr accounted_empty) (by simp), fun _ => .inl fun _ => rfl⟩
  | append_singleton calls call ih =>
      obtain ⟨o₁, first, stepped⟩ := Option.bind_eq_some_iff.mp (runSteps_snoc .. ▸ reached)
      obtain ⟨same, together⟩ := ih o₁ first
      have told : Told calls o₁ := Histories.told (I := Told) told_constructed
        (fun _ _ _ _ told stepped => told.next stepped) first
      have last : Throughout step (fun o => Accounted o.pool o.holds) constructed calls →
          (Accounted o.pool o.holds ↔ ∀ devices, call = .setupOculus devices →
            Readied calls ∨ ¬ Configured calls) := fun all =>
        told.accounted_step (together all) (all calls (List.prefix_refl _) o₁ first) stepped
      rw [throughout_snoc, forall_prefix_snoc, ← same]
      refine ⟨and_congr_right fun all => ?_, fun ⟨all, ended⟩ => ?_⟩
      · rw [← last all]
        exact ⟨fun ended => ended o reached, fun accounted s here =>
          Option.some.inj (reached.symm.trans here) ▸ accounted⟩
      · exact told.together_step (together all) stepped ((last all).mp (ended o reached))

/-- A headset that is set up and shut down. -/
theorem nothingLost_once : Throughout step (fun o => Accounted o.pool o.holds) constructed
    ([.setupOculus ⟨true, true, true⟩] ++ [.shutDownOculus]) := by
  have alone : ∀ before call, before ++ [call] <+: [] ++ [.setupOculus ⟨true, true, true⟩] →
      ∀ devices, call = .setupOculus devices → Readied before ∨ ¬ Configured before :=
    forall_prefix_snoc.mpr ⟨by simp, fun _ _ => .inr since_nil⟩
  exact (nothingLost_iff rfl).mpr (forall_prefix_snoc.mpr ⟨alone, nofun⟩)

end leaks

end Ssuge.Oculus

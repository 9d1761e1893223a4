import Mathlib.Data.Fin.Basic
import Ssuge.Oculus

/-! The half of the class `Oculus` that sets up the display in Ogre. `setupOgre` may end early
at any call that throws, and leaves what it has made so far. Of the two cameras one may then be
attached to no node, and `shutDownOgre` would ask that camera for its parent. -/

namespace Ssuge.Oculus

open Procedure

section display

variable {o : Oculus} {β : Type}

@[simp] theorem bind_draw_run (f : Rig → Rig) (g : Unit → Proc Stop Oculus β) (o : Oculus) :
    (draw f >>= g).run o = (g ()).run (o.withRig (f o.toRig)) := rfl

@[simp] theorem toRig_withRig (o : Oculus) (r : Rig) : (o.withRig r).toRig = r := rfl

@[simp] theorem withRig_withRig (o : Oculus) (r r' : Rig) :
    (o.withRig r).withRig r' = o.withRig r' := rfl

theorem live_withRig {r : Rig} {member : Member} : (o.withRig r).Live member ↔ o.Live member :=
  Iff.rfl

theorem Formed.withRig {o : Oculus} (formed : Formed o) (r : Rig) : Formed (o.withRig r) :=
  ⟨⟨⟨formed.owned, formed.made⟩, formed.others⟩, formed.ready, formed.used⟩

variable (display : Display)

theorem createCamera_run (i : Fin 2) (g : Unit → Proc Stop Oculus β) :
    (createCamera display i >>= g).run o =
      if display.createCamera i then (g ()).run (o.withRig (o.toRig.newCamera i))
      else .stopped .exception o := by
  by_cases returns : display.createCamera i
  · rw [if_pos returns]
    refine bind_of_returned ?_ g
    rw [createCamera, bind_require_run, if_pos returns]
    rfl
  · rw [if_neg returns]
    refine bind_of_stopped ?_ g
    rw [createCamera, bind_require_run, if_neg returns]

theorem setupEye_run (live : o.Live .stereoConfig) (i : Fin 2)
    (g : Unit → Proc Stop Oculus β) : (setupEye display i >>= g).run o =
      if display.addViewport i then
        if display.addCompositor i then (g ()).run (o.withRig (o.toRig.withEye i true))
        else .stopped .undefined (o.withRig (o.toRig.withEye i false))
      else .stopped .exception (o.withRig (o.toRig.attach i)) := by
  have safe : (o.withRig (o.toRig.attach i)).members .stereoConfig = none ∨
      (o.withRig (o.toRig.attach i)).Live .stereoConfig := .inr live
  by_cases viewport : display.addViewport i
  · rw [if_pos viewport]
    by_cases compositor : display.addCompositor i
    · rw [if_pos compositor]
      refine bind_of_returned ?_ g
      rw [setupEye, bind_draw_run, accessHeld_run, if_pos safe, bind_require_run, if_pos viewport,
        bind_draw_run, bind_draw_run, require_pos compositor, compositor]
      rfl
    · rw [if_neg compositor]
      refine bind_of_stopped ?_ g
      rw [setupEye, bind_draw_run, accessHeld_run, if_pos safe, bind_require_run, if_pos viewport,
        bind_draw_run, bind_draw_run, require_neg compositor]
      rw [Bool.not_eq_true] at compositor
      rw [compositor]
      rfl
  · rw [if_neg viewport]
    refine bind_of_stopped ?_ g
    rw [setupEye, bind_draw_run, accessHeld_run, if_pos safe, bind_require_run, if_neg viewport]

theorem access_run (member : Member) (g : Unit → Proc Stop Oculus β) :
    (access member >>= g).run o = if o.Live member then (g ()).run o
      else .stopped .undefined o := by
  rw [access]
  exact bind_require_run ..

theorem setupOgre_run (display : Display) (o : Oculus) : (setupOgre display).run o =
    if display.createChildSceneNode then
      if display.createCamera 0 then
        if display.createCamera 1 then
          if display.material then
            if display.clone then
              if o.Live .stereoConfig then
                if display.compositor then
                  if display.addViewport 0 then
                    if display.addCompositor 0 then
                      if display.addViewport 1 then
                        if display.addCompositor 1 then
                          .returned true (o.withRig { (o.withCameras.withEye 0 true).withEye 1
                            true with m_ogreReady := true })
                        else .stopped .undefined
                          (o.withRig ((o.withCameras.withEye 0 true).withEye 1 false))
                      else .stopped .exception
                        (o.withRig ((o.withCameras.withEye 0 true).attach 1))
                    else .stopped .undefined (o.withRig (o.withCameras.withEye 0 false))
                  else .stopped .exception (o.withRig (o.withCameras.attach 0))
                else .stopped .undefined (o.withRig o.withCameras)
              else .stopped .undefined (o.withRig o.withCameras)
            else .stopped .exception (o.withRig o.withCameras)
          else .stopped .undefined (o.withRig o.withCameras)
        else .stopped .exception (o.withRig (o.withNode.newCamera 0))
      else .stopped .exception (o.withRig o.withNode)
    else .stopped .exception (o.withRig o.entered) := by
  rw [setupOgre]
  simp only [bind_draw_run, bind_require_run, createCamera_run, access_run, toRig_withRig,
    withRig_withRig, live_withRig]
  by_cases live : o.Live .stereoConfig
  · have eye := fun r i => setupEye_run (o := o.withRig r) (β := Bool) display live i
    simp only [eye, toRig_withRig, withRig_withRig]
    rfl
  · simp only [if_neg live]
    rfl

end display

structure Rig.Framed (r : Rig) : Prop where
  window : ∀ i, r.m_viewports i → r.m_window
  viewport : ∀ i, r.m_compositors i → r.m_viewports i
  camera : ∀ i, r.m_cameras i → r.m_sceneManager
  node : r.m_cameraNode → r.m_sceneManager
  ready : r.m_ogreReady → r.m_cameraNode

def Rig.Loose (r : Rig) : Prop := ∃ i, r.m_cameras i ∧ ¬ r.attached i

structure Drawn (display : Display) (o o' : Oculus) : Prop where
  drawn : ∃ r, o' = o.withRig r
  framed : o.Framed → o'.Framed
  loose : o'.Loose ↔ display.Leaves ∨ o.Loose ∧ ¬ display.Attaches

section loose

variable {r : Rig}

theorem Rig.loose_iff : r.Loose ↔
    (r.m_cameras 0 ∧ ¬ r.attached 0) ∨ (r.m_cameras 1 ∧ ¬ r.attached 1) := Fin.exists_fin_two

theorem Rig.Framed.entered (framed : r.Framed) : r.entered.Framed where
  window _ _ := rfl
  viewport := framed.viewport
  camera _ _ := rfl
  node _ := rfl
  ready := framed.ready

theorem Rig.Framed.withNode (framed : r.Framed) : r.withNode.Framed where
  window _ _ := rfl
  viewport := framed.viewport
  camera _ _ := rfl
  node _ := rfl
  ready _ := rfl

theorem Rig.Framed.newCamera (framed : r.Framed) (scene : r.m_sceneManager) (i : Fin 2) :
    (r.newCamera i).Framed where
  window := framed.window
  viewport := framed.viewport
  camera _ _ := scene
  node _ := scene
  ready := framed.ready

theorem Rig.Framed.withCameras (framed : r.Framed) : r.withCameras.Framed :=
  (framed.withNode.newCamera rfl 0).newCamera rfl 1

theorem Rig.Framed.attach (framed : r.Framed) (i : Fin 2) : (r.attach i).Framed where
  window := framed.window
  viewport := framed.viewport
  camera := framed.camera
  node := framed.node
  ready := framed.ready

theorem Rig.Framed.withEye (framed : r.Framed) (window : r.m_window) (i : Fin 2) (shown : Bool) :
    (r.withEye i shown).Framed where
  window _ _ := window
  viewport j has := by
    by_cases same : j = i
    · subst same
      exact Function.update_self ..
    · have has : Function.update r.m_compositors i shown j = true := has
      change Function.update r.m_viewports i true j = true
      rw [Function.update_of_ne same] at has ⊢
      exact framed.viewport j has
  camera := framed.camera
  node := framed.node
  ready := framed.ready

end loose

structure Defined (display : Display) (o o' : Oculus) : Prop extends Drawn display o o' where
  finds : display.Finds
  config : display.Asks → o.Live .stereoConfig

section defined

variable {display : Display} {o : Oculus}

theorem defined_early {r : Rig} (less : ¬ display.Asks)
    (material : display.createChildSceneNode → display.createCamera 0 → display.createCamera 1 →
      display.material)
    (framed : o.Framed → r.Framed)
    (loose : r.Loose ↔ display.Leaves ∨ o.Loose ∧ ¬ display.Attaches) :
    Defined display o (o.withRig r) where
  drawn := ⟨r, rfl⟩
  framed := framed
  loose := loose
  finds := ⟨material, fun asks => absurd asks less, fun asks => absurd asks less,
    fun asks => absurd asks less⟩
  config asks := absurd asks less

theorem defined_late {r : Rig} (asks : display.Asks) (material : display.material)
    (live : o.Live .stereoConfig) (compositor : display.compositor)
    (left : display.addViewport 0 → display.addCompositor 0)
    (right : display.addViewport 0 → display.addViewport 1 → display.addCompositor 1)
    (framed : o.Framed → r.Framed)
    (loose : r.Loose ↔ ¬ display.addViewport 0) : Defined display o (o.withRig r) where
  drawn := ⟨r, rfl⟩
  framed := framed
  loose := by
    obtain ⟨node, first, second, clone⟩ := asks
    change r.Loose ↔ _
    rw [loose, Display.Leaves, Display.Attaches]
    simp [node, first, second, clone]
  finds := ⟨fun _ _ _ => material, fun _ => compositor, fun _ => left, fun _ => right⟩
  config _ := live

/-- `setupOgre` is undefined only if it uses what it has not found. -/
theorem setupOgre_spec (display : Display) (o : Oculus) :
    (((setupOgre display).run o).resumes (· = .exception)).elim
      (¬ (display.Finds ∧ (display.Asks → o.Live .stereoConfig))) (Defined display o) := by
  rw [setupOgre_run]
  by_cases node : display.createChildSceneNode
  case neg =>
    rw [if_neg node]
    refine defined_early (fun asks => node asks.1) (fun got => absurd got node)
      Rig.Framed.entered ?_
    simp [Display.Leaves, Display.Attaches, node, Rig.Loose, Rig.entered]
  by_cases first : display.createCamera 0
  case neg =>
    rw [if_pos node, if_neg first]
    refine defined_early (fun asks => first asks.2.1) (fun _ got => absurd got first)
      Rig.Framed.withNode ?_
    simp [Display.Leaves, Display.Attaches, first, Rig.Loose, Rig.withNode, Rig.entered]
  by_cases second : display.createCamera 1
  case neg =>
    rw [if_pos node, if_pos first, if_neg second]
    refine defined_early (fun asks => second asks.2.2.1) (fun _ _ got => absurd got second)
      (fun framed => framed.withNode.newCamera rfl 0) ?_
    simp [Display.Leaves, Display.Attaches, node, first, second, Rig.loose_iff, Rig.newCamera]
  by_cases material : display.material
  case neg =>
    rw [if_pos node, if_pos first, if_pos second, if_neg material]
    exact fun both => material (both.1.material node first second)
  by_cases clone : display.clone
  case neg =>
    rw [if_pos node, if_pos first, if_pos second, if_pos material, if_neg clone]
    refine defined_early (fun asks => clone asks.2.2.2) (fun _ _ _ => material)
      Rig.Framed.withCameras ?_
    simp [Display.Leaves, Display.Attaches, node, first, second, clone, Rig.loose_iff,
      Rig.withCameras, Rig.newCamera]
  have asks : display.Asks := ⟨node, first, second, clone⟩
  rw [if_pos node, if_pos first, if_pos second, if_pos material, if_pos clone]
  by_cases live : o.Live .stereoConfig
  case neg =>
    rw [if_neg live]
    exact fun both => live (both.2 asks)
  by_cases compositor : display.compositor
  case neg =>
    rw [if_pos live, if_neg compositor]
    exact fun both => compositor (both.1.compositor asks)
  rw [if_pos live, if_pos compositor]
  by_cases view : display.addViewport 0
  case neg =>
    rw [if_neg view]
    refine defined_late asks material live compositor (absurd · view) (fun got => absurd got view)
      (fun framed => framed.withCameras.attach 0) ?_
    simp [view, Rig.loose_iff, Rig.withCameras, Rig.newCamera, Rig.attach]
  by_cases added : display.addCompositor 0
  case neg =>
    rw [if_pos view, if_neg added]
    exact fun both => added (both.1.left asks view)
  by_cases view' : display.addViewport 1
  case neg =>
    rw [if_pos view, if_pos added, if_neg view']
    refine defined_late asks material live compositor (fun _ => added)
      (fun _ got => absurd got view')
      (fun framed => (framed.withCameras.withEye rfl 0 true).attach 1) ?_
    simp [view, Rig.loose_iff, Rig.withCameras, Rig.newCamera, Rig.attach, Rig.withEye,
      Rig.newViewport, Rig.newCompositor]
  by_cases added' : display.addCompositor 1
  case neg =>
    rw [if_pos view, if_pos added, if_pos view', if_neg added']
    exact fun both => added' (both.1.right asks view view')
  rw [if_pos view, if_pos added, if_pos view', if_pos added']
  refine defined_late asks material live compositor (fun _ => added) (fun _ _ => added')
    (fun framed => ?_) ?_
  · exact { (framed.withCameras.withEye rfl 0 true).withEye rfl 1 true with ready := fun _ => rfl }
  · simp [view, Rig.loose_iff, Rig.withCameras, Rig.newCamera, Rig.attach, Rig.withEye,
      Rig.newViewport, Rig.newCompositor]

theorem setupOgre_without_node (none : ¬ display.createChildSceneNode) :
    ((setupOgre display).run o).resumes (· = .exception) = some (o.withRig o.entered) := by
  rw [setupOgre_run, if_neg none]
  rfl

theorem setupOgre_with_node (node : display.createChildSceneNode) {o' : Oculus}
    (resumed : ((setupOgre display).run o).resumes (· = .exception) = some o') :
    o'.m_cameraNode := by
  rw [setupOgre_run, if_pos node] at resumed
  rw [← resumes_state resumed]
  repeat' split
  all_goals rfl

end defined

section shutdown

variable {o : Oculus}

def Rig.Drops (r : Rig) (ogre : Bool) (i : Fin 2) : Prop :=
  (r.m_compositors i → ogre ∧ r.m_viewports i) ∧ (r.m_viewports i → ogre ∧ r.m_window) ∧
    (r.m_cameras i → ogre ∧ r.attached i ∧ r.m_sceneManager)

instance (r : Rig) (ogre : Bool) (i : Fin 2) : Decidable (r.Drops ogre i) :=
  inferInstanceAs (Decidable (_ ∧ _ ∧ _))

theorem shutDownEye_run (ogre : Bool) (i : Fin 2) {β : Type} (g : Unit → Proc Stop Oculus β) :
    (shutDownEye ogre i >>= g).run o =
      if o.Drops ogre i then (g ()).run (o.withRig (o.dropEye i)) else .stopped .undefined o := by
  by_cases drops : o.Drops ogre i
  · rw [if_pos drops]
    refine bind_of_returned ?_ g
    obtain ⟨compositor, viewport, camera⟩ := drops
    rw [shutDownEye, bind_get_run, bind_require_run, if_pos compositor, bind_require_run,
      if_pos viewport, bind_require_run, if_pos camera]
    rfl
  · rw [if_neg drops]
    refine bind_of_stopped ?_ g
    rw [shutDownEye, bind_get_run, bind_require_run]
    split
    next compositor =>
      rw [bind_require_run]
      split
      next viewport =>
        rw [bind_require_run, if_neg fun camera => drops ⟨compositor, viewport, camera⟩]
      · rfl
    · rfl

structure Rig.Clears (r : Rig) (ogre : Bool) : Prop where
  eye : ∀ i, r.Drops ogre i
  node : r.m_cameraNode → ogre ∧ r.m_sceneManager

theorem clears_constructed : constructed.Clears false := ⟨fun _ => ⟨nofun, nofun, nofun⟩, nofun⟩

theorem clears_entered : constructed.entered.Clears false := ⟨fun _ => ⟨nofun, nofun, nofun⟩, nofun⟩

theorem shutDownOgre_returned {ogre : Bool} (clears : o.Clears ogre) :
    (shutDownOgre ogre).run o = .returned ⟨⟩ (o.withRig o.cleared) := by
  rw [shutDownOgre, bind_draw_run, shutDownEye_run]
  refine (if_pos (show o.Drops ogre 0 from clears.eye 0)).trans ?_
  rw [shutDownEye_run]
  refine (if_pos (show o.Drops ogre 1 from clears.eye 1)).trans ?_
  rw [bind_get_run, bind_require_run]
  exact if_pos clears.node

theorem shutDownOgre_undefined {ogre : Bool} (stuck : ¬ o.Clears ogre) :
    ∃ o', (shutDownOgre ogre).run o = .stopped .undefined o' := by
  rw [shutDownOgre, bind_draw_run, shutDownEye_run]
  by_cases first : o.Drops ogre 0
  · rw [shutDownEye_run]
    by_cases second : o.Drops ogre 1
    · have none : ¬ (o.m_cameraNode → ogre ∧ o.m_sceneManager) := fun node =>
        stuck ⟨Fin.forall_fin_two.mpr ⟨first, second⟩, node⟩
      rw [bind_get_run, bind_require_run]
      exact ⟨_, (if_pos first).trans ((if_pos second).trans (if_neg none))⟩
    · exact ⟨_, (if_pos first).trans (if_neg second)⟩
  · exact ⟨_, if_neg first⟩

/-- While Ogre exists only a camera without a node is in the way. -/
theorem Rig.Framed.clears_iff {r : Rig} (framed : r.Framed) : r.Clears true ↔ ¬ r.Loose := by
  constructor
  · rintro clears ⟨i, camera, loose⟩
    exact loose ((clears.eye i).2.2 camera).2.1
  · intro attached
    refine ⟨fun i => ⟨fun compositor => ⟨rfl, framed.viewport i compositor⟩,
      fun viewport => ⟨rfl, framed.window i viewport⟩, fun camera => ⟨rfl, ?_, ?_⟩⟩,
      fun node => ⟨rfl, framed.node node⟩⟩
    · by_contra loose
      exact attached ⟨i, camera, loose⟩
    · exact framed.camera i camera

theorem Rig.cleared_cameras (r : Rig) (i : Fin 2) :
    r.cleared.m_cameras i = false ∧ r.cleared.m_viewports i = false ∧
      r.cleared.m_compositors i = false := by
  revert i
  exact Fin.forall_fin_two.mpr ⟨⟨rfl, rfl, rfl⟩, ⟨rfl, rfl, rfl⟩⟩

theorem Rig.framed_cleared (r : Rig) : r.cleared.Framed where
  window i has := absurd has (by simp [(r.cleared_cameras i).2.1])
  viewport i has := absurd has (by simp [(r.cleared_cameras i).2.2])
  camera i has := absurd has (by simp [(r.cleared_cameras i).1])
  node has := nomatch has
  ready has := nomatch has

theorem Rig.not_loose_cleared (r : Rig) : ¬ r.cleared.Loose := by
  rintro ⟨i, has, -⟩
  simp [(r.cleared_cameras i).1] at has

/-- `~Oculus()` after `shutDownOculus()`, when the root of Ogre is gone: it would use Ogre's
objects if there are some, and give the sensor back again if there was one. -/
theorem Formed.destructor_returns {o : Oculus} (formed : Formed o) (safe : ¬ Spent o) :
    ∃ o', shutDownOculus.run o = .returned ⟨⟩ o' ∧
      (((destructor false).run o').returns ↔ o.Clears false ∧ o.m_oculusReady = false) := by
  obtain ⟨o', run, down⟩ := formed.shutDown safe
  refine ⟨o', run, ?_⟩
  by_cases clears : o'.Clears false
  · have again := down.formed.withRig o'.cleared
    have spent : Spent (o'.withRig o'.cleared) ↔ o.m_oculusReady = true := by
      have dead : ¬ (o'.withRig o'.cleared).Live .sensor := fun live =>
        live_iff.mp live (down.holds .sensor)
      rw [Spent, and_iff_left dead, ← formed.sensor_iff safe, ← down.sensor]
      rfl
    rw [destructor, bind_of_returned (shutDownOgre_returned clears), ← down.rig,
      and_iff_right clears, ← Bool.not_eq_true, ← spent]
    by_cases twice : Spent (o'.withRig o'.cleared)
    · obtain ⟨o'', stopped⟩ := again.shutDown_spent twice
      rw [stopped]
      exact iff_of_false Bool.false_ne_true (not_not.mpr twice)
    · obtain ⟨o'', returned, -⟩ := again.shutDown twice
      rw [returned]
      exact iff_of_true rfl twice
  · obtain ⟨o'', stopped⟩ := shutDownOgre_undefined clears
    rw [destructor, bind_of_stopped stopped, ← down.rig]
    exact iff_of_false Bool.false_ne_true fun both => clears both.1

end shutdown

end Ssuge.Oculus

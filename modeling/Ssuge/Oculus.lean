import Mathlib.Data.Fintype.Defs
import Ssuge.Histories
import Ssuge.OwnedPool
import Ssuge.Procedure

/-! The class `Oculus`, which sets up the headset and the two cameras for it. What the OVR
library gives is held by five members. It is given back by `Release` or `delete`, once, and may
not be used afterwards. `shutDownOculus` sets all of these members to NULL but the one for the
sensor. What Ogre does is taken from outside: its calls may throw, a resource may not be found.
To use what was given back, to call a member of NULL and to use Ogre after its root is
undefined. `new` never gives NULL. -/

namespace Ssuge

open Procedure OwnedPool GuardedRun Histories

inductive Oculus.Stop
  | exception | undefined
deriving DecidableEq

inductive Oculus.Member
  | deviceManager | stereoConfig | hmd | sensor | sensorFusion
deriving DecidableEq

/-- What Ogre has for the headset. The members are NULL or not, and `attached` tells for a camera
whether it is attached to a node. -/
structure Oculus.Rig where
  m_ogreReady : Bool
  m_window : Bool
  m_sceneManager : Bool
  m_cameraNode : Bool
  m_cameras : Fin 2 → Bool
  m_viewports : Fin 2 → Bool
  m_compositors : Fin 2 → Bool
  attached : Fin 2 → Bool

/-- `pool` has what the OVR library gave. -/
structure Oculus extends Oculus.Rig where
  pool : Pool Unit
  members : Oculus.Member → Option Nat
  m_oculusReady : Bool

namespace Oculus

def constructed : Oculus where
  pool := Pool.empty
  members _ := none
  m_oculusReady := false
  m_ogreReady := false
  m_window := false
  m_sceneManager := false
  m_cameraNode := false
  m_cameras _ := false
  m_viewports _ := false
  m_compositors _ := false
  attached _ := false

structure Devices where
  deviceManager : Bool
  hmd : Bool
  sensor : Bool

/-- How the calls of Ogre end that may throw or find nothing. -/
structure Display where
  createChildSceneNode : Bool
  createCamera : Fin 2 → Bool
  material : Bool
  clone : Bool
  compositor : Bool
  addViewport : Fin 2 → Bool
  addCompositor : Fin 2 → Bool

def Live (o : Oculus) (member : Member) : Prop :=
  ((o.members member).bind o.pool.get?).isSome

instance (o : Oculus) (member : Member) : Decidable (o.Live member) :=
  inferInstanceAs (Decidable (_ = true))

def assign (o : Oculus) (member : Member) (given : Bool) : Oculus :=
  if given then
    { o with
      pool := o.pool.new ()
      members := Function.update o.members member (some o.pool.next) }
  else { o with members := Function.update o.members member none }

/-- `if (member) member->…` -/
def accessHeld (member : Member) : Proc Stop Oculus Unit := do
  let o ← get
  require (o.members member = none ∨ o.Live member) .undefined

def giveBack (o : Oculus) (member : Member) : Oculus :=
  { o with pool := o.pool.deleteHeld (o.members member) }

def setNull (o : Oculus) (member : Member) : Oculus :=
  { o with members := Function.update o.members member none }

/-- `if (member) { member->Release(); member = 0; }`, and in the same way with `delete`. -/
def release (member : Member) : Proc Stop Oculus Unit := do
  accessHeld member
  modify fun o => (o.giveBack member).setNull member

/-- `if (m_sensor) m_sensor->Release();` -/
def releaseSensor : Proc Stop Oculus Unit := do
  accessHeld .sensor
  modify fun o => o.giveBack .sensor

def shutDownOculus : Proc Stop Oculus Unit := do
  modify fun o => { o with m_oculusReady := false }
  release .stereoConfig
  release .sensorFusion
  releaseSensor
  release .hmd
  release .deviceManager

/-- The messages for the log are left out. -/
def setupOculus (devices : Devices) (o : Oculus) : Oculus × Bool :=
  if o.m_oculusReady then (o, true)
  else
    let o := o.assign .deviceManager devices.deviceManager
    if !devices.deviceManager then (o, false)
    else
      let o := (o.assign .stereoConfig true).assign .hmd devices.hmd
      if !devices.hmd then (o, false)
      else
        let o := o.assign .sensor devices.sensor
        if !devices.sensor then (o, false)
        else ({ o.assign .sensorFusion true with m_oculusReady := true }, true)

/-- `member->…` -/
def access (member : Member) : Proc Stop Oculus Unit := do
  let o ← get
  require (o.Live member) .undefined

def withRig (o : Oculus) (r : Rig) : Oculus := { o with toRig := r }

def draw (f : Rig → Rig) : Proc Stop Oculus Unit := modify fun o => o.withRig (f o.toRig)

def Rig.newCamera (r : Rig) (i : Fin 2) : Rig :=
  { r with
    m_cameras := Function.update r.m_cameras i true
    attached := Function.update r.attached i false }

def Rig.attach (r : Rig) (i : Fin 2) : Rig :=
  { r with attached := Function.update r.attached i true }

def Rig.newViewport (r : Rig) (i : Fin 2) : Rig :=
  { r with m_viewports := Function.update r.m_viewports i true }

def Rig.newCompositor (r : Rig) (i : Fin 2) (given : Bool) : Rig :=
  { r with m_compositors := Function.update r.m_compositors i given }

def createCamera (display : Display) (i : Fin 2) : Proc Stop Oculus Unit := do
  require (display.createCamera i) .exception
  draw fun r => r.newCamera i

/-- The body of the loop in `setupOgre`. -/
def setupEye (display : Display) (i : Fin 2) : Proc Stop Oculus Unit := do
  draw fun r => r.attach i
  accessHeld .stereoConfig
  require (display.addViewport i) .exception
  draw fun r => r.newViewport i
  draw fun r => r.newCompositor i (display.addCompositor i)
  require (display.addCompositor i) .undefined

/-- The offset of the centre of projection is asked for also when there is no `StereoConfig`. -/
def setupOgre (display : Display) : Proc Stop Oculus Bool := do
  draw fun r => { r with m_window := true, m_sceneManager := true }
  require display.createChildSceneNode .exception
  draw fun r => { r with m_cameraNode := true }
  createCamera display 0
  createCamera display 1
  require display.material .undefined
  require display.clone .exception
  access .stereoConfig
  require display.compositor .undefined
  setupEye display 0
  setupEye display 1
  draw fun r => { r with m_ogreReady := true }
  return true

def Rig.dropEye (r : Rig) (i : Fin 2) : Rig :=
  { r with
    m_compositors := Function.update r.m_compositors i false
    m_viewports := Function.update r.m_viewports i false
    m_cameras := Function.update r.m_cameras i false }

/-- The body of the loop in `shutDownOgre`. It makes no difference here whether the viewport has
the compositor that is removed from it. -/
def shutDownEye (ogre : Bool) (i : Fin 2) : Proc Stop Oculus Unit := do
  let o ← get
  require (o.m_compositors i → ogre ∧ o.m_viewports i) .undefined
  require (o.m_viewports i → ogre ∧ o.m_window) .undefined
  require (o.m_cameras i → ogre ∧ o.attached i ∧ o.m_sceneManager) .undefined
  draw fun r => r.dropEye i

/-- `ogre` tells whether the root of Ogre exists. A camera that is not attached has no parent
node. -/
def shutDownOgre (ogre : Bool) : Proc Stop Oculus Unit := do
  draw fun r => { r with m_ogreReady := false }
  shutDownEye ogre 0
  shutDownEye ogre 1
  let o ← get
  require (o.m_cameraNode → ogre ∧ o.m_sceneManager) .undefined
  draw fun r => { r with m_cameraNode := false, m_window := false, m_sceneManager := false }

def update : Proc Stop Oculus Unit := do
  let o ← get
  require (o.m_ogreReady → o.m_cameraNode) .undefined
  require (o.m_ogreReady ∧ o.m_oculusReady → o.Live .sensorFusion) .undefined

def resetOrientation : Proc Stop Oculus Unit := accessHeld .sensorFusion

def destructor (ogre : Bool) : Proc Stop Oculus Unit := do
  shutDownOgre ogre
  shutDownOculus

/-- The rigs that `setupOgre` leaves, by how far it gets. -/
def Rig.entered (r : Rig) : Rig := { r with m_window := true, m_sceneManager := true }

def Rig.withNode (r : Rig) : Rig := { r.entered with m_cameraNode := true }

def Rig.withCameras (r : Rig) : Rig := (r.withNode.newCamera 0).newCamera 1

def Rig.withEye (r : Rig) (i : Fin 2) (shown : Bool) : Rig :=
  ((r.attach i).newViewport i).newCompositor i shown

def Rig.cleared (r : Rig) : Rig :=
  { (Rig.dropEye { r with m_ogreReady := false } 0).dropEye 1 with
    m_cameraNode := false
    m_window := false
    m_sceneManager := false }

namespace Display

variable (display : Display)

/-- The first camera is created, and it or the second one stays without a node. -/
def Leaves : Prop :=
  display.createChildSceneNode ∧ display.createCamera 0 ∧
    ¬ (display.createCamera 1 ∧ display.clone ∧ display.addViewport 0)

def Attaches : Prop :=
  display.createChildSceneNode ∧ display.createCamera 0 ∧ display.createCamera 1 ∧
    display.clone ∧ display.addViewport 0

def Asks : Prop :=
  display.createChildSceneNode ∧ display.createCamera 0 ∧ display.createCamera 1 ∧ display.clone

structure Finds : Prop where
  material : display.createChildSceneNode → display.createCamera 0 → display.createCamera 1 →
    display.material
  compositor : display.Asks → display.compositor
  left : display.Asks → display.addViewport 0 → display.addCompositor 0
  right : display.Asks → display.addViewport 0 → display.addViewport 1 → display.addCompositor 1

end Display

def holds (o : Oculus) (member : Member) : Option Nat :=
  (o.members member).filter fun i => (o.pool.get? i).isSome

structure Sound (o : Oculus) : Prop where
  owned : Owned o.pool o.holds
  made : ∀ member i, o.members member = some i → i < o.pool.next

section memory

variable {o o' : Oculus} {member : Member}

theorem holds_eq_some {i : Nat} : o.holds member = some i ↔
    o.members member = some i ∧ (o.pool.get? i).isSome := by
  rw [holds, Option.filter_eq_some_iff]

theorem live_iff : o.Live member ↔ o.holds member ≠ none := by
  rw [Live, holds]
  cases o.members member with
  | none => simp
  | some i => cases live : o.pool.get? i <;> simp [live]

theorem holds_eq_members (safe : o.members member = none ∨ o.Live member) :
    o.holds member = o.members member := by
  rcases safe with null | live
  · rw [holds, null, Option.filter_none]
  · obtain ⟨i, held⟩ := Option.ne_none_iff_exists'.mp (live_iff.mp live)
    rw [held, (holds_eq_some.mp held).1]

@[simp] theorem setNull_members (o : Oculus) (member : Member) :
    (o.setNull member).members = Function.update o.members member none := rfl

@[simp] theorem setNull_pool (o : Oculus) (member : Member) : (o.setNull member).pool = o.pool :=
  rfl

@[simp] theorem giveBack_members (o : Oculus) (member : Member) :
    (o.giveBack member).members = o.members := rfl

@[simp] theorem giveBack_pool (o : Oculus) (member : Member) :
    (o.giveBack member).pool = o.pool.deleteHeld (o.members member) := rfl

theorem holds_update {value : Option Nat} (own : o'.holds member = value)
    (others : ∀ other ≠ member, o'.holds other = o.holds other) :
    o'.holds = Function.update o.holds member value := by
  funext other
  by_cases same : other = member
  · rw [same, own, Function.update_self]
  · rw [others other same, Function.update_of_ne same]

theorem holds_setNull : (o.setNull member).holds = Function.update o.holds member none := by
  refine holds_update ?_ fun other apart => ?_
  · rw [holds, setNull_members, Function.update_self, Option.filter_none]
  · rw [holds, setNull_members, Function.update_of_ne apart, setNull_pool, holds]

theorem holds_giveBack (owned : Owned o.pool o.holds) (member : Member) :
    (o.giveBack member).holds = Function.update o.holds member none := by
  cases pointer : o.members member with
  | none =>
      have empty : o.holds member = none := by rw [holds, pointer, Option.filter_none]
      rw [update_none empty, giveBack, pointer]
      rfl
  | some i =>
      refine holds_update ?_ fun other apart => Option.ext fun j => ?_
      · rw [holds, giveBack_members, giveBack_pool, pointer, Option.filter_some,
          Pool.deleteHeld, Pool.get?_delete, if_pos rfl]
        rfl
      · rw [holds_eq_some, holds_eq_some, giveBack_members, giveBack_pool, pointer,
          Pool.deleteHeld, Pool.get?_delete]
        refine and_congr_right fun held => ?_
        by_cases shared : j = i
        · subst shared
          rw [if_pos rfl]
          refine iff_of_false (by simp) fun live => apart ?_
          exact owned.distinct other member j (holds_eq_some.mpr ⟨held, live⟩)
            (holds_eq_some.mpr ⟨pointer, live⟩)
        · rw [if_neg shared]

theorem holds_assign (sound : Sound o) (given : Bool) : (o.assign member given).holds =
    Function.update o.holds member (if given then some o.pool.next else none) := by
  cases given with
  | false => exact holds_setNull
  | true =>
      refine holds_update ?_ fun other apart => Option.ext fun i => ?_
      · rw [assign, if_pos rfl, holds]
        simp [Pool.get?_new]
      · rw [holds_eq_some, holds_eq_some, assign, if_pos rfl]
        simp only [Function.update_of_ne apart, Pool.get?_new]
        refine and_congr_right fun held => ?_
        rw [if_neg (Nat.ne_of_lt (sound.made other i held))]

theorem Sound.setNull (sound : Sound o) (member : Member) : Sound (o.setNull member) where
  owned := by
    rw [holds_setNull]
    exact sound.owned.lose
  made other i held := by
    by_cases same : other = member
    · simp [same] at held
    · exact sound.made other i (by simpa [same] using held)

theorem Sound.giveBack (sound : Sound o) (member : Member)
    (safe : o.members member = none ∨ o.Live member) : Sound (o.giveBack member) where
  owned := by
    rw [holds_giveBack sound.owned, giveBack_pool, ← holds_eq_members safe]
    exact sound.owned.deleteHeld
  made other i held := by
    have inside := sound.made other i held
    rw [giveBack_pool]
    cases o.members member with
    | none => exact inside
    | some j => simpa [Pool.deleteHeld, Pool.next, Pool.delete] using inside

theorem Sound.assign (sound : Sound o) (member : Member) (given : Bool) :
    Sound (o.assign member given) := by
  cases given with
  | false => exact sound.setNull member
  | true =>
      refine ⟨?_, fun other i held => ?_⟩
      · rw [holds_assign sound]
        exact sound.owned.assign ()
      · change i < (o.pool.new ()).next
        rw [Pool.next, Pool.new, List.length_append]
        by_cases same : other = member
        · subst same
          obtain rfl : o.pool.next = i := by simpa [Oculus.assign] using held
          exact Nat.lt_succ_self _
        · exact Nat.lt_succ_of_lt (sound.made other i (by simpa [Oculus.assign, same] using held))

theorem accounted_assign_iff (sound : Sound o) (given : Bool) :
    Accounted (o.assign member given).pool (o.assign member given).holds ↔
      Accounted o.pool o.holds ∧ o.holds member = none := by
  rw [holds_assign sound]
  cases given with
  | false => exact sound.owned.accounted_lose_iff
  | true =>
      change Accounted (o.pool.new ()) (Function.update o.holds member (some o.pool.next)) ↔ _
      constructor
      · intro after
        have before := sound.owned.accounted_of_assign after
        exact ⟨before, (sound.owned.accounted_assign_iff before ()).mp after⟩
      · rintro ⟨before, empty⟩
        exact (sound.owned.accounted_assign_iff before ()).mpr empty

theorem live_assign (sound : Sound o) (given : Bool) (other : Member) :
    (o.assign member given).Live other ↔
      if other = member then given = true else o.Live other := by
  rw [live_iff, holds_assign sound]
  by_cases same : other = member
  · rw [if_pos same, same, Function.update_self]
    cases given <;> simp
  · rw [if_neg same, Function.update_of_ne same, live_iff]

theorem members_assign (given : Bool) {other : Member} (apart : other ≠ member) :
    (o.assign member given).members other = o.members other := by
  cases given <;> exact Function.update_of_ne apart ..

end memory

/-- Only the sensor may have been given back while its member points to it. -/
structure Tidy (o : Oculus) : Prop extends Sound o where
  others : ∀ member ≠ .sensor, o.members member = none ∨ o.Live member

structure Assigned (member : Member) (given : Bool) (o o' : Oculus) : Prop where
  tidy : Tidy o'
  live : ∀ other, o'.Live other ↔ if other = member then given = true else o.Live other
  pointer : member ≠ .sensor → o'.members .sensor = o.members .sensor
  null : given = false → o'.members member = none
  ready : o'.m_oculusReady = o.m_oculusReady
  rig : o'.toRig = o.toRig

theorem Tidy.assign {o : Oculus} (tidy : Tidy o) (member : Member) (given : Bool) :
    Assigned member given o (o.assign member given) where
  tidy := by
    refine ⟨tidy.toSound.assign member given, fun other apart => ?_⟩
    rw [live_assign tidy.toSound]
    by_cases same : other = member
    · subst same
      cases given with
      | false => exact .inl (Function.update_self ..)
      | true => exact .inr (by simp)
    · rw [if_neg same, members_assign given same]
      exact tidy.others other apart
  live := live_assign tidy.toSound given
  pointer apart := members_assign given (Ne.symm apart)
  null := by
    rintro rfl
    exact Function.update_self ..
  ready := by cases given <;> rfl
  rig := by cases given <;> rfl

theorem Tidy.flag {o : Oculus} (tidy : Tidy o) (ready : Bool) :
    Tidy { o with m_oculusReady := ready } := ⟨⟨tidy.owned, tidy.made⟩, tidy.others⟩

/-- The sensor is held exactly while the headset is ready, and then all is held. -/
structure Formed (o : Oculus) : Prop extends Tidy o where
  ready : o.m_oculusReady ↔ o.Live .sensor
  used : o.m_oculusReady → ∀ member, o.Live member

/-- The sensor was given back, and the member still points to it. -/
def Spent (o : Oculus) : Prop := o.members .sensor ≠ none ∧ ¬ o.Live .sensor

namespace Devices

variable (devices : Devices)

def Headset : Prop := devices.deviceManager ∧ devices.hmd

def All : Prop := devices.deviceManager ∧ devices.hmd ∧ devices.sensor

end Devices

theorem formed_constructed : Formed constructed :=
  ⟨⟨⟨owned_empty, nofun⟩, fun _ _ => .inl rfl⟩, iff_of_false (by decide) (by decide), nofun⟩

theorem not_spent_constructed : ¬ Spent constructed := fun spent => spent.1 rfl

structure SetUp (devices : Devices) (o o' : Oculus) : Prop where
  formed : Formed o'
  rig : o'.toRig = o.toRig
  ready : o'.m_oculusReady ↔ o.m_oculusReady ∨ devices.All
  spent : Spent o' ↔ Spent o ∧ ¬ devices.Headset
  config : o'.Live .stereoConfig ↔ o.Live .stereoConfig ∨ devices.deviceManager
  manager : devices.deviceManager → o'.Live .deviceManager

theorem Formed.setUp {o : Oculus} (formed : Formed o) (devices : Devices) :
    SetUp devices o (o.setupOculus devices).1 := by
  cases ready : o.m_oculusReady with
  | true =>
      have unspent : ¬ Spent o := fun spent => spent.2 (formed.ready.mp ready)
      have used := formed.used ready
      rw [setupOculus, if_pos ready]
      exact ⟨formed, rfl, by simp [ready], by simp [unspent], by simp [used], fun _ => used _⟩
  | false =>
      have dead : ¬ o.Live .sensor := fun live => by simp [formed.ready.mpr live] at ready
      rw [setupOculus, if_neg (by simp [ready])]
      obtain ⟨deviceManager, hmd, sensor⟩ := devices
      have first := formed.toTidy.assign .deviceManager deviceManager
      cases deviceManager with
      | false =>
          refine ⟨⟨first.tidy, ?_, ?_⟩, first.rig, ?_, ?_, ?_, nofun⟩ <;>
            simp [first.live, first.pointer, first.ready, ready, dead, Spent, Devices.All,
              Devices.Headset]
      | true =>
          have second := first.tidy.assign .stereoConfig true
          have third := second.tidy.assign .hmd hmd
          cases hmd with
          | false =>
              have rig := third.rig.trans (second.rig.trans first.rig)
              refine ⟨⟨third.tidy, ?_, ?_⟩, rig, ?_, ?_, ?_, fun _ => ?_⟩ <;>
                simp [first.live, first.pointer, first.ready, second.live, second.pointer,
                  second.ready, third.live, third.pointer, third.ready, ready, dead, Spent,
                  Devices.All, Devices.Headset]
          | true =>
              have fourth := third.tidy.assign .sensor sensor
              have rig := fourth.rig.trans (third.rig.trans (second.rig.trans first.rig))
              cases sensor with
              | false =>
                  refine ⟨⟨fourth.tidy, ?_, ?_⟩, rig, ?_, ?_, ?_, fun _ => ?_⟩ <;>
                    simp [first.live, first.ready, second.live, second.ready, third.live,
                      third.ready, fourth.live, fourth.null, fourth.ready, ready, Spent,
                      Devices.All, Devices.Headset]
              | true =>
                  have fifth := fourth.tidy.assign .sensorFusion true
                  set last := ((((o.assign .deviceManager true).assign .stereoConfig true).assign
                    .hmd true).assign .sensor true).assign .sensorFusion true
                  have all : ∀ member, last.Live member := by
                    intro member
                    cases member <;>
                      simp [fifth.live, fourth.live, third.live, second.live, first.live]
                  have live : ∀ member, Live { last with m_oculusReady := true } member := all
                  change SetUp ⟨true, true, true⟩ o { last with m_oculusReady := true }
                  refine ⟨⟨fifth.tidy.flag true, iff_of_true rfl (live _), fun _ => live⟩,
                    fifth.rig.trans rig, ?_, ?_, ?_, fun _ => live _⟩ <;>
                    simp [live, Spent, Devices.All, Devices.Headset]

structure Released (member : Member) (o o' : Oculus) : Prop where
  tidy : Tidy o'
  holds : o'.holds = Function.update o.holds member none
  sensor : o'.members .sensor = o.members .sensor
  ready : o'.m_oculusReady = o.m_oculusReady
  rig : o'.toRig = o.toRig
  accounted : Accounted o.pool o.holds → Accounted o'.pool o'.holds

section release

variable {o o' : Oculus} {member : Member}

theorem accessHeld_run (o : Oculus) (member : Member) {β : Type} (f : Unit → Proc Stop Oculus β) :
    (accessHeld member >>= f).run o = if o.members member = none ∨ o.Live member then (f ()).run o
      else .stopped .undefined o := by
  rw [accessHeld]
  exact bind_require_run ..

theorem accounted_giveBack (sound : Sound o) (safe : o.members member = none ∨ o.Live member)
    (accounted : Accounted o.pool o.holds) :
    Accounted (o.giveBack member).pool (o.giveBack member).holds := by
  rw [holds_giveBack sound.owned, giveBack_pool, ← holds_eq_members safe]
  exact sound.owned.accounted_deleteHeld accounted

theorem Tidy.release (tidy : Tidy o) (member : Member) (apart : member ≠ .sensor) :
    ∃ o', (release member).run o = .returned ⟨⟩ o' ∧ Released member o o' := by
  have safe := tidy.others member apart
  have sound := tidy.toSound.giveBack member safe
  have holds : ((o.giveBack member).setNull member).holds =
      Function.update o.holds member none := by
    rw [holds_setNull, holds_giveBack tidy.owned, Function.update_idem]
  have run : (Oculus.release member).run o =
      .returned ⟨⟩ ((o.giveBack member).setNull member) := by
    rw [Oculus.release, accessHeld_run, if_pos safe, modify_run]
  refine ⟨_, run, ?_, holds, ?_, rfl, rfl, fun accounted => ?_⟩
  · refine ⟨sound.setNull member, fun other ne => ?_⟩
    by_cases same : other = member
    · exact .inl (by rw [setNull_members, same, Function.update_self])
    · rw [live_iff, holds, Function.update_of_ne same, ← live_iff, setNull_members,
        Function.update_of_ne same]
      exact tidy.others other ne
  · rw [setNull_members, Function.update_of_ne (Ne.symm apart), giveBack_members]
  · have given := accounted_giveBack tidy.toSound safe accounted
    have empty : (o.giveBack member).holds member = none := by
      rw [holds_giveBack tidy.owned, Function.update_self]
    rw [holds_setNull, update_none empty]
    exact given

theorem Tidy.releaseSensor (tidy : Tidy o) (safe : ¬ Spent o) :
    ∃ o', releaseSensor.run o = .returned ⟨⟩ o' ∧ Released .sensor o o' := by
  have null_or_live : o.members .sensor = none ∨ o.Live .sensor := by
    by_contra neither
    rw [not_or] at neither
    exact safe neither
  have holds := holds_giveBack tidy.owned .sensor
  refine ⟨_, by rw [Oculus.releaseSensor, accessHeld_run, if_pos null_or_live, modify_run], ?_,
    holds, rfl, rfl, rfl, accounted_giveBack tidy.toSound null_or_live⟩
  refine ⟨tidy.toSound.giveBack .sensor null_or_live, fun other apart => ?_⟩
  rw [live_iff, holds, Function.update_of_ne apart, ← live_iff]
  exact tidy.others other apart

end release

theorem Formed.sensor_iff {o : Oculus} (formed : Formed o) (safe : ¬ Spent o) :
    o.members .sensor ≠ none ↔ o.m_oculusReady := by
  rw [formed.ready]
  constructor
  · intro pointer
    by_contra given
    exact safe ⟨pointer, given⟩
  · intro live null
    rw [live_iff, holds, null] at live
    exact live rfl

structure ShutDown (o o' : Oculus) : Prop where
  formed : Formed o'
  rig : o'.toRig = o.toRig
  ready : o'.m_oculusReady = false
  sensor : o'.members .sensor = o.members .sensor
  holds : ∀ member, o'.holds member = none
  accounted : Accounted o.pool o.holds → Accounted o'.pool o'.holds

structure AtSensor (o o' : Oculus) : Prop where
  tidy : Tidy o'
  rig : o'.toRig = o.toRig
  ready : o'.m_oculusReady = false
  sensor : o'.members .sensor = o.members .sensor
  holds : o'.holds =
    Function.update (Function.update o.holds .stereoConfig none) .sensorFusion none
  accounted : Accounted o.pool o.holds → Accounted o'.pool o'.holds

theorem AtSensor.spent {o o' : Oculus} (at_ : AtSensor o o') : Spent o' ↔ Spent o := by
  rw [Spent, Spent, live_iff, live_iff, at_.holds, at_.sensor, Function.update_of_ne (by decide),
    Function.update_of_ne (by decide)]

theorem Formed.atSensor {o : Oculus} (formed : Formed o) :
    ∃ o', AtSensor o o' ∧ shutDownOculus.run o = (do
      releaseSensor
      release .hmd
      release .deviceManager : Proc Stop Oculus Unit).run o' := by
  obtain ⟨o₁, run₁, first⟩ := (formed.toTidy.flag false).release .stereoConfig (by decide)
  obtain ⟨o₂, run₂, second⟩ := first.tidy.release .sensorFusion (by decide)
  refine ⟨o₂, ⟨second.tidy, second.rig.trans first.rig, second.ready.trans first.ready,
    second.sensor.trans first.sensor, by rw [second.holds, first.holds]; rfl,
    fun accounted => second.accounted (first.accounted accounted)⟩, ?_⟩
  rw [shutDownOculus, bind_modify_run, bind_of_returned run₁, bind_of_returned run₂]

theorem Formed.shutDown {o : Oculus} (formed : Formed o) (safe : ¬ Spent o) :
    ∃ o', shutDownOculus.run o = .returned ⟨⟩ o' ∧ ShutDown o o' := by
  obtain ⟨o₂, second, run⟩ := formed.atSensor
  obtain ⟨o₃, run₃, third⟩ := second.tidy.releaseSensor (safe ∘ second.spent.mp)
  obtain ⟨o₄, run₄, fourth⟩ := third.tidy.release .hmd (by decide)
  obtain ⟨o', run', fifth⟩ := fourth.tidy.release .deviceManager (by decide)
  have empty : ∀ member, o'.holds member = none := by
    intro member
    rw [fifth.holds, fourth.holds, third.holds, second.holds]
    cases member <;> rfl
  have flag : o'.m_oculusReady = false :=
    fifth.ready.trans (fourth.ready.trans (third.ready.trans second.ready))
  refine ⟨o', ?_, ⟨fifth.tidy, ?_, ?_⟩, ?_, flag, ?_, empty, fun before => ?_⟩
  · rw [run, bind_of_returned run₃, bind_of_returned run₄, run']
  · simp [flag, live_iff, empty]
  · simp [flag]
  · exact fifth.rig.trans (fourth.rig.trans (third.rig.trans second.rig))
  · exact fifth.sensor.trans (fourth.sensor.trans (third.sensor.trans second.sensor))
  · exact fifth.accounted (fourth.accounted (third.accounted (second.accounted before)))

/-- The sensor is given back once more. -/
theorem Formed.shutDown_spent {o : Oculus} (formed : Formed o) (spent : Spent o) :
    ∃ o', shutDownOculus.run o = .stopped .undefined o' := by
  obtain ⟨o₂, second, run⟩ := formed.atSensor
  have again : ¬ (o₂.members .sensor = none ∨ o₂.Live .sensor) :=
    not_or.mpr (second.spent.mpr spent)
  refine ⟨o₂, ?_⟩
  rw [run, bind_of_stopped]
  rw [Oculus.releaseSensor, accessHeld_run, if_neg again]

end Oculus

end Ssuge

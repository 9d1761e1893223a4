import Mathlib.Algebra.Ring.Int.Defs
import Ssuge.Engine
import Ssuge.GuardedRun
import Ssuge.OwnedPool

/-! Physics components and the bodies of the dynamics world. A component owns a shape, a
motion state and a body; a load allocates all three and adds the body to the world,
the destructor removes and deletes them. `F`, `V` and `Q` are the numbers, vectors and
quaternions of Ogre and Bullet, whose arithmetic nothing here depends on. -/

namespace Ssuge.Physics

open Procedure GuardedRun OwnedPool

variable (F V Q : Type)

inductive Geometry
  | box (extents : V)
  | sphere (rad : F)

/-- `btCollisionShape` with its user pointer -/
structure CollisionShape where
  geometry : Geometry F V
  userPointer : Ptr

structure MotionState where
  rotation : Q
  origin : V

/-- `btRigidBody` with what it was constructed from -/
structure RigidBody where
  mass : F
  motionState : Nat
  shape : Nat
  inertia : V
  userPointer : Ptr

/-- `none` is the NULL pointer, and for `Cmass` what nothing was written to. -/
structure PhysicsComponent where
  mOwner : Ptr
  Cmass : Option F
  mOffset : V
  mShape : Option Nat
  mMotionState : Option Nat
  mBody : Option Nat

structure SceneNode where
  convertLocalToWorldPosition : V → V
  derivedPosition : V
  derivedOrientation : Q

structure PhysicsWorld where
  components : Ptr → Option (PhysicsComponent F V)
  shapes : Pool (CollisionShape F V)
  motionStates : Pool (MotionState V Q)
  bodies : Pool (RigidBody F V)
  /-- The rigid bodies in the dynamics world, by their numbers. -/
  world : List Nat

variable {F V Q}

def start : PhysicsWorld F V Q := ⟨fun _ => none, .empty, .empty, .empty, []⟩

def setComponent (w : PhysicsWorld F V Q) (p : Ptr) (c : Option (PhysicsComponent F V)) :
    PhysicsWorld F V Q :=
  { w with components := Function.update w.components p c }

def component (p : Ptr) : Proc Stop (PhysicsWorld F V Q) (PhysicsComponent F V) := do
  orStop ((← get).components p) .undefined

def newPhysicsComponent [Zero V] (address owner : Ptr) : Proc Stop (PhysicsWorld F V Q) Unit :=
  modify fun w => setComponent w address (some ⟨owner, none, 0, none, none, none⟩)

/-- `new T(...)`; the number of the new object is returned. -/
def newShape (shape : CollisionShape F V) : Proc Stop (PhysicsWorld F V Q) Nat := do
  let number := (← get).shapes.next
  modify fun w => { w with shapes := w.shapes.new shape }
  pure number

def newMotionState (state : MotionState V Q) : Proc Stop (PhysicsWorld F V Q) Nat := do
  let number := (← get).motionStates.next
  modify fun w => { w with motionStates := w.motionStates.new state }
  pure number

def newBody (body : RigidBody F V) : Proc Stop (PhysicsWorld F V Q) Nat := do
  let number := (← get).bodies.next
  modify fun w => { w with bodies := w.bodies.new body }
  pure number

def addToWorld (body : Nat) : Proc Stop (PhysicsWorld F V Q) Unit :=
  modify fun w => { w with world := body :: w.world }

def removeFromWorld (body : Nat) : Proc Stop (PhysicsWorld F V Q) Unit :=
  modify fun w => { w with world := w.world.erase body }

/-- What `loadBox` and `loadSphere` do once mass and offset are stored.
`calculateLocalInertia` is Bullet's. -/
def loadBody [Add V] (calculateLocalInertia : Geometry F V → F → V) (node : SceneNode V Q)
    (p : Ptr) (offset : V) (geometry : Geometry F V) (mass : F) :
    Proc Stop (PhysicsWorld F V Q) Unit := do
  let c ← component p
  let shape ← newShape ⟨geometry, c.mOwner⟩
  let v := node.convertLocalToWorldPosition offset + node.derivedPosition
  let state ← newMotionState ⟨node.derivedOrientation, v⟩
  let body ← newBody ⟨mass, state, shape, calculateLocalInertia geometry mass, c.mOwner⟩
  modify fun w => setComponent w p
    (some { c with mShape := some shape, mMotionState := some state, mBody := some body })
  addToWorld body

def loadBox [Add V] (calculateLocalInertia : Geometry F V → F → V) (node : SceneNode V Q)
    (p : Ptr) (offset extents : V) (mass : F) : Proc Stop (PhysicsWorld F V Q) Unit := do
  let c ← component p
  modify fun w => setComponent w p (some { c with Cmass := some mass, mOffset := offset })
  loadBody calculateLocalInertia node p offset (.box extents) mass

/-- The offset is not stored. -/
def loadSphere [Add V] (calculateLocalInertia : Geometry F V → F → V) (node : SceneNode V Q)
    (p : Ptr) (offset : V) (rad mass : F) : Proc Stop (PhysicsWorld F V Q) Unit := do
  let c ← component p
  modify fun w => setComponent w p (some { c with Cmass := some mass })
  loadBody calculateLocalInertia node p offset (.sphere rad) mass

def deleteBody (body : Nat) : Proc Stop (PhysicsWorld F V Q) Unit :=
  modify fun w => { w with bodies := w.bodies.delete body }

def deleteMotionState (state : Nat) : Proc Stop (PhysicsWorld F V Q) Unit :=
  modify fun w => { w with motionStates := w.motionStates.delete state }

def deleteShape (shape : Nat) : Proc Stop (PhysicsWorld F V Q) Unit :=
  modify fun w => { w with shapes := w.shapes.delete shape }

/-- `if (pointer) ...` -/
def ifSet (pointer : Option Nat) (act : Nat → Proc Stop (PhysicsWorld F V Q) Unit) :
    Proc Stop (PhysicsWorld F V Q) Unit :=
  match pointer with
  | some number => act number
  | none => pure ()

/-- `delete component`: `~PhysicsComponent` -/
def deletePhysicsComponent (p : Ptr) : Proc Stop (PhysicsWorld F V Q) Unit := do
  let c ← component p
  ifSet c.mBody fun body => do
    removeFromWorld body
    deleteBody body
  ifSet c.mMotionState deleteMotionState
  ifSet c.mShape deleteShape
  modify fun w => setComponent w p none

/-- What happens to physics components. A load is told where its owner's node is. -/
inductive Op (F V Q : Type)
  | create (address owner : Ptr)
  | loadBox (p : Ptr) (node : SceneNode V Q) (offset extents : V) (mass : F)
  | loadSphere (p : Ptr) (node : SceneNode V Q) (offset : V) (rad mass : F)
  | delete (p : Ptr)

def Op.run [Zero V] [Add V] (calculateLocalInertia : Geometry F V → F → V) :
    Op F V Q → Proc Stop (PhysicsWorld F V Q) Unit
  | .create address owner => do
      require (address ≠ 0 ∧ ((← get).components address).isNone = true) .undefined
      newPhysicsComponent address owner
  | .loadBox p node offset extents mass =>
      Physics.loadBox calculateLocalInertia node p offset extents mass
  | .loadSphere p node offset rad mass =>
      Physics.loadSphere calculateLocalInertia node p offset rad mass
  | .delete p => deletePhysicsComponent p

def Op.loads : Op F V Q → Option Ptr
  | .loadBox p .. | .loadSphere p .. => some p
  | .create .. | .delete _ => none

/-- A step on a component that does not exist, or at an address in use, is none. -/
def step [Zero V] [Add V] (calculateLocalInertia : Geometry F V → F → V)
    (w : PhysicsWorld F V Q) (op : Op F V Q) : Option (PhysicsWorld F V Q) :=
  match (op.run calculateLocalInertia).run w with
  | .returned _ w' => some w'
  | .stopped _ _ => none

section runs

variable {w w' : PhysicsWorld F V Q} {p : Ptr} {c : PhysicsComponent F V}

theorem component_run (found : w.components p = some c) :
    (component p).run w = .returned c w := by
  rw [component, bind_get_run, found, orStop_some]

theorem component_missing (missing : w.components p = none) :
    (component p : Proc Stop (PhysicsWorld F V Q) _).run w = .stopped .undefined w := by
  rw [component, bind_get_run, missing, orStop_none]

def loaded (w : PhysicsWorld F V Q) (p : Ptr) (c : PhysicsComponent F V)
    (shape : CollisionShape F V) (state : MotionState V Q) (body : RigidBody F V) :
    PhysicsWorld F V Q where
  components := Function.update w.components p (some { c with
    mShape := some w.shapes.next
    mMotionState := some w.motionStates.next
    mBody := some w.bodies.next })
  shapes := w.shapes.new shape
  motionStates := w.motionStates.new state
  bodies := w.bodies.new body
  world := w.bodies.next :: w.world

variable [Add V] (calculateLocalInertia : Geometry F V → F → V) (node : SceneNode V Q)

theorem loadBody_run (found : w.components p = some c) (offset : V) (geometry : Geometry F V)
    (mass : F) : ∃ shape state body,
      (loadBody calculateLocalInertia node p offset geometry mass).run w =
        .returned () (loaded w p c shape state body) := by
  refine ⟨⟨geometry, c.mOwner⟩, ⟨node.derivedOrientation,
      node.convertLocalToWorldPosition offset + node.derivedPosition⟩,
    ⟨mass, w.motionStates.next, w.shapes.next, calculateLocalInertia geometry mass, c.mOwner⟩, ?_⟩
  unfold loadBody
  rw [bind_of_returned (component_run found)]
  rfl

theorem loadBox_run (found : w.components p = some c) (offset extents : V) (mass : F) :
    ∃ shape state body,
      (loadBox calculateLocalInertia node p offset extents mass).run w = .returned ()
        (loaded w p { c with Cmass := some mass, mOffset := offset } shape state body) := by
  have stored : (setComponent w p
      (some { c with Cmass := some mass, mOffset := offset })).components p =
        some { c with Cmass := some mass, mOffset := offset } := Function.update_self ..
  obtain ⟨shape, state, body, run⟩ :=
    loadBody_run calculateLocalInertia node stored offset (.box extents) mass
  refine ⟨shape, state, body, ?_⟩
  unfold loadBox
  rw [bind_of_returned (component_run found), bind_modify_run, run]
  simp [loaded, setComponent]

theorem loadSphere_run (found : w.components p = some c) (offset : V) (rad mass : F) :
    ∃ shape state body,
      (loadSphere calculateLocalInertia node p offset rad mass).run w = .returned ()
        (loaded w p { c with Cmass := some mass } shape state body) := by
  have stored : (setComponent w p (some { c with Cmass := some mass })).components p =
      some { c with Cmass := some mass } := Function.update_self ..
  obtain ⟨shape, state, body, run⟩ :=
    loadBody_run calculateLocalInertia node stored offset (.sphere rad) mass
  refine ⟨shape, state, body, ?_⟩
  unfold loadSphere
  rw [bind_of_returned (component_run found), bind_modify_run, run]
  simp [loaded, setComponent]

def unloaded (w : PhysicsWorld F V Q) (p : Ptr) (c : PhysicsComponent F V) :
    PhysicsWorld F V Q where
  components := Function.update w.components p none
  shapes := w.shapes.deleteHeld c.mShape
  motionStates := w.motionStates.deleteHeld c.mMotionState
  bodies := w.bodies.deleteHeld c.mBody
  world := match c.mBody with
    | some body => w.world.erase body
    | none => w.world

omit [Add V] in
theorem deletePhysicsComponent_run (found : w.components p = some c) :
    (deletePhysicsComponent p).run w = .returned () (unloaded w p c) := by
  unfold deletePhysicsComponent
  rw [bind_of_returned (component_run found)]
  obtain ⟨mOwner, Cmass, mOffset, mShape, mMotionState, mBody⟩ := c
  cases mBody <;> cases mMotionState <;> cases mShape <;> rfl

end runs

section ownership

variable {w w' : PhysicsWorld F V Q} {p : Ptr} {c : PhysicsComponent F V}

def shapeOf (w : PhysicsWorld F V Q) (p : Ptr) : Option Nat := (w.components p).bind (·.mShape)

def motionStateOf (w : PhysicsWorld F V Q) (p : Ptr) : Option Nat :=
  (w.components p).bind (·.mMotionState)

def bodyOf (w : PhysicsWorld F V Q) (p : Ptr) : Option Nat := (w.components p).bind (·.mBody)

/-- The bodies in the world are those of the components, and whatever a load allocated is
held by a component or was deleted once. -/
structure InSync (w : PhysicsWorld F V Q) : Prop where
  world : ∀ body, body ∈ w.world ↔ ∃ p c, w.components p = some c ∧ c.mBody = some body
  shapes : Accounted w.shapes (shapeOf w)
  motionStates : Accounted w.motionStates (motionStateOf w)
  bodies : Accounted w.bodies (bodyOf w)

/-- A component is loaded only while it has no body. -/
def LoadGuard (w : PhysicsWorld F V Q) : Op F V Q → Prop
  | .loadBox p .. | .loadSphere p .. => ∀ c, w.components p = some c → c.mBody = none
  | _ => True

structure Sound (w : PhysicsWorld F V Q) : Prop where
  shapes : Owned w.shapes (shapeOf w)
  motionStates : Owned w.motionStates (motionStateOf w)
  bodies : Owned w.bodies (bodyOf w)
  nodup : w.world.Nodup
  together : ∀ p c, w.components p = some c →
    (c.mBody = none → c.mShape = none ∧ c.mMotionState = none)

theorem held_bodyOf {body : Nat} : Held (bodyOf w) body ↔
    ∃ p c, w.components p = some c ∧ c.mBody = some body := by
  simp only [Held, bodyOf, Option.bind_eq_some_iff]

theorem pointerOf_update (field : PhysicsComponent F V → Option Nat)
    (value : Option (PhysicsComponent F V)) :
    (fun q => (Function.update w.components p value q).bind field) =
      Function.update (fun q => (w.components q).bind field) p (value.bind field) := by
  funext q
  by_cases same : q = p
  · subst same
    simp
  · simp [same]

theorem loaded_sound (h : Sound w) (shape : CollisionShape F V) (state : MotionState V Q)
    (body : RigidBody F V) (fresh : w.bodies.next ∉ w.world) :
    Sound (loaded w p c shape state body) where
  shapes := by
    rw [show shapeOf (loaded w p c shape state body) = _ from pointerOf_update _ _]
    exact h.shapes.assign shape
  motionStates := by
    rw [show motionStateOf (loaded w p c shape state body) = _ from pointerOf_update _ _]
    exact h.motionStates.assign state
  bodies := by
    rw [show bodyOf (loaded w p c shape state body) = _ from pointerOf_update _ _]
    exact h.bodies.assign body
  nodup := List.nodup_cons.mpr ⟨fresh, h.nodup⟩
  together q u found empty := by
    by_cases same : q = p
    · subst same
      have own : u.mBody = some w.bodies.next := by
        simp only [loaded, Function.update_self, Option.some.injEq] at found
        rw [← found]
      simp [own] at empty
    · exact h.together q u (by simpa [loaded, same] using found) empty

theorem InSync.fresh (h : Sound w) (sync : InSync w) : w.bodies.next ∉ w.world := by
  intro member
  obtain ⟨q, held⟩ := held_bodyOf.mpr ((sync.world _).mp member)
  exact Nat.lt_irrefl _ (Pool.lt_of_live (h.bodies.live q _ held))

/-- A load keeps world and pools in step exactly when the component had no body. -/
theorem loaded_inSync_iff (h : Sound w) (sync : InSync w) {c₀ : PhysicsComponent F V}
    (found : w.components p = some c₀) (shape : CollisionShape F V) (state : MotionState V Q)
    (body : RigidBody F V) : InSync (loaded w p c shape state body) ↔ c₀.mBody = none := by
  have shapes : shapeOf (loaded w p c shape state body) =
      Function.update (shapeOf w) p (some w.shapes.next) := pointerOf_update _ _
  have motionStates : motionStateOf (loaded w p c shape state body) =
      Function.update (motionStateOf w) p (some w.motionStates.next) := pointerOf_update _ _
  have bodies : bodyOf (loaded w p c shape state body) =
      Function.update (bodyOf w) p (some w.bodies.next) := pointerOf_update _ _
  have held : bodyOf w p = c₀.mBody := by rw [bodyOf, found, Option.bind_some]
  constructor
  · intro after
    have accounted := after.bodies
    rw [bodies] at accounted
    exact held ▸ (h.bodies.accounted_assign_iff sync.bodies body).mp accounted
  · intro empty
    obtain ⟨noShape, noState⟩ := h.together p c₀ found empty
    refine ⟨fun number => ?_, ?_, ?_, ?_⟩
    · rw [← held_bodyOf, bodies, held_update]
      refine List.mem_cons.trans (or_congr (by simp [eq_comm]) ?_)
      rw [sync.world, ← held_bodyOf]
      constructor
      · rintro ⟨q, holds⟩
        refine ⟨q, ?_, holds⟩
        rintro rfl
        rw [held, empty] at holds
        simp at holds
      · rintro ⟨q, -, holds⟩
        exact ⟨q, holds⟩
    · rw [shapes]
      exact (h.shapes.accounted_assign_iff sync.shapes shape).mpr
        (by rw [shapeOf, found, Option.bind_some, noShape])
    · rw [motionStates]
      exact (h.motionStates.accounted_assign_iff sync.motionStates state).mpr
        (by rw [motionStateOf, found, Option.bind_some, noState])
    · rw [bodies]
      exact (h.bodies.accounted_assign_iff sync.bodies body).mpr (held.trans empty)

theorem unloaded_sound (h : Sound w) (found : w.components p = some c) :
    Sound (unloaded w p c) := by
  have shape : shapeOf w p = c.mShape := by rw [shapeOf, found, Option.bind_some]
  have state : motionStateOf w p = c.mMotionState := by
    rw [motionStateOf, found, Option.bind_some]
  have body : bodyOf w p = c.mBody := by rw [bodyOf, found, Option.bind_some]
  refine ⟨?_, ?_, ?_, ?_, fun q u other empty => ?_⟩
  · rw [show shapeOf (unloaded w p c) = _ from pointerOf_update _ _, unloaded, ← shape]
    exact h.shapes.deleteHeld
  · rw [show motionStateOf (unloaded w p c) = _ from pointerOf_update _ _, unloaded, ← state]
    exact h.motionStates.deleteHeld
  · rw [show bodyOf (unloaded w p c) = _ from pointerOf_update _ _, unloaded, ← body]
    exact h.bodies.deleteHeld
  · rw [unloaded]
    cases c.mBody with
    | none => exact h.nodup
    | some number => exact h.nodup.erase _
  · by_cases same : q = p
    · simp [unloaded, same] at other
    · exact h.together q u (by simpa [unloaded, same] using other) empty

theorem unloaded_inSync (h : Sound w) (sync : InSync w) (found : w.components p = some c) :
    InSync (unloaded w p c) := by
  have shape : shapeOf w p = c.mShape := by rw [shapeOf, found, Option.bind_some]
  have state : motionStateOf w p = c.mMotionState := by
    rw [motionStateOf, found, Option.bind_some]
  have body : bodyOf w p = c.mBody := by rw [bodyOf, found, Option.bind_some]
  have bodies : bodyOf (unloaded w p c) = Function.update (bodyOf w) p none := pointerOf_update _ _
  refine ⟨fun number => ?_, ?_, ?_, ?_⟩
  · rw [← held_bodyOf, bodies, held_update, unloaded]
    have others : (∃ q ≠ p, bodyOf w q = some number) ↔
        Held (bodyOf w) number ∧ c.mBody ≠ some number := by
      constructor
      · rintro ⟨q, other, holds⟩
        refine ⟨⟨q, holds⟩, fun own => ?_⟩
        exact other (h.bodies.distinct q p number holds (body.trans own))
      · rintro ⟨⟨q, holds⟩, notOwn⟩
        refine ⟨q, ?_, holds⟩
        rintro rfl
        exact notOwn (body.symm.trans holds)
    rw [others, held_bodyOf, ← sync.world]
    cases c.mBody with
    | none => simp
    | some own => simp [h.nodup.mem_erase_iff, and_comm, eq_comm]
  · rw [show shapeOf (unloaded w p c) = _ from pointerOf_update _ _, unloaded, ← shape]
    exact h.shapes.accounted_deleteHeld sync.shapes
  · rw [show motionStateOf (unloaded w p c) = _ from pointerOf_update _ _, unloaded, ← state]
    exact h.motionStates.accounted_deleteHeld sync.motionStates
  · rw [bodies, unloaded, ← body]
    exact h.bodies.accounted_deleteHeld sync.bodies

theorem created_sound [Zero V] (h : Sound w) {address owner : Ptr}
    (free : w.components address = none) :
    Sound (setComponent w address (some ⟨owner, none, 0, none, none, none⟩)) ∧
      (InSync w → InSync (setComponent w address (some ⟨owner, none, 0, none, none, none⟩))) := by
  set w' := setComponent w address (some ⟨owner, none, 0, none, none, none⟩)
  have same : ∀ field : PhysicsComponent F V → Option Nat,
      field ⟨owner, none, 0, none, none, none⟩ = none →
      (fun q => (w'.components q).bind field) = fun q => (w.components q).bind field := by
    intro field empty
    rw [show (fun q => (w'.components q).bind field) = _ from pointerOf_update _ _]
    exact Function.update_eq_self_iff.mpr (by simp [free, empty])
  have shapes : shapeOf w' = shapeOf w := same _ rfl
  have motionStates : motionStateOf w' = motionStateOf w := same _ rfl
  have bodies : bodyOf w' = bodyOf w := same _ rfl
  constructor
  · refine ⟨shapes ▸ h.shapes, motionStates ▸ h.motionStates, bodies ▸ h.bodies, h.nodup,
      fun q u found empty => ?_⟩
    by_cases own : q = address
    · subst own
      obtain rfl : _ = u := by simpa [w', setComponent] using found
      exact ⟨rfl, rfl⟩
    · exact h.together q u (by simpa [w', setComponent, own] using found) empty
  · intro sync
    refine ⟨fun number => ?_, shapes ▸ sync.shapes, motionStates ▸ sync.motionStates,
      bodies ▸ sync.bodies⟩
    rw [← held_bodyOf, bodies, held_bodyOf]
    exact sync.world number

end ownership

section steps

variable [Zero V] [Add V] {calculateLocalInertia : Geometry F V → F → V}
  {w w' : PhysicsWorld F V Q}

theorem step_create {address owner : Ptr}
    (returned : step calculateLocalInertia w (.create address owner) = some w') :
    w.components address = none ∧
      w' = setComponent w address (some ⟨owner, none, 0, none, none, none⟩) := by
  rw [step, Op.run, bind_get_run] at returned
  by_cases free : address ≠ 0 ∧ (w.components address).isNone = true
  · rw [bind_of_returned (require_pos free _ _), newPhysicsComponent, modify_run] at returned
    obtain rfl := Option.some.inj returned
    exact ⟨Option.isNone_iff_eq_none.mp free.2, rfl⟩
  · rw [bind_of_stopped (require_neg free _ _)] at returned
    simp at returned

theorem step_load (calculateLocalInertia : Geometry F V → F → V) {op : Op F V Q} {p : Ptr}
    {c : PhysicsComponent F V} (loads : op.loads = some p) (found : w.components p = some c) :
    ∃ c' shape state body,
      step calculateLocalInertia w op = some (loaded w p c' shape state body) := by
  cases op with
  | create | delete => simp [Op.loads] at loads
  | loadBox q node offset extents mass =>
      obtain rfl := Option.some.inj loads
      obtain ⟨shape, state, body, run⟩ :=
        loadBox_run calculateLocalInertia node found offset extents mass
      exact ⟨_, shape, state, body, by rw [step, Op.run, run]⟩
  | loadSphere q node offset rad mass =>
      obtain rfl := Option.some.inj loads
      obtain ⟨shape, state, body, run⟩ :=
        loadSphere_run calculateLocalInertia node found offset rad mass
      exact ⟨_, shape, state, body, by rw [step, Op.run, run]⟩

theorem step_load_missing {op : Op F V Q} {p : Ptr} (loads : op.loads = some p)
    (missing : w.components p = none) : step calculateLocalInertia w op = none := by
  cases op with
  | create | delete => simp [Op.loads] at loads
  | loadBox q node offset extents mass =>
      obtain rfl := Option.some.inj loads
      rw [step, Op.run, Physics.loadBox, bind_of_stopped (component_missing missing)]
  | loadSphere q node offset rad mass =>
      obtain rfl := Option.some.inj loads
      rw [step, Op.run, Physics.loadSphere, bind_of_stopped (component_missing missing)]

theorem step_delete {p : Ptr} (returned : step calculateLocalInertia w (.delete p) = some w') :
    ∃ c, w.components p = some c ∧ w' = unloaded w p c := by
  rw [step, Op.run] at returned
  cases found : w.components p with
  | none =>
      rw [deletePhysicsComponent, bind_of_stopped (component_missing found)] at returned
      simp at returned
  | some c =>
      rw [deletePhysicsComponent_run found] at returned
      exact ⟨c, rfl, (Option.some.inj returned).symm⟩

theorem load_inSync (h : Sound w) (sync : InSync w) {op : Op F V Q} {p : Ptr}
    (loads : op.loads = some p) :
    (∀ w', step calculateLocalInertia w op = some w' → InSync w') ↔
      ∀ c, w.components p = some c → c.mBody = none := by
  cases found : w.components p with
  | none => simp [step_load_missing loads found]
  | some c =>
      obtain ⟨c', shape, state, body, run⟩  := step_load calculateLocalInertia loads found
      rw [run]
      simpa using loaded_inSync_iff (c := c') h sync found shape state body

/-- One step: everything stays in step exactly when no loaded component is loaded. -/
theorem step_inSync (h : Sound w) (sync : InSync w) (op : Op F V Q) :
    (∀ w', step calculateLocalInertia w op = some w' → InSync w') ↔ LoadGuard w op := by
  cases op with
  | create address owner =>
      refine iff_of_true (fun w' returned => ?_) trivial
      obtain ⟨free, rfl⟩ := step_create returned
      exact (created_sound h free).2 sync
  | loadBox p node offset extents mass => exact load_inSync h sync rfl
  | loadSphere p node offset rad mass => exact load_inSync h sync rfl
  | delete p =>
      refine iff_of_true (fun w' returned => ?_) trivial
      obtain ⟨c, found, rfl⟩ := step_delete returned
      exact unloaded_inSync h sync found

theorem load_sound (h : Sound w) (sync : InSync w) {op : Op F V Q} {p : Ptr}
    (loads : op.loads = some p) (returned : step calculateLocalInertia w op = some w') :
    Sound w' := by
  cases found : w.components p with
  | none => simp [step_load_missing loads found] at returned
  | some c =>
      obtain ⟨c', shape, state, body, run⟩  := step_load calculateLocalInertia loads found
      obtain rfl := Option.some.inj (run.symm.trans returned)
      exact loaded_sound h shape state body (sync.fresh h)

theorem step_sound (h : Sound w) (sync : InSync w) {op : Op F V Q}
    (returned : step calculateLocalInertia w op = some w') : Sound w' := by
  cases op with
  | create address owner =>
      obtain ⟨free, rfl⟩ := step_create returned
      exact (created_sound h free).1
  | loadBox p node offset extents mass => exact load_sound h sync rfl returned
  | loadSphere p node offset rad mass => exact load_sound h sync rfl returned
  | delete p =>
      obtain ⟨c, found, rfl⟩ := step_delete returned
      exact unloaded_sound h found

omit [Zero V] [Add V] in
theorem start_sound : Sound (start : PhysicsWorld F V Q) where
  shapes := owned_empty
  motionStates := owned_empty
  bodies := owned_empty
  nodup := List.nodup_nil
  together _ _ found := by simp [start] at found

omit [Zero V] [Add V] in
theorem start_inSync : InSync (start : PhysicsWorld F V Q) where
  world body := by simp [start]
  shapes := accounted_empty
  motionStates := accounted_empty
  bodies := accounted_empty

/-- Over any run: the world holds exactly the bodies of the components, and every shape,
motion state and body is held or was deleted once, if and only if every load is of a
component without a body. -/
theorem inSync_iff (calculateLocalInertia : Geometry F V → F → V) (ops : List (Op F V Q)) :
    Throughout (step calculateLocalInertia) InSync start ops ↔
      Along (step calculateLocalInertia) LoadGuard start ops :=
  throughout_iff (I := Sound) (L := fun _ => True)
    (fun _ op h sync _ => step_inSync h sync op)
    (fun _ _ _ h sync _ _ returned => step_sound h sync returned) start_sound start_inSync
    (fun _ _ => trivial)

end steps

/-- A box and then a sphere on one component: the body of the box stays in the world, and
its component does not know it. -/
theorem not_inSync :
    ¬ Throughout (step fun (_ : Geometry Nat Int) _ => 0) InSync start
      [.create 16 8, .loadBox (Q := Unit) 16 ⟨id, 0, ()⟩ 0 1 2,
        .loadSphere 16 ⟨id, 0, ()⟩ 0 1 2] := by
  intro all
  have after := all _ (List.prefix_refl _) _ rfl
  obtain ⟨p, c, found, body⟩ := (after.world 0).mp (by decide)
  by_cases same : p = 16
  · subst same
    obtain rfl := Option.some.inj found
    exact absurd body (by decide)
  · simp [setComponent, start, same] at found

end Ssuge.Physics

import Mathlib.Algebra.Ring.Int.Defs
import Ssuge.Engine
import Ssuge.GuardedRun

/-! A game object as the listener of its scene node: `nodeUpdated` passes the node's
transform on to the components, at most once for each tick of the application's
clock, which moves once a frame. What a component was last told is kept next to it.
The arithmetic of vectors and quaternions is that of their types, and the division
of a way by the milliseconds it took is a parameter. -/

namespace Ssuge.NodeUpdates

open Procedure GuardedRun

structure NodeTransform (V Q : Type) where
  position : V
  derivedPosition : V
  derivedOrientation : Q

/-- What `onTransform` reads and writes; the mass is set by the loads only. -/
structure PhysicsComponent (F V Q : Type) where
  Cmass : Option F
  mOffset : V
  /-- The world transform of the body; `none` is the NULL pointer. -/
  mBody : Option (V × Q)

/-- A component in its slot. Only a physics component does something in `onTransform`. -/
structure Attached (F V Q : Type) where
  /-- The transform of the last call of `onTransform`. -/
  received : Option (NodeTransform V Q)
  physics : Option (PhysicsComponent F V Q)

structure GameObject (F V Q : Type) where
  mLastTick : UInt32
  mOldTime : Int32
  mNewTime : Option Int32
  mOldPosition : Option V
  mVelocity : Option V
  mComponents : ComponentType → Option (Attached F V Q)

abbrev ObjectProc (F V Q : Type) := Proc Stop (GameObject F V Q)

variable {F V Q : Type}

/-- `BASE_APPLICATION->getTime()`, as the `int` that it is stored in. -/
def getTime (o : GameObject F V Q) : Int32 := o.mLastTick.toInt32

/-- The object after its constructor: the old position is not set. -/
def constructed (mLastTick : UInt32) : GameObject F V Q where
  mLastTick := mLastTick
  mOldTime := mLastTick.toInt32
  mNewTime := none
  mOldPosition := none
  mVelocity := none
  mComponents _ := none

def setComponent (o : GameObject F V Q) (t : ComponentType) (c : Attached F V Q) :
    GameObject F V Q :=
  { o with mComponents := Function.update o.mComponents t (some c) }

section updates

variable [Sub V] [One F] [LT F] [DecidableLT F]

def onTransform (n : NodeTransform V Q) (c : PhysicsComponent F V Q) :
    ObjectProc F V Q (PhysicsComponent F V Q) := do
  let Cmass ← orStop c.Cmass .undefined
  if Cmass < 1 then do
    let _ ← orStop c.mBody .undefined
    pure { c with mBody := some (n.derivedPosition - c.mOffset, n.derivedOrientation) }
  else pure c

def callTransform (n : NodeTransform V Q) (c : Attached F V Q) :
    ObjectProc F V Q (Attached F V Q) := do
  match c.physics with
  | none => pure ⟨some n, none⟩
  | some physics =>
      let moved ← onTransform n physics
      pure ⟨some n, some moved⟩

def transformSlots (n : NodeTransform V Q) : List ComponentType → ObjectProc F V Q Unit
  | [] => pure ()
  | t :: ts => do
      match (← get).mComponents t with
      | none => transformSlots n ts
      | some c =>
          let c ← callTransform n c
          modify fun o => setComponent o t c
          transformSlots n ts

def slots : List ComponentType := [.mesh, .sound, .camera, .physics]

def passOn (perSecond : V → Int32 → V) (n : NodeTransform V Q) (dT : Int32) :
    ObjectProc F V Q Unit := do
  modify fun o =>
    { o with mVelocity := o.mOldPosition.map fun old => perSecond (n.position - old) dT }
  transformSlots n slots
  modify fun o => { o with mOldPosition := some n.position, mOldTime := getTime o }

/-- `dT` is the quotient of an `int` by 1000, which is zero only if the `int` is. -/
def nodeUpdated (perSecond : V → Int32 → V) (n : NodeTransform V Q) : ObjectProc F V Q Unit := do
  modify fun o => { o with mNewTime := some (getTime o) }
  let dT := getTime (← get) - (← get).mOldTime
  if dT ≠ 0 then passOn perSecond n dT else pure ()

section runs

variable [Zero V]

def newComponent (t : ComponentType) : Attached F V Q :=
  ⟨none, if t = .physics then some ⟨none, 0, none⟩ else none⟩

/-- What the loads of the physics component set, with the transform that the body gets. -/
def loadPhysics (set : PhysicsComponent F V Q → PhysicsComponent F V Q) :
    ObjectProc F V Q Unit := do
  let c ← orStop ((← get).mComponents .physics) .undefined
  let physics ← orStop c.physics .undefined
  modify fun o => setComponent o .physics { c with physics := some (set physics) }

def loadBox (offset : V) (mass : F) (body : V × Q) : ObjectProc F V Q Unit :=
  loadPhysics fun c => { c with Cmass := some mass, mOffset := offset, mBody := some body }

/-- The offset stays as it was. -/
def loadSphere (mass : F) (body : V × Q) : ObjectProc F V Q Unit :=
  loadPhysics fun c => { c with Cmass := some mass, mBody := some body }

inductive Op (F V Q : Type)
  | frame (ticks : UInt32)
  | createComponent (t : ComponentType)
  | loadBox (offset : V) (mass : F) (body : V × Q)
  | loadSphere (mass : F) (body : V × Q)
  | nodeUpdated (n : NodeTransform V Q)

/-- A frame starts by reading the clock. -/
def Op.run (perSecond : V → Int32 → V) : Op F V Q → ObjectProc F V Q Unit
  | .frame ticks => modify fun o => { o with mLastTick := ticks }
  | .createComponent t => modify fun o => setComponent o t (newComponent t)
  | .loadBox offset mass body => NodeUpdates.loadBox offset mass body
  | .loadSphere mass body => NodeUpdates.loadSphere mass body
  | .nodeUpdated n => NodeUpdates.nodeUpdated perSecond n

def step (perSecond : V → Int32 → V) (o : GameObject F V Q) (op : Op F V Q) :
    Option (GameObject F V Q) :=
  match (op.run perSecond).run o with
  | .returned _ o' => some o'
  | .stopped _ _ => none

end runs

/-- Every component was told this transform last, and the object has its position. -/
structure UpToDate (o : GameObject F V Q) (n : NodeTransform V Q) : Prop where
  received : ∀ t c, o.mComponents t = some c → c.received = some n
  position : o.mOldPosition = some n.position

/-- The component has a mass, and a body if it is to be moved. -/
def Movable (c : PhysicsComponent F V Q) : Prop :=
  ∃ mass, c.Cmass = some mass ∧ (mass < 1 → c.mBody ≠ none)

/-- `onTransform` of the component is defined. -/
def Ready (c : Attached F V Q) : Prop := ∀ physics, c.physics = some physics → Movable physics

/-- The clock has moved since the last notification that was passed on and the
components can be told; or it has not, and they know already. -/
def DeliveryGuard (o : GameObject F V Q) : Op F V Q → Prop
  | .nodeUpdated n =>
      getTime o ≠ o.mOldTime ∧ (∀ t c, o.mComponents t = some c → Ready c) ∨
        getTime o = o.mOldTime ∧ UpToDate o n
  | _ => True

section runs

variable [Zero V]

/-- No notification is lost, nor one that cannot be passed on. -/
def Delivers (perSecond : V → Int32 → V) (o : GameObject F V Q) : Op F V Q → Prop
  | .nodeUpdated n => ∃ o', step perSecond o (.nodeUpdated n) = some o' ∧ UpToDate o' n
  | _ => True

end runs

def moved (n : NodeTransform V Q) (c : PhysicsComponent F V Q) : PhysicsComponent F V Q :=
  match c.Cmass with
  | some mass =>
      if mass < 1 then
        { c with mBody := some (n.derivedPosition - c.mOffset, n.derivedOrientation) }
      else c
  | none => c

def told (n : NodeTransform V Q) (c : Attached F V Q) : Attached F V Q :=
  ⟨some n, c.physics.map (moved n)⟩

def toldSlots (o : GameObject F V Q) (n : NodeTransform V Q) (ts : List ComponentType) :
    GameObject F V Q :=
  { o with mComponents := fun t =>
      if t ∈ ts then (o.mComponents t).map (told n) else o.mComponents t }

variable {o o' : GameObject F V Q} {n : NodeTransform V Q}

theorem onTransform_movable {c : PhysicsComponent F V Q} (movable : Movable c) :
    (onTransform n c).run o = .returned (moved n c) o := by
  obtain ⟨mass, set, body⟩ := movable
  unfold onTransform
  rw [set, bind_some_run, moved, set]
  by_cases light : mass < 1
  · obtain ⟨b, held⟩ := Option.ne_none_iff_exists'.mp (body light)
    rw [if_pos light, held, bind_some_run, pure_run]
    simp only [if_pos light]
  · rw [if_neg light, pure_run]
    simp only [if_neg light]

theorem onTransform_stuck {c : PhysicsComponent F V Q} (stuck : ¬ Movable c) :
    (onTransform n c).run o = .stopped .undefined o := by
  unfold onTransform
  cases set : c.Cmass with
  | none => rw [bind_none_run]
  | some mass =>
      rw [bind_some_run]
      by_cases light : mass < 1
      · have null : c.mBody = none := by
          by_contra body
          exact stuck ⟨mass, set, fun _ => body⟩
        rw [if_pos light, null, bind_none_run]
      · exact absurd ⟨mass, set, fun less => absurd less light⟩ stuck

theorem callTransform_ready {c : Attached F V Q} (ready : Ready c) :
    (callTransform n c).run o = .returned (told n c) o := by
  obtain ⟨received, physics⟩ := c
  cases physics with
  | none => rfl
  | some physics => exact bind_of_returned (onTransform_movable (ready physics rfl)) _

theorem callTransform_stuck {c : Attached F V Q} (stuck : ¬ Ready c) :
    (callTransform n c).run o = .stopped .undefined o := by
  obtain ⟨received, physics⟩ := c
  cases physics with
  | none => exact absurd (fun _ found => by simp at found) stuck
  | some physics =>
      refine bind_of_stopped (onTransform_stuck fun movable => stuck fun p found => ?_) _
      obtain rfl := Option.some.inj found
      exact movable

theorem toldSlots_empty {t : ComponentType} (empty : o.mComponents t = none)
    (ts : List ComponentType) : toldSlots o n (t :: ts) = toldSlots o n ts := by
  unfold toldSlots
  congr 1
  funext u
  by_cases same : u = t
  · subst same
    simp [empty]
  · simp [same]

theorem toldSlots_filled {t : ComponentType} {c : Attached F V Q}
    (held : o.mComponents t = some c) {ts : List ComponentType} (fresh : t ∉ ts) :
    toldSlots (setComponent o t (told n c)) n ts = toldSlots o n (t :: ts) := by
  unfold toldSlots setComponent
  congr 1
  funext u
  by_cases same : u = t
  · subst same
    simp [fresh, held]
  · simp [same]

theorem transformSlots_run {ts : List ComponentType} (nodup : ts.Nodup) :
    ((∀ t ∈ ts, ∀ c, o.mComponents t = some c → Ready c) ∧
      (transformSlots n ts).run o = .returned () (toldSlots o n ts)) ∨
    ((∃ t ∈ ts, ∃ c, o.mComponents t = some c ∧ ¬ Ready c) ∧
      ∃ o', (transformSlots n ts).run o = .stopped .undefined o') := by
  induction ts generalizing o with
  | nil => exact .inl ⟨by simp, by simp [transformSlots, toldSlots]⟩
  | cons t ts ih =>
      obtain ⟨fresh, nodup⟩ := List.nodup_cons.mp nodup
      rw [transformSlots, bind_get_run]
      cases held : o.mComponents t with
      | none =>
          rw [toldSlots_empty held]
          rcases ih nodup with ⟨ready, told⟩ | ⟨⟨u, member, stuck⟩, stopped⟩
          · refine .inl ⟨fun u member c filled => ?_, told⟩
            rcases List.mem_cons.mp member with rfl | later
            · simp [held] at filled
            · exact ready u later c filled
          · exact .inr ⟨⟨u, List.mem_cons_of_mem t member, stuck⟩, stopped⟩
      | some c =>
          have others : ∀ u ∈ ts,
              (setComponent o t (told n c)).mComponents u = o.mComponents u := by
            intro u member
            have apart : u ≠ t := fun same => fresh (same ▸ member)
            simp [setComponent, apart]
          by_cases ready : Ready c
          · simp only [bind_of_returned (callTransform_ready ready), bind_modify_run]
            rcases ih (o := setComponent o t (told n c)) nodup with
              ⟨rest, run⟩ | ⟨⟨u, member, d, filled, stuck⟩, stopped⟩
            · refine .inl ⟨fun u member d filled => ?_, run.trans ?_⟩
              · rcases List.mem_cons.mp member with rfl | later
                · exact Option.some.inj (held.symm.trans filled) ▸ ready
                · exact rest u later d ((others u later).trans filled)
              · rw [toldSlots_filled held fresh]
            · exact .inr ⟨⟨u, List.mem_cons_of_mem t member, d,
                (others u member).symm.trans filled, stuck⟩, stopped⟩
          · exact .inr ⟨⟨t, List.mem_cons_self, c, held, ready⟩, o, by
              simp only [bind_of_stopped (callTransform_stuck ready)]⟩

def notified (perSecond : V → Int32 → V) (o : GameObject F V Q) (n : NodeTransform V Q) :
    GameObject F V Q where
  mLastTick := o.mLastTick
  mOldTime := getTime o
  mNewTime := some (getTime o)
  mOldPosition := some n.position
  mVelocity := o.mOldPosition.map fun old => perSecond (n.position - old) (getTime o - o.mOldTime)
  mComponents t := (o.mComponents t).map (told n)

theorem mem_slots (t : ComponentType) : t ∈ slots := by
  cases t <;> decide

omit [Sub V] [One F] [LT F] [DecidableLT F] in
theorem elapsed_iff : getTime o - o.mOldTime ≠ 0 ↔ getTime o ≠ o.mOldTime := by
  rw [ne_eq, ne_eq, Int32.sub_eq_iff_eq_add, Int32.zero_add]

theorem nodeUpdated_run (perSecond : V → Int32 → V) :
    (nodeUpdated perSecond n).run o =
      (if getTime o - o.mOldTime ≠ 0 then passOn perSecond n (getTime o - o.mOldTime)
        else pure ()).run { o with mNewTime := some (getTime o) } := rfl

/-- A notification in the tick of the last one is dropped. -/
theorem nodeUpdated_same (perSecond : V → Int32 → V) (same : getTime o = o.mOldTime) :
    (nodeUpdated perSecond n).run o = .returned () { o with mNewTime := some (getTime o) } := by
  rw [nodeUpdated_run, if_neg (fun elapsed => elapsed_iff.mp elapsed same), pure_run]

/-- A notification in a new tick is passed on, if all components are ready for it. -/
theorem nodeUpdated_later (perSecond : V → Int32 → V) (later : getTime o ≠ o.mOldTime) :
    ((∀ t c, o.mComponents t = some c → Ready c) ∧
      (nodeUpdated perSecond n).run o = .returned () (notified perSecond o n)) ∨
    ((∃ t c, o.mComponents t = some c ∧ ¬ Ready c) ∧
      ∃ o', (nodeUpdated perSecond n).run o = .stopped .undefined o') := by
  rw [nodeUpdated_run, if_pos (elapsed_iff.mpr later), passOn, bind_modify_run]
  rcases transformSlots_run (n := n) (o := { o with
      mNewTime := some (getTime o)
      mVelocity := o.mOldPosition.map fun old =>
        perSecond (n.position - old) (getTime o - o.mOldTime) })
      (show slots.Nodup by decide) with ⟨ready, told⟩ | ⟨⟨t, -, c, held, stuck⟩, o', stopped⟩
  · refine .inl ⟨fun t => ready t (mem_slots t), (bind_of_returned told _).trans ?_⟩
    rw [modify_run, toldSlots]
    simp only [mem_slots, if_true]
    rfl
  · exact .inr ⟨⟨t, c, held, stuck⟩, o', bind_of_stopped stopped _⟩

theorem notified_upToDate (perSecond : V → Int32 → V) (o : GameObject F V Q)
    (n : NodeTransform V Q) : UpToDate (notified perSecond o n) n where
  received t c held := by
    obtain ⟨before, -, rfl⟩ := Option.map_eq_some_iff.mp held
    rfl
  position := rfl

section runs

variable [Zero V]

theorem step_nodeUpdated (perSecond : V → Int32 → V) (o : GameObject F V Q)
    (n : NodeTransform V Q) :
    Delivers perSecond o (.nodeUpdated n) ↔ DeliveryGuard o (.nodeUpdated n) := by
  simp only [Delivers, DeliveryGuard, step, Op.run]
  by_cases same : getTime o = o.mOldTime
  · rw [nodeUpdated_same perSecond same]
    constructor
    · rintro ⟨o', reached, current⟩
      obtain rfl := Option.some.inj reached
      exact .inr ⟨same, current.received, current.position⟩
    · rintro (⟨later, -⟩ | ⟨-, current⟩)
      · exact absurd same later
      · exact ⟨_, rfl, current.received, current.position⟩
  · rcases nodeUpdated_later (n := n) perSecond same with
      ⟨ready, passed⟩ | ⟨⟨t, c, held, stuck⟩, o', stopped⟩
    · rw [passed]
      exact iff_of_true ⟨_, rfl, notified_upToDate perSecond o n⟩ (.inl ⟨same, ready⟩)
    · rw [stopped]
      refine iff_of_false (fun delivered => ?_) ?_
      · obtain ⟨o', reached, -⟩ := delivered
        simp at reached
      · rintro (⟨-, ready⟩ | ⟨same', -⟩)
        · exact stuck (ready t c held)
        · exact same same'

/-- Over any run: every notification reaches every component and the old position, if
and only if each comes in a new tick, to components that can be told, or says what
they know already. -/
theorem delivers_iff (perSecond : V → Int32 → V) (mLastTick : UInt32) (ops : List (Op F V Q)) :
    Along (step perSecond) (Delivers perSecond) (constructed mLastTick) ops ↔
      Along (step perSecond) DeliveryGuard (constructed mLastTick) ops :=
  along_iff (I := fun _ => True) (L := fun _ => True)
    (fun o op _ _ => by
      cases op with
      | nodeUpdated n => exact step_nodeUpdated perSecond o n
      | frame | createComponent | loadBox | loadSphere => exact Iff.rfl)
    (fun _ _ _ _ _ _ _ => trivial) trivial (fun _ _ => trivial)

end runs

end updates

/-- Two notifications in one frame: the second is lost. -/
theorem not_delivers :
    ¬ Along (step fun (way : Int) _ => way) (Delivers fun way _ => way)
      (constructed 1000 : GameObject Int Int Unit)
      [.frame 1016, .createComponent .mesh, .nodeUpdated ⟨1, 1, ()⟩, .nodeUpdated ⟨2, 2, ()⟩] := by
  rintro ⟨-, all⟩
  obtain ⟨-, all⟩ := all _ rfl
  obtain ⟨-, all⟩ := all _ rfl
  obtain ⟨⟨o', reached, -, position⟩, -⟩ := all _ rfl
  obtain rfl := Option.some.inj reached
  exact absurd position (by decide)

end Ssuge.NodeUpdates

import Mathlib.Algebra.Module.NatInt
import Ssuge.DisabledComponents

/-! The rigid body of an object and its node, while nothing moves the body. A load puts the
body at the offset from the node, and at the node again; each round then copies the body to
the node and, when the node tells, the node to the body, less the offset that a box has kept.
What a round does is the same in every round, so the body stays where it is in all rounds or
in none. -/

namespace Ssuge.Components

open CString Procedure

abbrev exactVectorial (V : Type) [AddCommGroup V] : Vectorial V where

attribute [local instance] exactVectorial

variable {F V Q B : Type} [Scalar F] [AddCommGroup V]

inductive Load (F V : Type)
  | box (offset extents : V)
  | sphere (offset : V) (rad : F)

namespace Load

def offset : Load F V → V
  | .box offset _ => offset
  | .sphere offset _ => offset

/-- What `mOffset` is after the load. -/
def kept (mOffset : V) : Load F V → V
  | .box offset _ => offset
  | .sphere _ _ => mOffset

def run (lib : Library F V Q B) (answers : Answers F V Q) (mass : F) :
    Load F V → WorldProc F V Q B Unit
  | .box offset extents => PhysicsComponent.loadBox lib answers offset extents mass
  | .sphere offset rad => PhysicsComponent.loadSphere lib answers offset rad mass

end Load

/-- A node at the root has the transform that it is given. -/
def Node.derived (n : Node V Q) : DerivedTransform V Q := ⟨n.position, n.orientation⟩

section rounds

variable (lib : Library F V Q B) (worldTransform : B → V × Q)

/-- What Ogre does with a node at the root that is neither turned nor scaled, and Bullet with
the transform of a body. -/
structure Plain : Prop where
  convert : ∀ n v, lib.convertLocalToWorldPosition n v = n.position + v
  newBody : ∀ mass transform shape inertia,
    worldTransform (lib.newBody mass transform shape inertia) = transform
  setWorldTransform : ∀ body transform,
    worldTransform (lib.setWorldTransform body transform) = transform

def reflect : ComponentProc F V Q (PhysicsComponent F V Q B) Unit :=
  modifyOwn fun c => { c with mMotionState := c.mBody.map worldTransform }

/-- The body is copied to the node, and the node calls back. -/
def synchronise : WorldProc F V Q B Unit := do
  onComponent .physics (reflect worldTransform)
  onComponent .physics PhysicsComponent.update
  onTransform lib (← get).around.node.derived .physics

def rounds : Nat → WorldProc F V Q B Unit
  | 0 => pure ()
  | k + 1 => do
      synchronise lib worldTransform
      rounds k

def bodyPosition (w : World F V Q B) : Option V :=
  (w.mComponents .physics).bind fun c => c.mBody.map fun body => (worldTransform body).1

/-- After a load, no number of rounds moves the body, or the node from where it was before
the load. -/
structure FixedPoint (w loaded : World F V Q B) : Prop where
  body : ∀ k, ∃ v, (rounds lib worldTransform k).run loaded = .returned () v ∧
    bodyPosition worldTransform v = bodyPosition worldTransform loaded
  node : ∀ k, ∃ v, (rounds lib worldTransform k).run loaded = .returned () v ∧
    v.around.node.position = w.around.node.position

def Follows (w : World F V Q B) (mOffset : V) (body : B) : Prop :=
  ∃ c mass, w.mComponents .physics = some c ∧ c.mOffset = mOffset ∧ c.mBody = some body ∧
    c.Cmass = some mass ∧ mass < 1

end rounds

section runs

variable {lib : Library F V Q B} {worldTransform : B → V × Q}

variable {c : PhysicsComponent F V Q B} {body : B}

omit [Scalar F] [AddCommGroup V] in
theorem put_slot {t : ComponentType} (w : World F V Q B) (held : Of F V Q B t × Around F V Q) :
    (World.put t w held).mComponents t = some held.1 := Function.update_self t _ _

variable (worldTransform) in
omit [Scalar F] [AddCommGroup V] in
theorem reflect_run (there : c.mBody = some body) (a : Around F V Q) :
    (reflect worldTransform).run (c, a) =
      .returned () ({ c with mMotionState := some (worldTransform body) }, a) := by
  change Ending.returned () ({ c with mMotionState := c.mBody.map worldTransform }, a) = _
  rw [there]
  rfl

omit [Scalar F] [AddCommGroup V] in
theorem physicsUpdate_run (there : c.mBody = some body) {transform : V × Q}
    (state : c.mMotionState = some transform) (a : Around F V Q) :
    PhysicsComponent.update.run (c, a) =
      .returned () (c, { a with node := ⟨transform.1, transform.2⟩ }) := by
  rw [PhysicsComponent.update, bind_get_run]
  simp only [there]
  rw [state, bind_some_run]
  rfl

variable (lib) in
theorem physicsOnTransform_run (there : c.mBody = some body) {mass : F}
    (heavy : c.Cmass = some mass) (light : mass < 1) (n : DerivedTransform V Q)
    (a : Around F V Q) : (PhysicsComponent.onTransform lib n).run (c, a) = .returned () ({ c with
      mBody := some (lib.setWorldTransform body (n.position - c.mOffset, n.orientation)) }, a) := by
  have Cmass : (orStop c.Cmass .undefined : ComponentProc F V Q _ F).run (c, a) =
      .returned mass (c, a) := by rw [heavy, orStop_some]
  have mBody : (orStop c.mBody .undefined : ComponentProc F V Q _ B).run (c, a) =
      .returned body (c, a) := by rw [there, orStop_some]
  rw [PhysicsComponent.onTransform, bind_get_run]
  simp only []
  rw [bind_of_returned Cmass, if_pos light, bind_of_returned mBody]
  rfl

omit [AddCommGroup V] in
theorem Follows.bodyPosition {w : World F V Q B} {m : V} (follows : Follows w m body) :
    bodyPosition worldTransform w = some (worldTransform body).1 := by
  obtain ⟨c, mass, slot, -, there, -, -⟩ := follows
  rw [Components.bodyPosition, slot, Option.bind_some, there, Option.map_some]

/-- In a round the node comes to where the body is, and the body goes on by the offset. -/
theorem Follows.synchronise (plain : Plain lib worldTransform) {w : World F V Q B} {m : V}
    (follows : Follows w m body) :
    ∃ v body', (synchronise lib worldTransform).run w = .returned () v ∧ Follows v m body' ∧
      (worldTransform body').1 = (worldTransform body).1 - m ∧
      v.around.node.position = (worldTransform body).1 := by
  obtain ⟨c, mass, slot, rfl, there, heavy, light⟩ := follows
  set transform := worldTransform body with transform_eq
  set held : PhysicsComponent F V Q B := { c with mMotionState := some transform } with held_eq
  set around : Around F V Q := { w.around with node := ⟨transform.1, transform.2⟩ } with around_eq
  set body' := lib.setWorldTransform body (transform.1 - c.mOffset, transform.2) with body'_eq
  have reflected := onComponent_returned slot
    (reflect_run worldTransform there w.around)
  set w₁ := World.put .physics w (held, w.around) with w₁_eq
  have updated := onComponent_returned (put_slot (t := .physics) w (held, w.around))
    (physicsUpdate_run (c := held) there rfl w.around)
  set w₂ := World.put .physics w₁ (held, around) with w₂_eq
  have called := onComponent_returned (put_slot (t := .physics) w₁ (held, around))
    (physicsOnTransform_run lib (c := held) there heavy light around.node.derived around)
  refine ⟨World.put .physics w₂ ({ held with mBody := some body' }, around), body', ?_, ?_, ?_, rfl⟩
  · rw [Components.synchronise, bind_of_returned reflected, bind_of_returned updated, bind_get_run]
    exact called
  · exact ⟨_, mass, put_slot (t := .physics) w₂ _, rfl, rfl, heavy, light⟩
  · rw [body'_eq, plain.setWorldTransform]

theorem Follows.rounds (plain : Plain lib worldTransform) {w : World F V Q B} {m : V}
    (follows : Follows w m body) (k : Nat) :
    ∃ v body', (rounds lib worldTransform k).run w = .returned () v ∧ Follows v m body' ∧
      (worldTransform body').1 = (worldTransform body).1 - k • m ∧
      (k = 0 ∧ v = w ∨ v.around.node.position = (worldTransform body').1 + m) := by
  induction k generalizing w body with
  | zero => exact ⟨w, body, rfl, follows, by simp, .inl ⟨rfl, rfl⟩⟩
  | succ k ih =>
      obtain ⟨u, next, first, still, gone, reached⟩ := follows.synchronise plain
      obtain ⟨v, last, rest, follows', position, node⟩ := ih still
      refine ⟨v, last, (bind_of_returned first _).trans rest, follows', ?_, .inr ?_⟩
      · rw [position, gone, succ_nsmul', sub_sub]
      · rcases node with ⟨rfl, rfl⟩ | node
        · rw [reached, position, gone, zero_smul, sub_zero, sub_add_cancel]
        · exact node

theorem Follows.stays_iff (plain : Plain lib worldTransform) {w loaded : World F V Q B} {m : V}
    (follows : Follows loaded m body) (unmoved : loaded.around.node = w.around.node) :
    FixedPoint lib worldTransform w loaded ↔
      m = 0 ∧ (worldTransform body).1 = w.around.node.position := by
  constructor
  · rintro ⟨fixed, still⟩
    obtain ⟨v, body', ran, follows', position, node⟩ := follows.rounds plain 1
    obtain ⟨v₁, ran₁, same⟩ := fixed 1
    obtain ⟨v₂, ran₂, there⟩ := still 1
    obtain rfl := (Ending.returned.inj (ran.symm.trans ran₁)).2
    obtain rfl := (Ending.returned.inj (ran.symm.trans ran₂)).2
    rw [follows'.bodyPosition, follows.bodyPosition, Option.some.injEq, position, one_smul,
      sub_eq_self] at same
    refine ⟨same, ?_⟩
    have reached := node.resolve_left fun none => absurd none.1 one_ne_zero
    rw [← there, reached, position, same, smul_zero, sub_zero, add_zero]
  · rintro ⟨rfl, there⟩
    have all : ∀ k, ∃ v, (Components.rounds lib worldTransform k).run loaded = .returned () v ∧
        Components.bodyPosition worldTransform v = Components.bodyPosition worldTransform loaded ∧
          v.around.node.position = w.around.node.position := by
      intro k
      obtain ⟨v, body', ran, follows', position, node⟩ := follows.rounds plain k
      rw [smul_zero, sub_zero] at position
      refine ⟨v, ran, ?_, ?_⟩
      · rw [follows'.bodyPosition, follows.bodyPosition, position]
      · rcases node with ⟨-, rfl⟩ | reached
        · rw [unmoved]
        · rw [reached, position, add_zero, there]
    exact ⟨fun k => (all k).imp fun v ⟨ran, same, _⟩ => ⟨ran, same⟩,
      fun k => (all k).imp fun v ⟨ran, _, same⟩ => ⟨ran, same⟩⟩

theorem physicsOnTransform_state (lib : Library F V Q B) (n : DerivedTransform V Q)
    (c : PhysicsComponent F V Q B) (a : Around F V Q) :
    ∃ body, ((PhysicsComponent.onTransform lib n).run (c, a)).state =
      ({ c with mBody := body }, a) := by
  obtain ⟨enable, Cmass, mOffset, shape, state, body⟩ := c
  rw [PhysicsComponent.onTransform, bind_get_run]
  cases Cmass with
  | none => exact ⟨body, rfl⟩
  | some mass =>
      simp only [bind_some_run]
      by_cases light : mass < 1
      · rw [if_pos light]
        cases body <;> exact ⟨_, rfl⟩
      · rw [if_neg light]
        exact ⟨body, rfl⟩

/-- What the callback of the node leaves alone: the node, and the offset and the mass of the
body. -/
structure Kept (u v : World F V Q B) : Prop where
  node : v.around.node = u.around.node
  body : ∀ c, u.mComponents .physics = some c → ∃ c', v.mComponents .physics = some c' ∧
    c'.mOffset = c.mOffset ∧ c'.Cmass = c.Cmass

omit [Scalar F] [AddCommGroup V] in
theorem Kept.refl (u : World F V Q B) : Kept u u := ⟨rfl, fun c slot => ⟨c, slot, rfl, rfl⟩⟩

omit [Scalar F] [AddCommGroup V] in
theorem Kept.trans {u v w : World F V Q B} (first : Kept u v) (second : Kept v w) : Kept u w := by
  refine ⟨second.node.trans first.node, fun c slot => ?_⟩
  obtain ⟨c', slot', offset', mass'⟩ := first.body c slot
  obtain ⟨c'', slot'', offset'', mass''⟩ := second.body c' slot'
  exact ⟨c'', slot'', offset''.trans offset', mass''.trans mass'⟩

theorem kept_onTransform (n : DerivedTransform V Q) (t : ComponentType) (u : World F V Q B) :
    Kept u ((onTransform lib n t).run u).state := by
  cases t with
  | physics =>
      rw [onTransform, onComponent, bind_get_run]
      cases slot : u.mComponents .physics with
      | none => exact Kept.refl u
      | some c =>
          obtain ⟨body, reached⟩ := physicsOnTransform_state lib n c u.around
          have state : ((within (fun w : World F V Q B => (c, w.around)) (World.put .physics)
              (PhysicsComponent.onTransform lib n)).run u).state =
                World.put .physics u ({ c with mBody := body }, u.around) := by
            rw [← reached, within_run]
            cases (PhysicsComponent.onTransform lib n).run (c, u.around) <;> rfl
          rw [bind_some_run, state]
          refine ⟨rfl, fun c' slot' => ?_⟩
          obtain rfl := Option.some.inj (slot.symm.trans slot')
          exact ⟨_, put_slot (t := .physics) u _, rfl, rfl⟩
  | mesh => exact Kept.refl u
  | sound => exact Kept.refl u
  | camera => exact Kept.refl u

theorem kept_transformSlots (n : DerivedTransform V Q) (ts : List ComponentType)
    (u : World F V Q B) : Kept u ((transformSlots lib n ts).run u).state := by
  induction ts generalizing u with
  | nil => exact Kept.refl u
  | cons t ts ih =>
      refine bind_related (R := Kept) Kept.trans ?_ fun _ v _ => ih v
      rw [transformSlot, bind_get_run]
      split
      · exact kept_onTransform n t u
      · exact Kept.refl u

omit [Scalar F] [AddCommGroup V] in
theorem kept_of_same {u v : World F V Q B} (node : v.around.node = u.around.node)
    (slots : v.mComponents = u.mComponents) : Kept u v :=
  ⟨node, fun c slot => ⟨c, slots ▸ slot, rfl, rfl⟩⟩

theorem kept_passOn (n : DerivedTransform V Q) (dT : Int32) (u : World F V Q B) :
    Kept u ((passOn lib n dT).run u).state := by
  rw [passOn, bind_get_run]
  refine bind_related (R := Kept) Kept.trans ?_ fun _ v _ => ?_
  · exact kept_of_same rfl rfl
  · refine bind_related (R := Kept) Kept.trans ?_ fun _ v' _ => ?_
    · exact kept_transformSlots n slots v
    · exact kept_of_same rfl rfl

variable (lib) in
theorem kept_readDerived (n : DerivedTransform V Q) (stale : Bool) (u : World F V Q B) :
    Kept u ((readDerived lib n stale).run u).state := by
  rw [readDerived]
  split
  · rw [nodeUpdated]
    refine bind_related (R := Kept) Kept.trans ?_ fun _ v _ => ?_
    · exact kept_of_same rfl rfl
    · rw [bind_get_run]
      dsimp only
      split
      · exact kept_passOn n _ v
      · exact Kept.refl v
  · exact Kept.refl u

def loadBody (lib : Library F V Q B) (answers : Answers F V Q)
    (take : ComponentProc F V Q (PhysicsComponent F V Q B) Unit) (offset : V) (mass : F)
    (shape : Physics.Geometry F V) : WorldProc F V Q B Unit := do
  onComponent .physics take
  readDerived lib answers.derived answers.stale
  onComponent .physics (PhysicsComponent.takeBody lib offset mass shape answers.derived)

theorem takeBody_follows (plain : Plain lib worldTransform) {u v : World F V Q B}
    (slot : u.mComponents .physics = some c) {mass : F} (heavy : c.Cmass = some mass)
    (light : mass < 1) (offset : V) (shape : Physics.Geometry F V)
    (ran : (onComponent .physics (PhysicsComponent.takeBody lib offset mass shape
      u.around.node.derived)).run u = .returned () v) :
    v.around.node = u.around.node ∧ ∃ body, Follows v c.mOffset body ∧
      (worldTransform body).1 = u.around.node.position + offset + u.around.node.position := by
  set n := u.around.node.derived with n_eq
  set transform := (lib.convertLocalToWorldPosition n offset + n.position, n.orientation)
    with transform_eq
  set body := lib.newBody mass transform shape (lib.calculateLocalInertia shape mass)
    with body_eq
  have taken := onComponent_returned slot
    (p := PhysicsComponent.takeBody lib offset mass shape n) rfl
  obtain ⟨-, rfl⟩ := Ending.returned.inj (taken.symm.trans ran)
  refine ⟨rfl, body, ⟨_, mass, put_slot (t := .physics) u
    ({ c with mMotionState := some transform, mBody := some body }, u.around),
      rfl, rfl, heavy, light⟩, ?_⟩
  rw [body_eq, plain.newBody, transform_eq, plain.convert]
  rfl

theorem loadBody_follows (plain : Plain lib worldTransform) {w loaded : World F V Q B}
    (slot : w.mComponents .physics = some c) {answers : Answers F V Q}
    (here : answers.derived = w.around.node.derived) {mass : F} (light : mass < 1)
    {take : ComponentProc F V Q (PhysicsComponent F V Q B) Unit} {c' : PhysicsComponent F V Q B}
    (taken : take.run (c, w.around) = .returned () (c', w.around)) (heavy : c'.Cmass = some mass)
    {offset : V} {shape : Physics.Geometry F V}
    (ran : (loadBody lib answers take offset mass shape).run w = .returned () loaded) :
    loaded.around.node = w.around.node ∧ ∃ body, Follows loaded c'.mOffset body ∧
      (worldTransform body).1 = w.around.node.position + offset + w.around.node.position := by
  have first := onComponent_returned slot taken
  rw [loadBody, bind_of_returned first] at ran
  obtain ⟨⟨⟩, u, read, rest⟩ := bind_eq_returned.mp ran
  have kept := kept_readDerived lib answers.derived answers.stale
    (World.put .physics w (c', w.around))
  rw [read] at kept
  obtain ⟨c'', slot', offset', mass'⟩ := kept.body c' (put_slot (t := .physics) w (c', w.around))
  have node : u.around.node = w.around.node := kept.node
  rw [here, ← node] at rest
  rw [← node, ← offset']
  exact takeBody_follows plain slot' (mass'.trans heavy) light offset shape rest

theorem loadBody_returns {w : World F V Q B} (slot : w.mComponents .physics = some c)
    {answers : Answers F V Q} (fresh : answers.stale = false) {mass : F}
    {take : ComponentProc F V Q (PhysicsComponent F V Q B) Unit} {c' : PhysicsComponent F V Q B}
    (taken : take.run (c, w.around) = .returned () (c', w.around)) (offset : V)
    (shape : Physics.Geometry F V) :
    ∃ loaded, (loadBody lib answers take offset mass shape).run w = .returned () loaded := by
  set u := World.put .physics w (c', w.around) with u_eq
  have current : (readDerived lib answers.derived answers.stale).run u = .returned () u := by
    rw [readDerived, fresh, if_neg Bool.false_ne_true, pure_run]
  have last := onComponent_returned (put_slot (t := .physics) w (c', w.around))
    (p := PhysicsComponent.takeBody lib offset mass shape answers.derived) rfl
  rw [loadBody, bind_of_returned (onComponent_returned slot taken), bind_of_returned current]
  exact ⟨_, last⟩

variable (lib) in
theorem Load.run_eq (load : Load F V) (answers : Answers F V Q) (mass : F)
    (c : PhysicsComponent F V Q B) (a : Around F V Q) :
    ∃ take c' shape, load.run lib answers mass = loadBody lib answers take load.offset mass shape ∧
      take.run (c, a) = .returned () (c', a) ∧ c'.Cmass = some mass ∧
        c'.mOffset = load.kept c.mOffset := by
  cases load with
  | box offset extents => exact ⟨_, _, .box extents, rfl, rfl, rfl, rfl⟩
  | sphere offset rad => exact ⟨_, _, .sphere rad, rfl, rfl, rfl, rfl⟩

/-- A light body and its node stay where they are exactly when no offset is kept and the node
is opposite to the offset. To load a body whose node is up to date returns. -/
theorem fixedPoint_iff (plain : Plain lib worldTransform) {w : World F V Q B}
    (slot : w.mComponents .physics = some c) {answers : Answers F V Q}
    (here : answers.derived = w.around.node.derived) {mass : F} (light : mass < 1)
    (load : Load F V) :
    (answers.stale = false → ∃ loaded, (load.run lib answers mass).run w = .returned () loaded) ∧
      ∀ loaded, (load.run lib answers mass).run w = .returned () loaded →
        (FixedPoint lib worldTransform w loaded ↔
          load.kept c.mOffset = 0 ∧ w.around.node.position + load.offset = 0) := by
  obtain ⟨take, c', shape, same, taken, heavy, kept⟩ :=
    load.run_eq lib answers mass c w.around
  rw [same, ← kept]
  refine ⟨fun fresh => loadBody_returns slot fresh taken _ _, fun loaded ran => ?_⟩
  obtain ⟨node, body, follows, position⟩ :=
    loadBody_follows plain slot here light taken heavy ran
  rw [follows.stays_iff plain node, position, add_eq_right]

end runs

section line

attribute [local instance] instScalarInt

def crate (position : ℤ) : World ℤ ℤ ℤ (ℤ × ℤ) where
  mLastTick := 0
  mOldTime := 0
  mNewTime := none
  around := ⟨chars "Crate", ⟨position, 0⟩, none, none, none, none, 0, .missing⟩
  mComponents
    | .physics => some PhysicsComponent.constructed
    | _ => none

def crateAnswers (position : ℤ) : Answers ℤ ℤ ℤ := ⟨none, false, ⟨position, 0⟩, false⟩

theorem plain_line : Plain line id := ⟨fun _ _ => rfl, fun _ _ _ _ => rfl, fun _ _ => rfl⟩

/-- A sphere stays whose offset takes it to the origin. -/
theorem fixedPoint_sphere : ∃ loaded,
    ((Load.sphere 1 1).run line (crateAnswers (-1)) 0).run (crate (-1)) = .returned () loaded ∧
      FixedPoint line id (crate (-1)) loaded := by
  have here : (crateAnswers (-1)).derived = (crate (-1)).around.node.derived := rfl
  obtain ⟨returns, fixed⟩ := fixedPoint_iff plain_line rfl here (by decide : (0 : ℤ) < 1)
    (.sphere 1 1)
  obtain ⟨loaded, ran⟩ := returns rfl
  exact ⟨loaded, ran, (fixed loaded ran).mpr ⟨rfl, by decide⟩⟩

/-- A box without an offset takes its node to where it was put, at twice the position; and a
box with an offset leaves. -/
theorem not_fixedPoint :
    (∃ loaded, ((Load.box 0 1).run line (crateAnswers 1) 0).run (crate 1) =
      .returned () loaded ∧ ¬ FixedPoint line id (crate 1) loaded) ∧
    ∃ loaded, ((Load.box 1 1).run line (crateAnswers 0) 0).run (crate 0) =
      .returned () loaded ∧ ¬ FixedPoint line id (crate 0) loaded := by
  refine ⟨⟨_, rfl, fun fixed => ?_⟩, ⟨_, rfl, fun fixed => ?_⟩⟩
  · obtain ⟨v, ran, there⟩ := fixed.node 1
    obtain rfl := (Ending.returned.inj ran).2
    revert there
    decide
  · obtain ⟨v, ran, there⟩ := fixed.body 1
    obtain rfl := (Ending.returned.inj ran).2
    revert there
    decide

end line

end Ssuge.Components

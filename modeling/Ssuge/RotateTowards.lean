import Mathlib
import Ssuge.MoveTo
import Ssuge.Turning

/-! The operation `rotateTowards` of a game object. A call turns the object about the vertical
axis, by a fixed angle and to the side on which the target is, unless the object faces the
target well enough. On level ground the angle to the target is turned towards zero. -/

namespace Ssuge.RotateTowards

open Procedure Components Turning

structure Ogre (F V Q : Type) where
  real : Binary32 → F
  vector : F → F → F → V
  normalisedCopy : V → V
  dotProduct : V → V → F
  crossProduct : V → V → V
  y : V → F
  /-- `orientation * v` -/
  turned : Q → V → V
  /-- `Quaternion(Degree(amt), Vector3(0, 1, 0))` -/
  yaw : F → Q
  /-- The orientation of a node after `rotate(q, TS_WORLD)`. -/
  rotate : Q → Q → Q
  /-- The literal `0.98` -/
  nearly : F

section code

variable {F V Q : Type} [Sub V] [Zero F] [Neg F] [LT F] [DecidableLT F]

def Ogre.TD (ogre : Ogre F V Q) (targetPos : V) (node : Node V Q) : V :=
  ogre.normalisedCopy (targetPos - node.position)

def Ogre.worldOrientation (ogre : Ogre F V Q) (facing : V) (node : Node V Q) : V :=
  ogre.turned node.orientation facing

def Ogre.rotated (ogre : Ogre F V Q) (amt : F) (node : Node V Q) : Node V Q :=
  { node with orientation := ogre.rotate node.orientation (ogre.yaw amt) }

def Ogre.towards (ogre : Ogre F V Q) (facing targetPos : V) (amt : F) (node : Node V Q) :
    Node V Q :=
  let TD := ogre.TD targetPos node
  let worldOrientation := ogre.worldOrientation facing node
  if ogre.dotProduct worldOrientation TD < ogre.nearly then
    if 0 < ogre.y (ogre.crossProduct worldOrientation TD) then ogre.rotated amt node
    else if ogre.y (ogre.crossProduct worldOrientation TD) < 0 then ogre.rotated (-amt) node
    else node
  else node

/-- The operation in `GameObject::execute`; `facing` is what `getModelFacing` gives. -/
def Ogre.rotateTowards (ogre : Ogre F V Q) (facing : V) (args : Message) :
    Proc Stop (Node V Q) Unit := do
  let x ← ofEval (args.getFloat 0)
  let y ← ofEval (args.getFloat 1)
  let z ← ofEval (args.getFloat 2)
  let amt ← ofEval (args.getFloat 3)
  modify (ogre.towards facing (ogre.vector (ogre.real x) (ogre.real y) (ogre.real z))
    (ogre.real amt))

def Ogre.Asks (ogre : Ogre F V Q) (targetPos : V) (amt : F) (args : Message) : Prop :=
  ∃ x y z a, args.getFloat 0 = .ok x ∧ args.getFloat 1 = .ok y ∧ args.getFloat 2 = .ok z ∧
    args.getFloat 3 = .ok a ∧
      targetPos = ogre.vector (ogre.real x) (ogre.real y) (ogre.real z) ∧ amt = ogre.real a

variable {ogre : Ogre F V Q} {facing targetPos : V} {amt : F}

theorem rotateTowards_run (facing : V) {args : Message} (asks : ogre.Asks targetPos amt args)
    (node : Node V Q) : (ogre.rotateTowards facing args).run node =
      .returned () (ogre.towards facing targetPos amt node) := by
  obtain ⟨x, y, z, a, first, second, third, turn, rfl, rfl⟩ := asks
  rw [Ogre.rotateTowards, first, second, third, turn]
  rfl

theorem rotateTowards_calls_run {calls : List Message}
    (asks : ∀ args ∈ calls, ogre.Asks targetPos amt args) (node : Node V Q) :
    (calls.forM fun args => ogre.rotateTowards facing args).run node =
      .returned ⟨⟩ ((ogre.towards facing targetPos amt)^[calls.length] node) := by
  induction calls generalizing node with
  | nil => rfl
  | cons args calls ih =>
      have first := rotateTowards_run facing (asks args List.mem_cons_self) node
      refine (bind_of_returned first _).trans ?_
      exact ih (fun args member => asks args (List.mem_cons_of_mem _ member)) _

end code

section level

open Complex

variable {V Q : Type} [Sub V]

/-- In exact arithmetic, with the horizontal part of a vector as a complex number: `z` is its
real part and `x` its imaginary one. -/
structure Exact (ogre : Ogre ℝ V Q) (flat : V → ℂ) (height : V → ℝ) : Prop where
  dotProduct : ∀ u v, ogre.dotProduct u v =
    ((starRingEnd ℂ) (flat u) * flat v).re + height u * height v
  crossProduct : ∀ u v, ogre.y (ogre.crossProduct u v) = ((starRingEnd ℂ) (flat u) * flat v).im
  rotate : ∀ q a v, flat (ogre.turned (ogre.rotate q (ogre.yaw a)) v) =
    flat (ogre.turned q v) * exp ((a * (Real.pi / 180) : ℝ) * I)
  level : ∀ q a v, height (ogre.turned (ogre.rotate q (ogre.yaw a)) v) =
    height (ogre.turned q v)
  nearly : ogre.nearly = 49 / 50

noncomputable def radians (amt : ℝ) : ℝ := amt * (Real.pi / 180)

/-- How far an object may face away from the target and still be taken to face it. -/
noncomputable def reach : ℝ := Real.arccos (49 / 50)

/-- On level ground the target is at an angle from where the object faces. -/
structure Sees (ogre : Ogre ℝ V Q) (flat : V → ℂ) (height : V → ℝ) (facing targetPos : V)
    (node : Node V Q) (angle : ℝ) : Prop where
  level : height (ogre.worldOrientation facing node) = 0
  unit : ‖flat (ogre.worldOrientation facing node)‖ = 1
  angle : flat (ogre.TD targetPos node) =
    flat (ogre.worldOrientation facing node) * exp (angle * I)

/-- The test that a call makes before it turns the object. -/
def Faces (ogre : Ogre ℝ V Q) (facing targetPos : V) (node : Node V Q) : Prop :=
  ¬ ogre.dotProduct (ogre.worldOrientation facing node) (ogre.TD targetPos node) < ogre.nearly

theorem reach_lt_pi : reach < Real.pi := by
  refine lt_of_le_of_ne (Real.arccos_le_pi _) fun same => ?_
  rw [reach, Real.arccos_eq_pi] at same
  norm_num at same

theorem reach_nonneg : 0 ≤ reach := Real.arccos_nonneg _

theorem le_cos_iff {angle : ℝ} (inside : |angle| ≤ Real.pi) :
    49 / 50 ≤ Real.cos angle ↔ |angle| ≤ reach := by
  have literal : Real.cos reach = 49 / 50 := Real.cos_arccos (by norm_num) (by norm_num)
  rw [← Real.cos_abs, ← literal]
  exact Real.strictAntiOn_cos.le_iff_ge ⟨reach_nonneg, reach_lt_pi.le⟩ ⟨abs_nonneg _, inside⟩

variable {ogre : Ogre ℝ V Q} {flat : V → ℂ} {height : V → ℝ} {facing targetPos : V}
  {node : Node V Q} {angle : ℝ}

theorem Sees.products (ideal : Exact ogre flat height)
    (sees : Sees ogre flat height facing targetPos node angle) :
    ogre.dotProduct (ogre.worldOrientation facing node) (ogre.TD targetPos node) =
        Real.cos angle ∧
      ogre.y (ogre.crossProduct (ogre.worldOrientation facing node) (ogre.TD targetPos node)) =
        Real.sin angle := by
  have product : (starRingEnd ℂ) (flat (ogre.worldOrientation facing node)) *
      flat (ogre.TD targetPos node) = exp (angle * I) := by
    rw [sees.angle, ← mul_assoc, mul_comm ((starRingEnd ℂ) _), mul_conj, normSq_eq_norm_sq,
      sees.unit]
    simp
  rw [ideal.dotProduct, ideal.crossProduct, product, sees.level, zero_mul, add_zero,
    exp_ofReal_mul_I_re, exp_ofReal_mul_I_im]
  exact ⟨rfl, rfl⟩

theorem Sees.rotated (ideal : Exact ogre flat height)
    (sees : Sees ogre flat height facing targetPos node angle) (amt : ℝ) :
    Sees ogre flat height facing targetPos (ogre.rotated amt node) (angle - radians amt) where
  level := (ideal.level node.orientation amt facing).trans sees.level
  unit := by
    refine (congrArg norm (ideal.rotate node.orientation amt facing)).trans ?_
    rw [norm_mul, norm_exp_ofReal_mul_I, mul_one]
    exact sees.unit
  angle := by
    refine sees.angle.trans ?_
    change _ = flat (ogre.turned (ogre.rotate node.orientation (ogre.yaw amt)) facing) * _
    rw [ideal.rotate, mul_assoc, ← exp_add, ← add_mul, ← ofReal_add]
    congr 4
    rw [radians]
    ring

theorem Sees.faces_iff (ideal : Exact ogre flat height)
    (sees : Sees ogre flat height facing targetPos node angle) (inside : |angle| ≤ Real.pi) :
    Faces ogre facing targetPos node ↔ |angle| ≤ reach := by
  rw [Faces, (sees.products ideal).1, ideal.nearly, not_lt, le_cos_iff inside]

theorem Sees.towards (ideal : Exact ogre flat height)
    (sees : Sees ogre flat height facing targetPos node angle) (inside : |angle| < Real.pi)
    (amt : ℝ) : Sees ogre flat height facing targetPos (ogre.towards facing targetPos amt node)
      (turn reach (radians amt) angle) := by
  have faces := sees.faces_iff ideal inside.le
  obtain ⟨below, above⟩ := abs_lt.mp inside
  by_cases near : |angle| ≤ reach
  · rw [turn_settled near, Ogre.towards, if_neg (faces.mpr near)]
    exact sees
  have turns := not_not.mp (mt faces.mp near)
  rw [turn, if_neg near, Ogre.towards, if_pos turns, (sees.products ideal).2]
  by_cases left : 0 < angle
  · rw [if_pos left, if_pos (Real.sin_pos_of_pos_of_lt_pi left above)]
    exact sees.rotated ideal amt
  · have right : angle < 0 := by
      refine lt_of_le_of_ne (not_lt.mp left) ?_
      rintro rfl
      exact near (by rw [abs_zero]; exact reach_nonneg)
    have negative := Real.sin_neg_of_neg_of_neg_pi_lt right below
    rw [if_neg left, if_neg (not_lt.mpr negative.le), if_pos negative]
    have opposite := sees.rotated ideal (-amt)
    rwa [radians, neg_mul, sub_neg_eq_add] at opposite

theorem Sees.iterate (ideal : Exact ogre flat height)
    (sees : Sees ogre flat height facing targetPos node angle) {amt : ℝ}
    (inside : ∀ n, |(turn reach (radians amt))^[n] angle| < Real.pi) (n : Nat) :
    Sees ogre flat height facing targetPos ((ogre.towards facing targetPos amt)^[n] node)
      ((turn reach (radians amt))^[n] angle) := by
  induction n with
  | zero => exact sees
  | succ n ih =>
      rw [Function.iterate_succ_apply', Function.iterate_succ_apply']
      exact ih.towards ideal (inside n) amt

theorem turns_inside {step : ℝ} (positive : 0 ≤ step) (short : step ≤ 2 * reach)
    (inside : |angle| < Real.pi) (n : Nat) : |(turn reach step)^[n] angle| < Real.pi := by
  refine (abs_turn_iterate_le positive short n).trans_lt (max_lt ?_ reach_lt_pi)
  exact (sub_le_self _ (mul_nonneg n.cast_nonneg positive)).trans_lt inside

/-- From the opposite direction no call turns the object. -/
theorem Sees.behind (ideal : Exact ogre flat height)
    (sees : Sees ogre flat height facing targetPos node angle) (opposite : |angle| = Real.pi)
    (amt : ℝ) : ogre.towards facing targetPos amt node = node := by
  have straight : Real.sin angle = 0 := by
    rcases eq_or_eq_neg_of_abs_eq opposite with rfl | rfl
    · exact Real.sin_pi
    · rw [Real.sin_neg, Real.sin_pi, neg_zero]
  rw [Ogre.towards, (sees.products ideal).2, straight, if_neg (lt_irrefl _), if_neg (lt_irrefl _),
    ite_self]

/-- An object that is turned by no more than twice what it may face away, call by call, faces
the target from that call on which has made up for what was missing at the start. From the
opposite direction it never does: it is not turned at all. -/
theorem rotateTowards_faces_iff (ideal : Exact ogre flat height)
    (sees : Sees ogre flat height facing targetPos node angle) (inside : |angle| ≤ Real.pi)
    {amt : ℝ} (positive : 0 ≤ amt) (short : radians amt ≤ 2 * reach) {calls : List Message}
    (asks : ∀ args ∈ calls, ogre.Asks targetPos amt args) :
    ∃ node', (calls.forM fun args => ogre.rotateTowards facing args).run node =
        .returned ⟨⟩ node' ∧
      (Faces ogre facing targetPos node' ↔
        |angle| ≠ Real.pi ∧ |angle| - calls.length * radians amt ≤ reach) ∧
      (|angle| = Real.pi → node' = node) := by
  refine ⟨_, rotateTowards_calls_run asks node, ?_⟩
  have step : 0 ≤ radians amt := mul_nonneg positive (by positivity)
  by_cases opposite : |angle| = Real.pi
  · have still := sees.behind ideal opposite amt
    rw [Function.iterate_fixed still, sees.faces_iff ideal inside, opposite]
    simp [reach_lt_pi]
  · have turns := turns_inside step short (lt_of_le_of_ne inside opposite)
    refine ⟨?_, fun same => absurd same opposite⟩
    rw [(sees.iterate ideal turns _).faces_iff ideal (turns _).le,
      abs_turn_iterate_le_reach_iff step short, and_iff_right opposite]

theorem radians_lt {amt : ℝ} (inside : amt < 360) : radians amt < 2 * Real.pi := by
  have full : (360 : ℝ) * (Real.pi / 180) = 2 * Real.pi := by ring
  rw [radians, ← full]
  exact mul_lt_mul_of_pos_right inside (by positivity)

/-- A heading from which the calls swing the object to and fro. -/
theorem Sees.swings (ideal : Exact ogre flat height)
    (sees : Sees ogre flat height facing targetPos node angle) {amt : ℝ} (positive : 0 < amt)
    (inside : amt < 360) (long : 2 * reach < radians amt) :
    ∃ around, ∀ n, Sees ogre flat height facing targetPos
        ((ogre.towards facing targetPos amt)^[n] (ogre.rotated around node))
        ((-1) ^ n * (radians amt / 2)) ∧
      ¬ Faces ogre facing targetPos
        ((ogre.towards facing targetPos amt)^[n] (ogre.rotated around node)) := by
  have step : 0 < radians amt := mul_pos positive (by positivity)
  have width := abs_turn_iterate_swings long step
  have bound : radians amt / 2 < Real.pi := by linarith [radians_lt inside]
  have turns : ∀ n, |(turn reach (radians amt))^[n] (radians amt / 2)| < Real.pi :=
    fun n => (width n).trans_lt bound
  have headed := sees.rotated ideal ((angle - radians amt / 2) / (Real.pi / 180))
  have back : radians ((angle - radians amt / 2) / (Real.pi / 180)) = angle - radians amt / 2 :=
    div_mul_cancel₀ _ (by positivity)
  rw [back, sub_sub_cancel] at headed
  refine ⟨(angle - radians amt / 2) / (Real.pi / 180), fun n => ?_⟩
  have turned := headed.iterate ideal turns n
  refine ⟨turn_iterate_swings long step n ▸ turned, fun faces => ?_⟩
  rw [turned.faces_iff ideal (turns n).le, width] at faces
  linarith

/-- The calls bring every object to face its target that does not face the opposite direction,
exactly if they turn it by no more than twice what it may face away. Else there is a heading
from which they swing the object to and fro for ever. -/
theorem rotateTowards_settles_iff (ideal : Exact ogre flat height)
    (sees : Sees ogre flat height facing targetPos node angle) {amt : ℝ} (positive : 0 < amt)
    (inside : amt < 360) :
    ((∀ around angle', Sees ogre flat height facing targetPos (ogre.rotated around node) angle' →
      |angle'| < Real.pi → ∃ n, Faces ogre facing targetPos
        ((ogre.towards facing targetPos amt)^[n] (ogre.rotated around node))) ↔
      radians amt ≤ 2 * reach) ∧
    (2 * reach < radians amt → ∃ around, ∀ n, Sees ogre flat height facing targetPos
        ((ogre.towards facing targetPos amt)^[n] (ogre.rotated around node))
        ((-1) ^ n * (radians amt / 2)) ∧
      ¬ Faces ogre facing targetPos
        ((ogre.towards facing targetPos amt)^[n] (ogre.rotated around node))) := by
  have step : 0 < radians amt := mul_pos positive (by positivity)
  have bound := radians_lt inside
  refine ⟨⟨fun all => ?_, fun short around angle' headed near => ?_⟩, fun long => ?_⟩
  · by_contra longer
    obtain ⟨around, swings⟩ := sees.swings ideal positive inside (not_le.mp longer)
    have near : |(-1) ^ 0 * (radians amt / 2)| < Real.pi := by
      rw [pow_zero, one_mul, abs_of_pos (half_pos step)]
      linarith
    obtain ⟨n, faces⟩ := all around _ (swings 0).1 near
    exact (swings n).2 faces
  · obtain ⟨n, settled⟩ := (settles_iff step bound).mpr short angle' near
    have turns := turns_inside step.le short near
    exact ⟨n, ((headed.iterate ideal turns n).faces_iff ideal (turns n).le).mpr settled⟩
  · exact sees.swings ideal positive inside long

end level

section ground

open Complex

/-- Vectors by their horizontal part and their height, and orientations by their yaw. -/
noncomputable def ground : Ogre ℝ (ℂ × ℝ) ℝ where
  real := MoveTo.realOf
  vector x y z := (⟨z, x⟩, y)
  normalisedCopy v := (√(normSq v.1 + v.2 ^ 2))⁻¹ • v
  dotProduct u v := ((starRingEnd ℂ) u.1 * v.1).re + u.2 * v.2
  crossProduct u v := (⟨u.1.im * v.2 - u.2 * v.1.im, u.2 * v.1.re - u.1.re * v.2⟩,
    ((starRingEnd ℂ) u.1 * v.1).im)
  y := Prod.snd
  turned q v := (v.1 * exp (q * I), v.2)
  yaw := radians
  rotate q turn := q + turn
  nearly := 49 / 50

theorem exact_ground : Exact ground Prod.fst Prod.snd where
  dotProduct _ _ := rfl
  crossProduct _ _ := rfl
  rotate q a v := by
    change v.1 * exp ((q + radians a : ℝ) * I) = v.1 * exp (q * I) * _
    rw [mul_assoc, ← exp_add, ← add_mul, ofReal_add, radians]
  level _ _ _ := rfl
  nearly := rfl

theorem ground_sees : Sees ground Prod.fst Prod.snd (1, 0) (⟨0, 5⟩, 0) ⟨0, 0⟩ (Real.pi / 2) := by
  have ahead : ground.worldOrientation (1, 0) ⟨0, 0⟩ = (1, 0) := by
    simp [Ogre.worldOrientation, ground]
  refine ⟨by rw [ahead], by rw [ahead, norm_one], ?_⟩
  rw [ahead, one_mul, ofReal_div, ofReal_ofNat, exp_pi_div_two_mul_I]
  have aside : ground.TD (⟨0, 5⟩, 0) (⟨0, 0⟩ : Node (ℂ × ℝ) ℝ) =
      (√(normSq ⟨0, 5⟩ + 0 ^ 2))⁻¹ • ((⟨0, 5⟩, 0) : ℂ × ℝ) := by
    simp [Ogre.TD, ground]
  have length : √(normSq ⟨0, 5⟩ + 0 ^ 2) = 5 := by
    rw [normSq_mk, show (0 : ℝ) * 0 + 5 * 5 + 0 ^ 2 = 5 ^ 2 by norm_num]
    exact Real.sqrt_sq (by norm_num)
  rw [aside, length]
  apply Complex.ext <;> simp

theorem one_degree_short : radians 1 ≤ 2 * reach := by
  have small : Real.pi / 360 ≤ 1 / 90 := by linarith [Real.pi_le_four]
  have positive : 0 ≤ Real.pi / 360 := by positivity
  have square : (Real.pi / 360) ^ 2 ≤ (1 / 90) ^ 2 := pow_le_pow_left₀ positive small 2
  have near : |Real.pi / 360| ≤ reach := by
    refine (le_cos_iff ?_).mp (le_trans ?_ Real.one_sub_sq_div_two_le_cos)
    · rw [abs_of_nonneg positive]
      linarith [Real.pi_pos]
    · linarith
  rw [abs_of_nonneg positive] at near
  rw [radians]
  linarith

def oneDegree : Message :=
  ⟨[0x40A00000, 0, 0, 0x3F800000].zipIdx.map fun (bits, k) =>
    some ⟨'f', .ofUInt32 bits, Message.paramByte k⟩, 4, 4⟩

theorem oneDegree_asks : ground.Asks (⟨0, 5⟩, 0) 1 oneDegree := by
  refine ⟨⟨0x40A00000⟩, ⟨0⟩, ⟨0⟩, ⟨0x3F800000⟩, by decide, by decide, by decide, by decide, ?_, ?_⟩
  · simp [ground, MoveTo.realOf, Binary32.negative, Binary32.exponent, Binary32.fraction]
    norm_num
  · simp [ground, MoveTo.realOf, Binary32.negative, Binary32.exponent, Binary32.fraction]
    norm_num

/-- After one call the object is one degree nearer. -/
theorem rotateTowards_once : ∃ node', ([oneDegree].forM fun args =>
      ground.rotateTowards (1, 0) args).run ⟨0, 0⟩ = .returned ⟨⟩ node' ∧
    (Faces ground (1, 0) (⟨0, 5⟩, 0) node' ↔
      |Real.pi / 2| ≠ Real.pi ∧ |Real.pi / 2| - (1 : ℕ) * radians 1 ≤ reach) ∧
    (|Real.pi / 2| = Real.pi → node' = ⟨0, 0⟩) := by
  have inside : |Real.pi / 2| ≤ Real.pi := by
    rw [abs_of_pos (by positivity)]
    linarith [Real.pi_pos]
  refine rotateTowards_faces_iff exact_ground ground_sees inside zero_le_one one_degree_short ?_
  intro args member
  exact List.mem_singleton.mp member ▸ oneDegree_asks

theorem rotateTowards_settles_ground :
    ((∀ around angle', Sees ground Prod.fst Prod.snd (1, 0) (⟨0, 5⟩, 0)
        (ground.rotated around ⟨0, 0⟩) angle' → |angle'| < Real.pi →
      ∃ n, Faces ground (1, 0) (⟨0, 5⟩, 0)
        ((ground.towards (1, 0) (⟨0, 5⟩, 0) 1)^[n] (ground.rotated around ⟨0, 0⟩))) ↔
      radians 1 ≤ 2 * reach) ∧
    (2 * reach < radians 1 → ∃ around, ∀ n, Sees ground Prod.fst Prod.snd (1, 0) (⟨0, 5⟩, 0)
        ((ground.towards (1, 0) (⟨0, 5⟩, 0) 1)^[n] (ground.rotated around ⟨0, 0⟩))
        ((-1) ^ n * (radians 1 / 2)) ∧
      ¬ Faces ground (1, 0) (⟨0, 5⟩, 0)
        ((ground.towards (1, 0) (⟨0, 5⟩, 0) 1)^[n] (ground.rotated around ⟨0, 0⟩))) :=
  rotateTowards_settles_iff exact_ground ground_sees one_pos (by norm_num)

end ground

end Ssuge.RotateTowards

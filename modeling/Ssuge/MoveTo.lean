import Mathlib.Analysis.InnerProductSpace.PiL2
import Ssuge.ComponentFunctions

/-! The operation `moveTo` of a game object. Each call goes a step of the length `speed * dt`
on the straight line to the target, or onto the target when the step is as long as the way
that remains. Lengths are those of a real normed space, so a step subtracts from the
remaining distance and stops at zero. -/

namespace Ssuge.MoveTo

open Procedure Components

structure Ogre (F V : Type) where
  real : Binary32 → F
  vector : F → F → F → V
  scale : V → F → V
  length : V → F
  normalise : V → V

section code

variable {F V Q : Type} [Add V] [Sub V] [LT F] [DecidableLT F]

structure Move (F : Type) where
  speed : F
  dt : F

def Ogre.towards (ogre : Ogre F V) (point : V) (move : Move F) (pos : V) : V :=
  let dir := point - pos
  let normDir := ogre.normalise dir
  let moveVec := ogre.scale (ogre.scale normDir move.speed) move.dt
  if ogre.length moveVec < ogre.length dir then pos + moveVec else point

/-- The operation in `GameObject::execute` -/
def Ogre.moveTo (ogre : Ogre F V) (args : Message) : Proc Stop (Node V Q) Unit := do
  let x ← ofEval (args.getFloat 0)
  let y ← ofEval (args.getFloat 1)
  let z ← ofEval (args.getFloat 2)
  let point := ogre.vector (ogre.real x) (ogre.real y) (ogre.real z)
  let speed ← ofEval (args.getFloat 3)
  let dt ← ofEval (args.getFloat 4)
  modify fun node =>
    { node with position := ogre.towards point ⟨ogre.real speed, ogre.real dt⟩ node.position }

def Ogre.after (ogre : Ogre F V) (point start : V) (moves : List (Move F)) : V :=
  moves.foldl (fun pos move => ogre.towards point move pos) start

def Ogre.Asks (ogre : Ogre F V) (point : V) (args : Message) (move : Move F) : Prop :=
  ∃ x y z speed dt, args.getFloat 0 = .ok x ∧ args.getFloat 1 = .ok y ∧ args.getFloat 2 = .ok z ∧
    args.getFloat 3 = .ok speed ∧ args.getFloat 4 = .ok dt ∧
      point = ogre.vector (ogre.real x) (ogre.real y) (ogre.real z) ∧
        move = ⟨ogre.real speed, ogre.real dt⟩

variable {ogre : Ogre F V} {point : V}

theorem moveTo_run {args : Message} {move : Move F} (asks : ogre.Asks point args move)
    (node : Node V Q) : (ogre.moveTo args).run node =
      .returned () { node with position := ogre.towards point move node.position } := by
  obtain ⟨x, y, z, speed, dt, first, second, third, fast, long, rfl, rfl⟩ := asks
  rw [Ogre.moveTo, first, second, third, fast, long]
  rfl

theorem moveTo_calls_run {calls : List Message} {moves : List (Move F)}
    (asks : List.Forall₂ (ogre.Asks point) calls moves) (node : Node V Q) :
    (calls.forM fun args => ogre.moveTo args).run node =
      .returned ⟨⟩ { node with position := ogre.after point node.position moves } := by
  induction asks generalizing node with
  | nil => rfl
  | cons first _ ih =>
      exact (bind_of_returned (moveTo_run first node) _).trans (ih _)

end code

theorem foldl_max_sub {R : Type} [AddCommGroup R] [LinearOrder R] [IsOrderedAddMonoid R]
    (steps : List R) (nonneg : ∀ s ∈ steps, 0 ≤ s) {way : R} (long : 0 ≤ way) :
    steps.foldl (fun way s => max 0 (way - s)) way = max 0 (way - steps.sum) := by
  induction steps generalizing way with
  | nil => simp [long]
  | cons s steps ih =>
      have rest : ∀ t ∈ steps, 0 ≤ t := fun t later => nonneg t (List.mem_cons_of_mem _ later)
      have sum_nonneg : 0 ≤ steps.sum := List.sum_nonneg rest
      rw [List.foldl_cons, ih rest (le_max_left _ _), List.sum_cons]
      rcases le_total s way with shorter | longer
      · rw [max_eq_right (sub_nonneg.mpr shorter), sub_sub]
      · rw [max_eq_left (sub_nonpos.mpr longer), zero_sub,
          max_eq_left (neg_nonpos.mpr sum_nonneg), max_eq_left]
        rw [← sub_sub]
        exact sub_nonpos.mpr ((sub_nonpos.mpr longer).trans sum_nonneg)

section exact

variable {E : Type} [NormedAddCommGroup E] [NormedSpace ℝ E]

/-- In exact arithmetic: a vector that is not zero is its length times its direction, and
the zero vector is normalised to itself. -/
structure Exact (ogre : Ogre ℝ E) : Prop where
  scale : ∀ v s, ogre.scale v s = s • v
  length : ∀ v, ogre.length v = ‖v‖
  unit : ∀ d, d ≠ 0 → ‖ogre.normalise d‖ = 1
  direction : ∀ d, d ≠ 0 → d = ‖d‖ • ogre.normalise d
  zero : ogre.normalise 0 = 0

def Move.distance (move : Move ℝ) : ℝ := move.speed * move.dt

variable {ogre : Ogre ℝ E} (ideal : Exact ogre) {move : Move ℝ} (nonneg : 0 ≤ move.distance)
include ideal nonneg

theorem length_moveVec (d : E) (nonzero : d ≠ 0) :
    ogre.length (ogre.scale (ogre.scale (ogre.normalise d) move.speed) move.dt) =
      move.distance := by
  rw [ideal.length, ideal.scale, ideal.scale, smul_smul, norm_smul, ideal.unit d nonzero, mul_one,
    mul_comm]
  exact Real.norm_of_nonneg nonneg

theorem towards_remaining (point pos : E) :
    ∃ part : ℝ, 0 ≤ part ∧ part ≤ 1 ∧ point - ogre.towards point move pos = part • (point - pos) ∧
      part * ‖point - pos‖ = max 0 (‖point - pos‖ - move.distance) := by
  set d := point - pos with d_eq
  by_cases arrived : d = 0
  · refine ⟨0, le_rfl, zero_le_one, ?_, ?_⟩
    · have still : ¬ ogre.length (ogre.scale (ogre.scale (ogre.normalise d) move.speed) move.dt) <
          ogre.length d := by
        rw [arrived, ideal.zero, ideal.scale, ideal.scale, smul_zero, smul_zero]
        exact lt_irrefl _
      rw [Ogre.towards, if_neg still, sub_self, zero_smul]
    · rw [arrived, norm_zero, zero_mul, zero_sub, max_eq_left (neg_nonpos.mpr nonneg)]
  · have positive : 0 < ‖d‖ := norm_pos_iff.mpr arrived
    have length := length_moveVec ideal nonneg d arrived
    by_cases before : move.distance < ‖d‖
    · refine ⟨(‖d‖ - move.distance) / ‖d‖, ?_, ?_, ?_, ?_⟩
      · exact div_nonneg (sub_nonneg.mpr before.le) positive.le
      · rw [div_le_one positive]
        exact sub_le_self _ nonneg
      · have gone : ogre.towards point move pos = pos + move.distance • ogre.normalise d := by
          rw [Ogre.towards, if_pos (by rw [length, ideal.length]; exact before), ideal.scale,
            ideal.scale, smul_smul, mul_comm, Move.distance]
        have whole : ((‖d‖ - move.distance) / ‖d‖) • d =
            (‖d‖ - move.distance) • ogre.normalise d := by
          conv_lhs => rw [ideal.direction d arrived]
          rw [smul_smul, norm_smul, ideal.unit d arrived, norm_norm, mul_one,
            div_mul_cancel₀ _ positive.ne']
        rw [gone, whole, sub_smul, ← ideal.direction d arrived, d_eq]
        abel
      · rw [div_mul_cancel₀ _ positive.ne', max_eq_right (sub_nonneg.mpr before.le)]
    · refine ⟨0, le_rfl, zero_le_one, ?_, ?_⟩
      · rw [Ogre.towards, if_neg (by rw [length, ideal.length]; exact before), sub_self, zero_smul]
      · rw [zero_mul, max_eq_left (sub_nonpos.mpr (not_lt.mp before))]

end exact

section runs

variable {E : Type} [NormedAddCommGroup E] [NormedSpace ℝ E]
variable {ogre : Ogre ℝ E}

structure Approaches (ogre : Ogre ℝ E) (point start : E) (moves : List (Move ℝ)) : Prop where
  /-- The operations that ask for the moves put the node there. -/
  calls : ∀ ms, ms <+: moves → ∀ calls, List.Forall₂ (ogre.Asks point) calls ms →
    ∀ (Q : Type) (node : Node E Q), node.position = start →
    (calls.forM fun args => ogre.moveTo args).run node =
      .returned ⟨⟩ { node with position := ogre.after point start ms }
  /-- Each step subtracts from the remaining distance. -/
  step : ∀ ms m, ms ++ [m] <+: moves → ‖point - ogre.after point start (ms ++ [m])‖ =
    max 0 (‖point - ogre.after point start ms‖ - m.distance)
  /-- The target is never passed. -/
  between : ∀ ms, ms <+: moves → ∃ part : ℝ, 0 ≤ part ∧ part ≤ 1 ∧
    point - ogre.after point start ms = part • (point - start)
  reached : ∀ ms, ms <+: moves → (ogre.after point start ms = point ↔
    ‖point - start‖ ≤ (ms.map Move.distance).sum)
  stays : ∀ ms ns, ms <+: ns → ns <+: moves → ogre.after point start ms = point →
    ogre.after point start ns = point

theorem norm_towards (ideal : Exact ogre) (point pos : E) {move : Move ℝ}
    (nonneg : 0 ≤ move.distance) :
    ‖point - ogre.towards point move pos‖ = max 0 (‖point - pos‖ - move.distance) := by
  obtain ⟨part, positive, -, rest, length⟩ := towards_remaining ideal nonneg point pos
  rw [rest, norm_smul, Real.norm_of_nonneg positive, length]

theorem norm_after (ideal : Exact ogre) (point start : E) {moves : List (Move ℝ)}
    (nonneg : ∀ m ∈ moves, 0 ≤ m.distance) :
    ‖point - ogre.after point start moves‖ =
      max 0 (‖point - start‖ - (moves.map Move.distance).sum) := by
  have steps : ∀ s ∈ moves.map Move.distance, 0 ≤ s := by
    intro s member
    obtain ⟨m, among, rfl⟩ := List.mem_map.mp member
    exact nonneg m among
  rw [← foldl_max_sub _ steps (norm_nonneg _)]
  clear steps
  induction moves generalizing start with
  | nil => rfl
  | cons m moves ih =>
      rw [Ogre.after, List.foldl_cons, List.map_cons, List.foldl_cons,
        ← norm_towards ideal point start (nonneg m List.mem_cons_self)]
      exact ih _ fun m later => nonneg m (List.mem_cons_of_mem _ later)

theorem ray_after (ideal : Exact ogre) (point start : E) {moves : List (Move ℝ)}
    (nonneg : ∀ m ∈ moves, 0 ≤ m.distance) :
    ∃ part : ℝ, 0 ≤ part ∧ part ≤ 1 ∧
      point - ogre.after point start moves = part • (point - start) := by
  induction moves generalizing start with
  | nil => exact ⟨1, zero_le_one, le_rfl, (one_smul ℝ _).symm⟩
  | cons m moves ih =>
      obtain ⟨first, first_nonneg, first_le, gone, -⟩ :=
        towards_remaining ideal (nonneg m List.mem_cons_self) point start
      obtain ⟨rest, rest_nonneg, rest_le, remains⟩ :=
        ih (ogre.towards point m start) fun m later => nonneg m (List.mem_cons_of_mem _ later)
      refine ⟨rest * first, mul_nonneg rest_nonneg first_nonneg,
        mul_le_one₀ rest_le first_nonneg first_le, ?_⟩
      rw [mul_smul, ← gone]
      exact remains

theorem after_eq_iff (ideal : Exact ogre) (point start : E) {moves : List (Move ℝ)}
    (nonneg : ∀ m ∈ moves, 0 ≤ m.distance) :
    ogre.after point start moves = point ↔
      ‖point - start‖ ≤ (moves.map Move.distance).sum := by
  rw [eq_comm, ← sub_eq_zero, ← norm_eq_zero, norm_after ideal point start nonneg, max_eq_left_iff,
    sub_nonpos]

/-- An object that moves to a target in steps that are not negative gets nearer by each step
and never passes the target. It is there once the steps are as long as the way, and then
stays. -/
theorem moveTo_approaches (ideal : Exact ogre) (point start : E) (moves : List (Move ℝ))
    (nonneg : ∀ m ∈ moves, 0 ≤ m.speed * m.dt) : Approaches ogre point start moves := by
  have shorter : ∀ ms, ms <+: moves → ∀ m ∈ ms, 0 ≤ m.distance :=
    fun ms before m member => nonneg m (before.subset member)
  refine ⟨fun ms _ calls asks Q node here => ?_, fun ms m before => ?_,
    fun ms before => ray_after ideal point start (shorter ms before),
    fun ms before => after_eq_iff ideal point start (shorter ms before),
    fun ms ns before later arrived => ?_⟩
  · rw [moveTo_calls_run asks, here]
  · rw [Ogre.after, List.foldl_append]
    exact norm_towards ideal point _ (shorter _ before m (by simp))
  · rw [after_eq_iff ideal point start (shorter ns later)]
    rw [after_eq_iff ideal point start (shorter ms (before.trans later))] at arrived
    obtain ⟨rest, rfl⟩ := before
    rw [List.map_append, List.sum_append]
    refine arrived.trans (le_add_of_nonneg_right (List.sum_nonneg fun s member => ?_))
    obtain ⟨m, among, rfl⟩ := List.mem_map.mp member
    exact shorter _ later m (List.mem_append_right _ among)

end runs

section space

noncomputable def realOf (x : Binary32) : ℝ :=
  (if x.negative then -1 else 1) *
    (if x.exponent = 0 then x.fraction else 2 ^ 23 + x.fraction) *
      2 ^ ((max x.exponent 1 : ℤ) - 150)

noncomputable def euclidean : Ogre ℝ (EuclideanSpace ℝ (Fin 3)) where
  real := realOf
  vector x y z := !₂[x, y, z]
  scale v s := s • v
  length v := ‖v‖
  normalise v := ‖v‖⁻¹ • v

theorem exact_euclidean : Exact euclidean where
  scale _ _ := rfl
  length _ := rfl
  unit d nonzero := by
    change ‖‖d‖⁻¹ • d‖ = 1
    rw [norm_smul, norm_inv, norm_norm, inv_mul_cancel₀ (norm_ne_zero_iff.mpr nonzero)]
  direction d nonzero := by
    change d = ‖d‖ • (‖d‖⁻¹ • d)
    rw [smul_smul, mul_inv_cancel₀ (norm_ne_zero_iff.mpr nonzero), one_smul]
  zero := smul_zero _

/-- To a point five away, in steps of two, none, and four. -/
theorem moveTo_approaches_five :
    Approaches euclidean !₂[3, 4, 0] 0 [⟨2, 1⟩, ⟨0, 1⟩, ⟨8, 1 / 2⟩] := by
  refine moveTo_approaches exact_euclidean _ _ _ fun m member => ?_
  simp only [List.mem_cons, List.not_mem_nil, or_false] at member
  rcases member with rfl | rfl | rfl <;> norm_num

end space

end Ssuge.MoveTo

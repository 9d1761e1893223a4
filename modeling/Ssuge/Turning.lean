import Mathlib.Algebra.Order.Archimedean.Basic
import Mathlib.Algebra.Order.Field.Basic
import Mathlib.Logic.Function.Iterate
import Mathlib.Tactic.Linarith
import Mathlib.Tactic.Ring

/-! An angle that is turned towards zero, by the same step whenever it is out of reach. A step
that is at most the width of what is in reach leads there and never past it; a longer step can
swing from one side to the other for ever. -/

namespace Ssuge.Turning

variable {F : Type} [Field F] [LinearOrder F]

def turn (reach step angle : F) : F :=
  if |angle| ≤ reach then angle else if 0 < angle then angle - step else angle + step

variable {reach step angle : F}

theorem turn_settled (near : |angle| ≤ reach) : turn reach step angle = angle := if_pos near

variable [IsStrictOrderedRing F]

theorem abs_turn_le (short : step ≤ 2 * reach) :
    |turn reach step angle| ≤ max (|angle| - step) reach := by
  by_cases near : |angle| ≤ reach
  · rw [turn_settled near]
    exact near.trans (le_max_right _ _)
  have far := not_le.mp near
  rw [turn, if_neg near]
  by_cases left : 0 < angle
  · rw [abs_of_pos left] at far
    rw [if_pos left, abs_of_pos left, abs_le]
    exact ⟨by linarith [le_max_right (angle - step) reach], le_max_left _ _⟩
  · have right := not_lt.mp left
    rw [abs_of_nonpos right] at far
    rw [if_neg left, abs_of_nonpos right, abs_le]
    constructor
    · linarith [le_max_left (-angle - step) reach]
    · linarith [le_max_right (-angle - step) reach]

theorem abs_turn_iterate_le (positive : 0 ≤ step) (short : step ≤ 2 * reach) (n : Nat) :
    |(turn reach step)^[n] angle| ≤ max (|angle| - n * step) reach := by
  induction n with
  | zero => simp
  | succ n ih =>
      rw [Function.iterate_succ_apply']
      refine (abs_turn_le short).trans (max_le ?_ (le_max_right _ _))
      rcases le_max_iff.mp ih with gone | near
      · refine le_max_of_le_left ?_
        push_cast
        linarith
      · exact le_max_of_le_right (by linarith)

theorem le_abs_turn (positive : 0 ≤ step) : |angle| - step ≤ |turn reach step angle| := by
  by_cases near : |angle| ≤ reach
  · rw [turn_settled near]
    linarith
  rw [turn, if_neg near]
  split
  · have shorter := abs_sub_abs_le_abs_sub angle step
    rwa [abs_of_nonneg positive] at shorter
  · have shorter := abs_sub_abs_le_abs_sub angle (-step)
    rwa [abs_neg, abs_of_nonneg positive, sub_neg_eq_add] at shorter

theorem abs_turn_iterate_le_reach_iff (positive : 0 ≤ step) (short : step ≤ 2 * reach) (n : Nat) :
    |(turn reach step)^[n] angle| ≤ reach ↔ |angle| - n * step ≤ reach := by
  constructor
  · intro near
    refine le_trans ?_ near
    clear near short
    induction n with
    | zero => simp
    | succ n ih =>
        rw [Function.iterate_succ_apply']
        refine le_trans ?_ (le_abs_turn positive)
        push_cast
        linarith
  · intro gone
    exact (abs_turn_iterate_le positive short n).trans (max_le gone le_rfl)

/-- A turn goes to the other side, and the next one back. -/
theorem turn_iterate_swings (long : 2 * reach < step) (positive : 0 < step) (n : Nat) :
    (turn reach step)^[n] (step / 2) = (-1) ^ n * (step / 2) := by
  have half : 0 < step / 2 := half_pos positive
  have far : ¬ |step / 2| ≤ reach := by
    rw [abs_of_pos half]
    linarith
  have left : turn reach step (step / 2) = -(step / 2) := by
    rw [turn, if_neg far, if_pos half]
    ring
  have right : turn reach step (-(step / 2)) = step / 2 := by
    rw [turn, abs_neg, if_neg far, if_neg (by linarith)]
    ring
  induction n with
  | zero => simp
  | succ n ih =>
      rw [Function.iterate_succ_apply', ih, pow_succ]
      rcases neg_one_pow_eq_or F n with even | odd
      · rw [even, one_mul, one_mul, neg_one_mul, left]
      · rw [odd, neg_one_mul, neg_one_mul, neg_neg, one_mul, right]

theorem abs_turn_iterate_swings (long : 2 * reach < step) (positive : 0 < step) (n : Nat) :
    |(turn reach step)^[n] (step / 2)| = step / 2 := by
  rw [turn_iterate_swings long positive, abs_mul, abs_neg_one_pow, one_mul,
    abs_of_pos (half_pos positive)]

/-- From all angles up to a bound the turns lead into reach, exactly if the step is no longer
than what is in reach on both sides. -/
theorem settles_iff [Archimedean F] {bound : F} (positive : 0 < step) (inside : step < 2 * bound) :
    (∀ angle, |angle| < bound → ∃ n : Nat, |(turn reach step)^[n] angle| ≤ reach) ↔
      step ≤ 2 * reach := by
  constructor
  · intro all
    by_contra longer
    have long := not_le.mp longer
    have half : 0 < step / 2 := half_pos positive
    obtain ⟨n, near⟩ := all (step / 2) (by rw [abs_of_pos half]; linarith)
    rw [abs_turn_iterate_swings long positive] at near
    linarith
  · intro short angle _
    obtain ⟨n, enough⟩ := exists_nat_ge (|angle| / step)
    refine ⟨n, (abs_turn_iterate_le positive.le short n).trans (max_le ?_ le_rfl)⟩
    have gone : |angle| ≤ n * step := (div_le_iff₀ positive).mp enough
    have width : 0 ≤ reach := by linarith
    linarith

end Ssuge.Turning

import Mathlib.Algebra.Order.Floor.Semiring
import Mathlib.Algebra.Order.Field.Basic
import Mathlib.Logic.Function.Iterate
import Mathlib.Tactic.Linarith
import Mathlib.Tactic.Ring

/-! A number that grows by steps but is left alone by a step that would reach a limit. With equal
steps it comes to rest short of the limit, by no more than one step. -/

namespace Ssuge.Approach

variable {F : Type} [Field F] [LinearOrder F]

def approach (limit step x : F) : F := if limit ≤ x + step then x else x + step

variable {limit step x : F}

theorem approach_le (before : x ≤ limit) : approach limit step x ≤ limit := by
  rw [approach]
  split
  next => exact before
  next short => exact (not_le.mp short).le

theorem approach_lt (before : x < limit) : approach limit step x < limit := by
  rw [approach]
  split
  next => exact before
  next short => exact not_le.mp short

variable [IsStrictOrderedRing F]

theorem le_approach (forwards : 0 ≤ step) : x ≤ approach limit step x := by
  rw [approach]
  split
  next => exact le_refl x
  next => linarith

variable [FloorSemiring F]

/-- The steps that fit before the limit. -/
def strides (limit step x : F) : Nat := ⌈(limit - x) / step⌉₊ - 1

theorem le_add_steps_iff (positive : 0 < step) (m : Nat) :
    limit ≤ x + m * step + step ↔ strides limit step x ≤ m := by
  have rate : (limit - x) / step ≤ (m + 1 : Nat) ↔ limit ≤ x + m * step + step := by
    rw [div_le_iff₀ positive]
    push_cast
    constructor <;> intro reached <;> linarith
  rw [← rate, ← Nat.ceil_le, strides]
  omega

theorem approach_iterate (positive : 0 < step) (n : Nat) :
    (approach limit step)^[n] x = x + (min n (strides limit step x) : Nat) * step := by
  induction n with
  | zero => simp
  | succ n ih =>
      rw [Function.iterate_succ_apply', ih, approach]
      have reached : limit ≤ x + (min n (strides limit step x) : Nat) * step + step ↔
          strides limit step x ≤ min n (strides limit step x) := le_add_steps_iff positive _
      by_cases fits : strides limit step x ≤ min n (strides limit step x)
      · rw [if_pos (reached.mpr fits)]
        congr 3
        omega
      · rw [if_neg (reached.not.mpr fits)]
        have one_more : min (n + 1) (strides limit step x) = min n (strides limit step x) + 1 := by
          omega
        rw [one_more]
        push_cast
        ring

end Ssuge.Approach

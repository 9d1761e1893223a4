import Mathlib.Algebra.GroupWithZero.Nat
import Mathlib.Order.Bounds.Basic
import Mathlib.Tactic.Common

/-! Capacities that are doubled until they are enough. After many needs, each no less than the
one before, the capacity is the one that the last need alone would have led to. What is copied
whenever the capacity grows is, all together, no more than a small multiple of the last need. -/

namespace Ssuge.Doubling

variable {capacity needed size : Nat}

/-- `size` is the least of the doublings of a capacity that is enough. -/
def Fits (capacity needed size : Nat) : Prop :=
  IsLeast {enough | needed ≤ enough ∧ ∃ j, enough = capacity * 2 ^ j} size

theorem fits_self (enough : needed ≤ capacity) : Fits capacity needed capacity := by
  refine ⟨⟨enough, 0, (Nat.mul_one _).symm⟩, ?_⟩
  rintro _ ⟨-, j, rfl⟩
  exact Nat.le_mul_of_pos_right _ (Nat.two_pow_pos j)

theorem Fits.of_double (small : capacity < needed) (fits : Fits (2 * capacity) needed size) :
    Fits capacity needed size := by
  obtain ⟨⟨enough, j, rfl⟩, least⟩ := fits
  refine ⟨⟨enough, j + 1, by rw [Nat.pow_succ]; grind⟩, ?_⟩
  rintro _ ⟨enough', k, rfl⟩
  cases k with
  | zero =>
      rw [Nat.pow_zero, Nat.mul_one] at enough'
      exact absurd small (Nat.not_lt.mpr enough')
  | succ k => exact least ⟨enough', k, by rw [Nat.pow_succ]; grind⟩

theorem Fits.trans {needed' size' : Nat} (more : needed ≤ needed')
    (first : Fits capacity needed size) (second : Fits size needed' size') :
    Fits capacity needed' size' := by
  obtain ⟨⟨-, j, rfl⟩, least⟩ := first
  obtain ⟨⟨enough, k, rfl⟩, least'⟩ := second
  refine ⟨⟨enough, j + k, by rw [Nat.pow_add, Nat.mul_assoc]⟩, ?_⟩
  rintro _ ⟨enough', i, rfl⟩
  have between := least ⟨more.trans enough', i, rfl⟩
  rcases Nat.eq_zero_or_pos capacity with rfl | positive
  · simp
  have exponent : j ≤ i :=
    (Nat.pow_le_pow_iff_right Nat.one_lt_two).mp (Nat.le_of_mul_le_mul_left between positive)
  refine least' ⟨enough', i - j, ?_⟩
  rw [Nat.mul_assoc, ← Nat.pow_add, Nat.add_sub_cancel' exponent]

/-- A capacity that grows is doubled at least, and does not reach the double of the need. -/
theorem Fits.bounds (fits : Fits capacity needed size) (small : capacity < needed) :
    2 * capacity ≤ size ∧ size < 2 * needed := by
  obtain ⟨⟨enough, j, rfl⟩, least⟩ := fits
  cases j with
  | zero =>
      rw [Nat.pow_zero, Nat.mul_one] at enough
      exact absurd small (Nat.not_lt.mpr enough)
  | succ j =>
      have half : capacity * 2 ^ (j + 1) = 2 * (capacity * 2 ^ j) := by
        rw [Nat.pow_succ]
        grind
      have one : capacity ≤ capacity * 2 ^ j := Nat.le_mul_of_pos_right _ (Nat.two_pow_pos j)
      refine ⟨by omega, ?_⟩
      by_contra large
      have before := least ⟨show needed ≤ capacity * 2 ^ j by omega, j, rfl⟩
      omega

/-- What copying has cost is paid by the capacity, and by the need. -/
structure Paid (capacity needed spent : Nat) : Prop where
  byCapacity : spent ≤ 2 * capacity
  byNeed : spent ≤ 3 * needed

theorem Paid.keep {spent needed' : Nat} (paid : Paid capacity needed spent)
    (more : needed ≤ needed') : Paid capacity needed' spent :=
  ⟨paid.byCapacity, paid.byNeed.trans (Nat.mul_le_mul_left 3 more)⟩

theorem Paid.grow {spent needed' copied : Nat} (paid : Paid capacity needed spent)
    (small : capacity < needed') (fits : Fits capacity needed' size) (all : copied ≤ needed') :
    Paid size needed' (spent + copied) := by
  have enough := fits.1.1
  have doubled := (fits.bounds small).1
  have before := paid.byCapacity
  exact ⟨by omega, by omega⟩

end Ssuge.Doubling

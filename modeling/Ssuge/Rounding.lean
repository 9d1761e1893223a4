import Mathlib.Algebra.Order.Ring.Nat
import Mathlib.Tactic.Common

/-! Natural numbers rounded to their leading binary digits, to nearest and ties to even. A
number is left alone exactly when it is short: when it has no more digits than are kept, its
trailing zeros aside. Floating-point patterns of any width stand for such numbers: an exponent
field above the fraction says by which power of two the digits are scaled. -/

namespace Ssuge.Rounding

/-- `s / 2 ^ k`, rounded to a natural number. -/
def halfEven (s k : Nat) : Nat :=
  let low := s / 2 ^ k
  let rest := s % 2 ^ k
  if 2 ^ k < 2 * rest ∨ (2 * rest = 2 ^ k ∧ low % 2 = 1) then low + 1 else low

/-- How many digits are more than `p`. -/
def excess (p n : Nat) : Nat := n.log2 + 1 - p

def roundTo (p n : Nat) : Nat := halfEven n (excess p n) * 2 ^ excess p n

/-- At most `p` digits, and zeros after them. -/
def Short (p n : Nat) : Prop := ∃ s e, s < 2 ^ p ∧ n = s * 2 ^ e

theorem le_halfEven (s k : Nat) : s / 2 ^ k ≤ halfEven s k := by
  simp only [halfEven]
  split <;> omega

theorem halfEven_le (s k : Nat) : halfEven s k ≤ s / 2 ^ k + 1 := by
  simp only [halfEven]
  split <;> omega

theorem halfEven_zero (s : Nat) : halfEven s 0 = s := by
  have rest : ¬ (2 ^ 0 < 2 * (s % 2 ^ 0) ∨ (2 * (s % 2 ^ 0) = 2 ^ 0 ∧ s / 2 ^ 0 % 2 = 1)) := by
    rw [pow_zero, Nat.mod_one]
    omega
  rw [halfEven, if_neg rest, pow_zero, Nat.div_one]

theorem zero_halfEven (k : Nat) : halfEven 0 k = 0 := by
  simp [halfEven]

theorem halfEven_mul_pow (s i j : Nat) : halfEven (s * 2 ^ i) (j + i) = halfEven s j := by
  have positive : 0 < 2 ^ i := Nat.two_pow_pos i
  have low : s * 2 ^ i / 2 ^ (j + i) = s / 2 ^ j := by
    rw [pow_add, Nat.mul_div_mul_right _ _ positive]
  have rest : s * 2 ^ i % 2 ^ (j + i) = s % 2 ^ j * 2 ^ i := by
    rw [pow_add, Nat.mul_mod_mul_right]
  have above : 2 ^ (j + i) < 2 * (s % 2 ^ j * 2 ^ i) ↔ 2 ^ j < 2 * (s % 2 ^ j) := by
    rw [pow_add, ← Nat.mul_assoc]
    exact Nat.mul_lt_mul_right positive
  have half : 2 * (s % 2 ^ j * 2 ^ i) = 2 ^ (j + i) ↔ 2 * (s % 2 ^ j) = 2 ^ j := by
    rw [pow_add, ← Nat.mul_assoc]
    exact Nat.mul_left_inj positive.ne'
  simp only [halfEven, low, rest, above, half]

theorem halfEven_mul_eq_iff (s k : Nat) : halfEven s k * 2 ^ k = s ↔ 2 ^ k ∣ s := by
  constructor
  · exact fun whole => ⟨halfEven s k, by rw [Nat.mul_comm, whole]⟩
  · intro divides
    have zero := Nat.mod_eq_zero_of_dvd divides
    have positive := Nat.two_pow_pos k
    have rest : ¬ (2 ^ k < 2 * (s % 2 ^ k) ∨ (2 * (s % 2 ^ k) = 2 ^ k ∧ s / 2 ^ k % 2 = 1)) := by
      rw [zero]
      omega
    rw [halfEven, if_neg rest, Nat.div_mul_cancel divides]

theorem short_iff_dvd (p n : Nat) : Short p n ↔ 2 ^ excess p n ∣ n := by
  rcases Nat.eq_zero_or_pos n with rfl | positive
  · exact iff_of_true ⟨0, 0, Nat.two_pow_pos p, rfl⟩ ⟨0, rfl⟩
  have lower : 2 ^ n.log2 ≤ n := Nat.log2_self_le positive.ne'
  constructor
  · rintro ⟨s, e, small, rfl⟩
    by_cases enough : excess p (s * 2 ^ e) ≤ e
    · exact (pow_dvd_pow 2 enough).mul_left s
    · exfalso
      have upper : s * 2 ^ e < 2 ^ (p + e) := by
        rw [pow_add]
        exact Nat.mul_lt_mul_of_pos_right small (Nat.two_pow_pos e)
      have shorter : 2 ^ (p + e) ≤ 2 ^ (s * 2 ^ e).log2 :=
        Nat.pow_le_pow_right (by decide) (by rw [excess] at enough; omega)
      omega
  · intro divides
    refine ⟨n / 2 ^ excess p n, excess p n, ?_, (Nat.div_mul_cancel divides).symm⟩
    rw [Nat.div_lt_iff_lt_mul (Nat.two_pow_pos _), ← pow_add]
    have upper : n < 2 ^ (n.log2 + 1) := Nat.lt_log2_self
    exact upper.trans_le (Nat.pow_le_pow_right (by decide) (by rw [excess]; omega))

/-- Rounding leaves the short numbers alone, and no others. -/
theorem roundTo_eq_self_iff (p n : Nat) : roundTo p n = n ↔ Short p n := by
  rw [short_iff_dvd, roundTo, halfEven_mul_eq_iff]

instance (p n : Nat) : Decidable (Short p n) := decidable_of_iff _ (short_iff_dvd p n).symm

theorem roundTo_of_log2_lt {p n : Nat} (few : n.log2 < p) : roundTo p n = n := by
  have none : excess p n = 0 := by
    rw [excess]
    omega
  rw [roundTo, none, halfEven_zero, pow_zero, Nat.mul_one]

theorem halfEven_excess_bounds {p n : Nat} (many : p < n.log2) :
    2 ^ p ≤ halfEven n (excess (p + 1) n) ∧ halfEven n (excess (p + 1) n) ≤ 2 ^ (p + 1) := by
  have nonzero : n ≠ 0 := by
    rintro rfl
    simp at many
  have cut : n.log2 = p + excess (p + 1) n := by
    rw [excess]
    omega
  have lower : 2 ^ p ≤ n / 2 ^ excess (p + 1) n := by
    rw [Nat.le_div_iff_mul_le (Nat.two_pow_pos _), ← pow_add, ← cut]
    exact Nat.log2_self_le nonzero
  have upper : n / 2 ^ excess (p + 1) n < 2 ^ (p + 1) := by
    rw [Nat.div_lt_iff_lt_mul (Nat.two_pow_pos _), ← pow_add, Nat.add_right_comm, ← cut]
    exact Nat.lt_log2_self
  exact ⟨lower.trans (le_halfEven n _), (halfEven_le n _).trans upper⟩

/-- The pattern, without a sign, of a finite number that is equal to `n`. There are `p` digits
after the leading one, and the exponent field `bias` scales them by one. -/
def Stands (p bias pattern n : Nat) : Prop :=
  let exponent := pattern / 2 ^ p
  let fraction := pattern % 2 ^ p
  if exponent = 0 then fraction = 0 ∧ n = 0
  else (2 ^ p + fraction) * 2 ^ (exponent - bias) = n * 2 ^ (bias - exponent)

theorem log2_mul_pow {n : Nat} (nonzero : n ≠ 0) (k : Nat) : (n * 2 ^ k).log2 = n.log2 + k := by
  induction k with
  | zero => rw [pow_zero, Nat.mul_one, Nat.add_zero]
  | succ k ih =>
      have before : n * 2 ^ k ≠ 0 := Nat.mul_ne_zero nonzero (Nat.two_pow_pos k).ne'
      rw [pow_succ, ← Nat.mul_assoc, Nat.mul_comm _ 2, Nat.log2_two_mul before, ih, Nat.add_assoc]

theorem Stands.zero {p bias pattern : Nat} (stands : Stands p bias pattern 0) :
    pattern / 2 ^ p = 0 ∧ pattern % 2 ^ p = 0 := by
  rw [Stands] at stands
  split at stands
  next zero => exact ⟨zero, stands.1⟩
  next nonzero =>
    have positive : 0 < (2 ^ p + pattern % 2 ^ p) * 2 ^ (pattern / 2 ^ p - bias) :=
      Nat.mul_pos (Nat.add_pos_left (Nat.two_pow_pos p) _) (Nat.two_pow_pos _)
    rw [stands, Nat.zero_mul] at positive
    exact absurd positive (Nat.lt_irrefl 0)

theorem Stands.fields {p bias pattern n : Nat} (stands : Stands p bias pattern n)
    (nonzero : n ≠ 0) (room : n.log2 ≤ p) (scaled : p < bias) :
    pattern / 2 ^ p = n.log2 + (bias - p) ∧ 2 ^ p + pattern % 2 ^ p = n * 2 ^ (p - n.log2) := by
  rw [Stands] at stands
  split at stands
  next => exact absurd stands.2 nonzero
  next normal =>
    have small : pattern % 2 ^ p < 2 ^ p := Nat.mod_lt _ (Nat.two_pow_pos p)
    have leading : (2 ^ p + pattern % 2 ^ p).log2 = p := by
      rw [Nat.log2_eq_iff (by omega), pow_succ]
      omega
    have lengths := congrArg Nat.log2 stands
    rw [log2_mul_pow (by omega), log2_mul_pow nonzero, leading] at lengths
    have above : pattern / 2 ^ p - bias = 0 := by omega
    have below : bias - pattern / 2 ^ p = p - n.log2 := by omega
    rw [above, below, pow_zero, Nat.mul_one] at stands
    exact ⟨by omega, stands⟩

/-- The pattern whose leading digits are `s`; a carry goes to the exponent. -/
theorem stands_of_digits {p bias e s n : Nat} (positive : 0 < e) (lower : 2 ^ p ≤ s)
    (upper : s ≤ 2 ^ (p + 1)) (value : s * 2 ^ (e - bias) = n * 2 ^ (bias - e)) :
    Stands p bias ((e - 1) * 2 ^ p + s) n := by
  have unit : 0 < 2 ^ p := Nat.two_pow_pos p
  have double : 2 ^ (p + 1) = 2 * 2 ^ p := by rw [pow_succ, Nat.mul_comm]
  obtain ⟨e, rfl⟩ := Nat.exists_eq_add_of_lt positive
  rw [Nat.zero_add] at value ⊢
  rw [Nat.add_sub_cancel]
  rcases Nat.lt_or_eq_of_le upper with digits | rfl
  · have pattern : e * 2 ^ p + s = (s - 2 ^ p) + 2 ^ p * (e + 1) := by
      rw [Nat.mul_add, Nat.mul_comm]
      omega
    have small : s - 2 ^ p < 2 ^ p := by omega
    rw [Stands, pattern, Nat.add_mul_div_left _ _ unit, Nat.div_eq_of_lt small, Nat.zero_add,
      Nat.add_mul_mod_self_left, Nat.mod_eq_of_lt small, if_neg (Nat.succ_ne_zero e),
      Nat.add_sub_cancel' lower]
    exact value
  · have pattern : e * 2 ^ p + 2 ^ (p + 1) = 2 ^ p * (e + 2) := by
      rw [double, Nat.mul_add, Nat.mul_comm, Nat.mul_comm 2]
    rw [Stands, pattern, Nat.mul_div_cancel_left _ unit, Nat.mul_mod_right,
      if_neg (Nat.succ_ne_zero (e + 1)), Nat.add_zero]
    rw [double, Nat.mul_comm 2, Nat.mul_assoc] at value
    rcases Nat.lt_or_ge (e + 1) bias with scaled | whole
    · obtain ⟨d, rfl⟩ := Nat.exists_eq_add_of_le (show e + 2 ≤ bias from scaled)
      have before : e + 2 + d - (e + 1) = d + 1 := by omega
      rw [Nat.sub_eq_zero_of_le scaled.le, before, pow_zero, Nat.mul_one, pow_succ,
        ← Nat.mul_assoc] at value
      rw [Nat.sub_eq_zero_of_le (Nat.le_add_right _ _), Nat.add_sub_cancel_left, pow_zero,
        Nat.mul_one]
      exact Nat.eq_of_mul_eq_mul_right (by decide) value
    · have after : e + 2 - bias = e + 1 - bias + 1 := by omega
      rw [Nat.sub_eq_zero_of_le whole] at value
      rw [Nat.sub_eq_zero_of_le (whole.trans (Nat.le_succ _)), after, pow_succ, Nat.mul_comm _ 2]
      exact value

theorem mul_pow_bounds {p n : Nat} (nonzero : n ≠ 0) (few : n.log2 ≤ p) :
    2 ^ p ≤ n * 2 ^ (p - n.log2) ∧ n * 2 ^ (p - n.log2) ≤ 2 ^ (p + 1) := by
  have lower : 2 ^ n.log2 ≤ n := Nat.log2_self_le nonzero
  have upper : n ≤ 2 ^ (n.log2 + 1) := Nat.lt_log2_self.le
  constructor
  · calc 2 ^ p = 2 ^ n.log2 * 2 ^ (p - n.log2) := by rw [← pow_add, Nat.add_sub_cancel' few]
      _ ≤ n * 2 ^ (p - n.log2) := Nat.mul_le_mul_right _ lower
  · calc n * 2 ^ (p - n.log2) ≤ 2 ^ (n.log2 + 1) * 2 ^ (p - n.log2) :=
          Nat.mul_le_mul_right _ upper
      _ = 2 ^ (p + 1) := by rw [← pow_add, Nat.add_right_comm, Nat.add_sub_cancel' few]

def encode (p bias n : Nat) : Nat :=
  if n = 0 then 0 else (n.log2 + (bias - p) - 1) * 2 ^ p + n * 2 ^ (p - n.log2)

theorem encode_stands {p bias n : Nat} (few : n.log2 ≤ p) (scaled : p < bias) :
    Stands p bias (encode p bias n) n := by
  rw [encode]
  split
  next zero =>
    rw [zero, Stands, if_pos (Nat.zero_div _)]
    exact ⟨Nat.zero_mod _, rfl⟩
  next nonzero =>
    obtain ⟨lower, upper⟩ := mul_pow_bounds nonzero few
    have whole : n.log2 + (bias - p) - bias = 0 := by omega
    have parts : bias - (n.log2 + (bias - p)) = p - n.log2 := by omega
    refine stands_of_digits (by omega) lower upper ?_
    rw [whole, parts, pow_zero, Nat.mul_one]

theorem encode_le {p n : Nat} (few : n.log2 ≤ p) (bias : Nat) :
    encode p bias n ≤ (n.log2 + (bias - p) + 2) * 2 ^ p := by
  rw [encode]
  split
  · exact Nat.zero_le _
  next nonzero =>
    have digits := (mul_pow_bounds nonzero few).2
    have field : (n.log2 + (bias - p) - 1) * 2 ^ p ≤ (n.log2 + (bias - p)) * 2 ^ p :=
      Nat.mul_le_mul_right _ (Nat.sub_le _ 1)
    rw [pow_succ] at digits
    rw [Nat.add_mul _ 2, Nat.mul_comm 2]
    omega

end Ssuge.Rounding

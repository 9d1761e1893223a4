import Mathlib.Data.Nat.Init
import Mathlib.Tactic.Common

/-! The last entry of a list that meets a condition: a search from the end finds it at the
place that cuts the list there. -/

namespace Ssuge.LastIndex

variable {α : Type} (p q : α → Bool)

/-- The index of the last entry with `p`. -/
def lastIndex : List α → Option Nat
  | [] => none
  | x :: l => match lastIndex l with
      | some i => some (i + 1)
      | none => if p x then some 0 else none

variable {p q}

theorem lastIndex_eq_none {l : List α} : lastIndex p l = none ↔ ∀ x ∈ l, p x = false := by
  induction l with
  | nil => simp [lastIndex]
  | cons x l ih =>
      rw [lastIndex, List.forall_mem_cons, ← ih]
      cases lastIndex p l with
      | some i => simp
      | none => simp

/-- A list is cut at the last entry with `p`. -/
theorem lastIndex_append_cons {pre post : List α} {x : α} (holds : p x = true)
    (free : ∀ y ∈ post, p y = false) : lastIndex p (pre ++ x :: post) = some pre.length := by
  induction pre with
  | nil => simp [lastIndex, lastIndex_eq_none.mpr free, holds]
  | cons y pre ih => simp [lastIndex, ih]

theorem free_or_cut (p : α → Bool) (l : List α) : (∀ x ∈ l, p x = false) ∨
    ∃ pre x post, l = pre ++ x :: post ∧ p x = true ∧ ∀ y ∈ post, p y = false := by
  induction l with
  | nil => exact .inl (by simp)
  | cons x l ih =>
      rcases ih with free | ⟨pre, y, post, rfl, holds, free⟩
      · cases here : p x with
        | false => exact .inl (List.forall_mem_cons.mpr ⟨here, free⟩)
        | true => exact .inr ⟨[], x, l, rfl, here, free⟩
      · exact .inr ⟨x :: pre, y, post, rfl, holds, free⟩

theorem lastIndex_lt {l : List α} {i : Nat} (found : lastIndex p l = some i) : i < l.length := by
  rcases free_or_cut p l with free | ⟨pre, x, post, rfl, holds, free⟩
  · simp [lastIndex_eq_none.mpr free] at found
  · rw [lastIndex_append_cons holds free] at found
    obtain rfl := Option.some.inj found
    simp

theorem lastIndex_or (p q : α → Bool) (l : List α) :
    lastIndex (fun x => p x || q x) l = max (lastIndex p l) (lastIndex q l) := by
  induction l with
  | nil => rfl
  | cons x l ih =>
      simp only [lastIndex, ih]
      cases first : lastIndex p l with
      | none =>
          cases second : lastIndex q l with
          | none =>
              by_cases here : p x = true
              · by_cases there : q x = true <;> simp [here, there]
              · simp [here]
          | some j => by_cases here : p x = true <;> simp [here]
      | some i =>
          cases second : lastIndex q l with
          | none => by_cases there : q x = true <;> simp [there]
          | some j => simp [Nat.add_max_add_right]

end Ssuge.LastIndex

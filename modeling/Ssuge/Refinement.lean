import Mathlib.Tactic.Common

/-! Refinement between machines that answer calls. A machine may be unable to go on; the
specification always answers. If each answer of the machine is the answer of the
specification in a related state, and the states after are related again, then whole
runs give the same answers. -/

namespace Ssuge.Refinement

variable {σ τ α ρ : Type}

def answers (step : σ → α → Option (ρ × σ)) : σ → List α → Option (List ρ × σ)
  | s, [] => some ([], s)
  | s, a :: as => (step s a).bind fun (x, s') =>
      (answers step s' as).map fun (xs, t) => (x :: xs, t)

def specAnswers (spec : τ → α → ρ × τ) : τ → List α → List ρ × τ
  | t, [] => ([], t)
  | t, a :: as =>
      let rest := specAnswers spec (spec t a).2 as
      ((spec t a).1 :: rest.1, rest.2)

variable {step : σ → α → Option (ρ × σ)} {spec : τ → α → ρ × τ}

theorem answers_cons {s u : σ} {a : α} {as : List α} {ys : List ρ} :
    answers step s (a :: as) = some (ys, u) ↔ ∃ x s' xs, step s a = some (x, s') ∧
      answers step s' as = some (xs, u) ∧ ys = x :: xs := by
  rw [answers, Option.bind_eq_some_iff]
  constructor
  · rintro ⟨⟨x, s'⟩, first, rest⟩
    obtain ⟨⟨xs, t⟩, run, same⟩ := Option.map_eq_some_iff.mp rest
    obtain ⟨rfl, rfl⟩ := Prod.mk.inj same
    exact ⟨x, s', xs, first, run, rfl⟩
  · rintro ⟨x, s', xs, first, run, rfl⟩
    exact ⟨(x, s'), first, by simp [run]⟩

/-- The simulation, lifted from calls to runs. -/
theorem answers_refine {R : σ → τ → Prop}
    (simulates : ∀ s t a x s', R s t → step s a = some (x, s') →
      (spec t a).1 = x ∧ R s' (spec t a).2)
    {s u : σ} {t : τ} (related : R s t) {as : List α} {xs : List ρ}
    (run : answers step s as = some (xs, u)) :
    (specAnswers spec t as).1 = xs ∧ R u (specAnswers spec t as).2 := by
  induction as generalizing s t xs with
  | nil =>
      obtain ⟨rfl, rfl⟩ := Prod.mk.inj (Option.some.inj run)
      exact ⟨rfl, related⟩
  | cons a as ih =>
      obtain ⟨x, s', ys, first, rest, rfl⟩ := answers_cons.mp run
      obtain ⟨answer, related'⟩ := simulates s t a x s' related first
      obtain ⟨same, final⟩ := ih related' rest
      exact ⟨by simp only [specAnswers, answer, same], final⟩

end Ssuge.Refinement

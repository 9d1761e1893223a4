import Ssuge.Procedure

/-! Procedures that are unaware of a part of the state. In a `hidden` state the part is
missing, and `reveal` puts it there; a procedure is unaware of it when it does the same
with and without it. The rules follow the way a procedure is put together. -/

namespace Ssuge.Procedure

variable {ε σ τ α β : Type}

def Ending.mapState (f : σ → τ) : Ending ε σ α → Ending ε τ α
  | returned a s => .returned a (f s)
  | stopped e s => .stopped e (f s)

theorem Ending.mapState_resumes (f : σ → σ) (caught : ε → Bool) (e : Ending ε σ α) :
    (e.mapState f).resumes caught = (e.resumes caught).map f := by
  cases e with
  | returned a s => rfl
  | stopped reason s =>
      simp only [mapState, resumes]
      split <;> rfl

/-- From every hidden state the procedure stays in hidden states, and ends in the same way
when the part is revealed before it or after it. -/
structure Unaware (hidden : σ → Prop) (reveal : σ → σ) (p : Proc ε σ α) : Prop where
  keeps : ∀ s, hidden s → hidden (p.run s).state
  same : ∀ s, hidden s → p.run (reveal s) = (p.run s).mapState reveal

variable {hidden : σ → Prop} {reveal : σ → σ}

theorem unaware_pure (a : α) : Unaware hidden reveal (pure a : Proc ε σ α) :=
  ⟨fun _ start => start, fun _ _ => rfl⟩

theorem unaware_stop (e : ε) : Unaware hidden reveal (stop e : Proc ε σ α) :=
  ⟨fun _ start => start, fun _ _ => rfl⟩

theorem unaware_orStop (x : Option α) (e : ε) :
    Unaware hidden reveal (orStop x e : Proc ε σ α) := by
  cases x with
  | none => exact unaware_stop e
  | some a => exact unaware_pure a

theorem unaware_require (c : Prop) [Decidable c] (e : ε) :
    Unaware hidden reveal (require c e : Proc ε σ Unit) := by
  rw [require]
  split
  · exact unaware_pure ()
  · exact unaware_stop e

theorem Unaware.bind {p : Proc ε σ α} {f : α → Proc ε σ β} (first : Unaware hidden reveal p)
    (rest : ∀ a, Unaware hidden reveal (f a)) : Unaware hidden reveal (p >>= f) := by
  refine ⟨fun s start => ?_, fun s start => ?_⟩
  · have middle := first.keeps s start
    cases run : p.run s with
    | returned a t =>
        rw [run] at middle
        rw [bind_of_returned run]
        exact (rest a).keeps t middle
    | stopped e t =>
        rw [run] at middle
        rw [bind_of_stopped run]
        exact middle
  · have middle := first.keeps s start
    have shown := first.same s start
    cases run : p.run s with
    | returned a t =>
        rw [run] at middle shown
        rw [bind_of_returned run, bind_of_returned shown]
        exact (rest a).same t middle
    | stopped e t =>
        rw [run] at shown
        rw [bind_of_stopped run, bind_of_stopped shown]
        rfl

theorem unaware_get {f : σ → Proc ε σ α} (blind : ∀ s, hidden s → f (reveal s) = f s)
    (each : ∀ s, hidden s → Unaware hidden reveal (f s)) : Unaware hidden reveal (get >>= f) := by
  refine ⟨fun s start => (each s start).keeps s start, fun s start => ?_⟩
  rw [bind_get_run, bind_get_run, blind s start]
  exact (each s start).same s start

theorem unaware_modify {g : σ → σ} (keeps : ∀ s, hidden s → hidden (g s))
    (same : ∀ s, hidden s → g (reveal s) = reveal (g s)) :
    Unaware hidden reveal (modify g : Proc ε σ PUnit) :=
  ⟨keeps, fun s start => congrArg (Ending.returned PUnit.unit) (same s start)⟩

theorem unaware_within {part : σ → τ} {put : σ → τ → σ} (p : Proc ε τ α)
    (keeps : ∀ s t, hidden s → hidden (put s t)) (sees : ∀ s, hidden s → part (reveal s) = part s)
    (same : ∀ s t, hidden s → put (reveal s) t = reveal (put s t)) :
    Unaware hidden reveal (within part put p) := by
  refine ⟨fun s start => ?_, fun s start => ?_⟩
  · rw [within_run]
    cases p.run (part s) <;> exact keeps s _ start
  · rw [within_run, within_run, sees s start]
    cases p.run (part s) <;> simp only [Ending.mapState, same s _ start]

end Ssuge.Procedure

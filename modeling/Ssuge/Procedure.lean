import Mathlib.Tactic.Common

/-! Procedures on a state that may stop without returning. However a procedure
ends, the state it has reached stays: what was done before the stop is not undone. -/

namespace Ssuge.Procedure

/-- The end of a run of a procedure: it returns, or it stops for a reason. -/
inductive Ending (ε σ α : Type)
  | returned (value : α) (state : σ)
  | stopped (reason : ε) (state : σ)

structure Proc (ε σ α : Type) where
  run : σ → Ending ε σ α

variable {ε σ τ α β : Type}

def Ending.state : Ending ε σ α → σ
  | returned _ s => s
  | stopped _ s => s

def Ending.returns : Ending ε σ α → Bool
  | returned _ _ => true
  | stopped _ _ => false

/-- The state from which the caller goes on: a reason it catches ends nothing. -/
def Ending.resumes (caught : ε → Bool) : Ending ε σ α → Option σ
  | returned _ s => some s
  | stopped e s => if caught e then some s else none

def Proc.pure (a : α) : Proc ε σ α := ⟨fun s => .returned a s⟩

def Proc.bind (p : Proc ε σ α) (f : α → Proc ε σ β) : Proc ε σ β := ⟨fun s =>
  match p.run s with
  | .returned a t => (f a).run t
  | .stopped e t => .stopped e t⟩

instance : Monad (Proc ε σ) where
  pure := Proc.pure
  bind := Proc.bind

instance : MonadStateOf σ (Proc ε σ) where
  get := ⟨fun s => .returned s s⟩
  set t := ⟨fun _ => .returned ⟨⟩ t⟩
  modifyGet f := ⟨fun s => .returned (f s).1 (f s).2⟩

def stop (e : ε) : Proc ε σ α := ⟨fun s => .stopped e s⟩

def require (p : Prop) [Decidable p] (e : ε) : Proc ε σ Unit :=
  if p then pure () else stop e

/-- The value of an `Option`, if it has one. -/
def orStop (x : Option α) (e : ε) : Proc ε σ α :=
  match x with
  | some a => pure a
  | none => stop e

def within (part : σ → τ) (put : σ → τ → σ) (p : Proc ε τ α) : Proc ε σ α := ⟨fun s =>
  match p.run (part s) with
  | .returned a t => .returned a (put s t)
  | .stopped e t => .stopped e (put s t)⟩

def stopAs {ε' : Type} (g : ε → ε') (p : Proc ε σ α) : Proc ε' σ α := ⟨fun s =>
  match p.run s with
  | .returned a t => .returned a t
  | .stopped e t => .stopped (g e) t⟩

def Proc.handle (p : Proc ε σ α) (caught : ε → Bool) (handler : Proc ε σ α) :
    Proc ε σ α := ⟨fun s =>
  match p.run s with
  | .returned a t => .returned a t
  | .stopped e t => if caught e then handler.run t else .stopped e t⟩

theorem bind_of_returned {p : Proc ε σ α} {s t : σ} {a : α} (h : p.run s = .returned a t)
    (f : α → Proc ε σ β) : (p >>= f).run s = (f a).run t := by
  change (Proc.bind p f).run s = _
  simp only [Proc.bind, h]

theorem bind_of_stopped {p : Proc ε σ α} {s t : σ} {e : ε} (h : p.run s = .stopped e t)
    (f : α → Proc ε σ β) : (p >>= f).run s = .stopped e t := by
  change (Proc.bind p f).run s = _
  simp only [Proc.bind, h]

theorem bind_eq_returned {p : Proc ε σ α} {f : α → Proc ε σ β} {s u : σ} {b : β} :
    (p >>= f).run s = .returned b u ↔
      ∃ a t, p.run s = .returned a t ∧ (f a).run t = .returned b u := by
  cases h : p.run s with
  | returned a t =>
      rw [bind_of_returned h]
      simp only [Ending.returned.injEq]
      constructor
      · exact fun rest => ⟨a, t, ⟨rfl, rfl⟩, rest⟩
      · rintro ⟨a', t', ⟨rfl, rfl⟩, rest⟩
        exact rest
  | stopped e t =>
      rw [bind_of_stopped h]
      simp

/-- However the two parts end, the state of the whole is related to the start by a
transitive relation that relates the states of each part. -/
theorem bind_related {R : σ → σ → Prop} (trans : ∀ {s t u}, R s t → R t u → R s u)
    {p : Proc ε σ α} {f : α → Proc ε σ β} {s : σ} (first : R s (p.run s).state)
    (rest : ∀ a t, p.run s = .returned a t → R t ((f a).run t).state) :
    R s ((p >>= f).run s).state := by
  cases h : p.run s with
  | returned a t =>
      rw [h] at first
      rw [bind_of_returned h]
      exact trans first (rest a t h)
  | stopped e t =>
      rw [h] at first
      rw [bind_of_stopped h]
      exact first

theorem bind_state {p : Proc ε σ α} {f : α → Proc ε σ β} {s : σ} (first : (p.run s).state = s)
    (second : ∀ a, ((f a).run s).state = s) : ((p >>= f).run s).state = s := by
  apply bind_related (R := fun s t => t = s) (fun before after => after.trans before) first
  intro a t run
  rw [run] at first
  obtain rfl : t = s := first
  exact second a

theorem resumes_state {caught : ε → Bool} {e : Ending ε σ α} {s : σ}
    (resumed : e.resumes caught = some s) : e.state = s := by
  cases e with
  | returned a t => exact Option.some.inj resumed
  | stopped reason t =>
      rw [Ending.resumes] at resumed
      split at resumed
      · exact Option.some.inj resumed
      · simp at resumed

theorem within_run (part : σ → τ) (put : σ → τ → σ) (p : Proc ε τ α) (s : σ) :
    (within part put p).run s = match p.run (part s) with
      | .returned a t => .returned a (put s t)
      | .stopped e t => .stopped e (put s t) := rfl

theorem stopAs_run {ε' : Type} (g : ε → ε') (p : Proc ε σ α) (s : σ) :
    (stopAs g p).run s = match p.run s with
      | .returned a t => .returned a t
      | .stopped e t => .stopped (g e) t := rfl

theorem discard_run (p : Proc ε σ α) (s : σ) : (discard p).run s = match p.run s with
    | .returned _ t => .returned ⟨⟩ t
    | .stopped e t => .stopped e t := rfl

theorem discard_returned {p : Proc ε σ α} {s t : σ} :
    (discard p).run s = .returned ⟨⟩ t ↔ ∃ a, p.run s = .returned a t := by
  rw [discard_run]
  cases p.run s <;> simp

theorem discard_stopped {p : Proc ε σ α} {s t : σ} {e : ε} :
    (discard p).run s = .stopped e t ↔ p.run s = .stopped e t := by
  rw [discard_run]
  cases p.run s <;> simp

theorem handle_returned {p : Proc ε σ α} {s t : σ} {a : α} (h : p.run s = .returned a t)
    (caught : ε → Bool) (handler : Proc ε σ α) :
    (p.handle caught handler).run s = .returned a t := by
  simp only [Proc.handle, h]

theorem handle_stopped {p : Proc ε σ α} {s t : σ} {e : ε} (h : p.run s = .stopped e t)
    (caught : ε → Bool) (handler : Proc ε σ α) : (p.handle caught handler).run s =
      if caught e then handler.run t else .stopped e t := by
  simp only [Proc.handle, h]

theorem resumes_discard (p : Proc ε σ α) (caught : ε → Bool) (s : σ) :
    ((discard p).run s).resumes caught = (p.run s).resumes caught := by
  rw [discard_run]
  cases p.run s <;> rfl

theorem within_returned {part : σ → τ} {put : σ → τ → σ} {p : Proc ε τ α} {s u : σ} {a : α} :
    (within part put p).run s = .returned a u ↔
      ∃ t, p.run (part s) = .returned a t ∧ u = put s t := by
  rw [within_run]
  cases p.run (part s) <;> simp [eq_comm, and_comm]

theorem within_stopped {part : σ → τ} {put : σ → τ → σ} {p : Proc ε τ α} {s u : σ} {e : ε} :
    (within part put p).run s = .stopped e u ↔
      ∃ t, p.run (part s) = .stopped e t ∧ u = put s t := by
  rw [within_run]
  cases p.run (part s) <;> simp [eq_comm, and_comm]

theorem bind_eq_stopped {p : Proc ε σ α} {f : α → Proc ε σ β} {s u : σ} {e : ε} :
    (p >>= f).run s = .stopped e u ↔ p.run s = .stopped e u ∨
      ∃ a t, p.run s = .returned a t ∧ (f a).run t = .stopped e u := by
  cases h : p.run s with
  | returned a t =>
      rw [bind_of_returned h]
      simp only [Ending.returned.injEq, reduceCtorEq, false_or]
      constructor
      · exact fun rest => ⟨a, t, ⟨rfl, rfl⟩, rest⟩
      · rintro ⟨a', t', ⟨rfl, rfl⟩, rest⟩
        exact rest
  | stopped e' t =>
      rw [bind_of_stopped h]
      simp

@[simp] theorem pure_run (a : α) (s : σ) : (pure a : Proc ε σ α).run s = .returned a s := rfl

@[simp] theorem modify_run (f : σ → σ) (s : σ) :
    (modify f : Proc ε σ PUnit).run s = .returned ⟨⟩ (f s) := rfl

@[simp] theorem stop_run (e : ε) (s : σ) : (stop e : Proc ε σ α).run s = .stopped e s := rfl

@[simp] theorem orStop_some (a : α) (e : ε) (s : σ) :
    (orStop (some a) e : Proc ε σ α).run s = .returned a s := rfl

@[simp] theorem orStop_none (e : ε) (s : σ) :
    (orStop none e : Proc ε σ α).run s = .stopped e s := rfl

theorem require_pos {p : Prop} [Decidable p] (h : p) (e : ε) (s : σ) :
    (require p e : Proc ε σ Unit).run s = .returned () s := by
  rw [require, if_pos h, pure_run]

theorem require_neg {p : Prop} [Decidable p] (h : ¬ p) (e : ε) (s : σ) :
    (require p e : Proc ε σ Unit).run s = .stopped e s := by
  rw [require, if_neg h, stop_run]

theorem bind_require_run (p : Prop) [Decidable p] (e : ε) (f : Unit → Proc ε σ β) (s : σ) :
    ((require p e : Proc ε σ Unit) >>= f).run s = if p then (f ()).run s else .stopped e s := by
  by_cases h : p
  · rw [if_pos h, bind_of_returned (require_pos h e s)]
  · rw [if_neg h, bind_of_stopped (require_neg h e s)]

@[simp] theorem bind_get_run (f : σ → Proc ε σ β) (s : σ) :
    ((get : Proc ε σ σ) >>= f).run s = (f s).run s := rfl

@[simp] theorem bind_modify_run (g : σ → σ) (f : PUnit → Proc ε σ β) (s : σ) :
    ((modify g : Proc ε σ PUnit) >>= f).run s = (f ⟨⟩).run (g s) := rfl

@[simp] theorem bind_pure_run (a : α) (f : α → Proc ε σ β) (s : σ) :
    ((pure a : Proc ε σ α) >>= f).run s = (f a).run s := rfl

@[simp] theorem bind_some_run (a : α) (e : ε) (f : α → Proc ε σ β) (s : σ) :
    ((orStop (some a) e : Proc ε σ α) >>= f).run s = (f a).run s := rfl

@[simp] theorem bind_none_run (e : ε) (f : α → Proc ε σ β) (s : σ) :
    ((orStop none e : Proc ε σ α) >>= f).run s = .stopped e s := rfl

end Ssuge.Procedure

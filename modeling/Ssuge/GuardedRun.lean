import Mathlib.Tactic.Common

/-! Runs of a partial step function and what holds along them. The rule
`along_iff` decides a property of every step of a run by a condition on the
state before each step: it is enough that the two agree in the states of an
invariant, and that the steps which meet the condition keep the invariant. -/

namespace Ssuge.GuardedRun

variable {σ α : Type} (step : σ → α → Option σ)

/-- `P` holds at every step of the run of `as` from a state; the run ends at a
step that does not return. -/
def Along (P : σ → α → Prop) : σ → List α → Prop
  | _, [] => True
  | s, a :: as => P s a ∧ ∀ s', step s a = some s' → Along P s' as

/-- The state that the run of `as` ends in. -/
def runSteps : σ → List α → Option σ
  | s, [] => some s
  | s, a :: as => (step s a).bind fun s' => runSteps s' as

/-- `G` holds in every state that the run of `as` reaches. -/
def Throughout (G : σ → Prop) (s : σ) (as : List α) : Prop :=
  ∀ bs, bs <+: as → ∀ s', runSteps step s bs = some s' → G s'

variable {step}

theorem runSteps_append (s : σ) (as bs : List α) :
    runSteps step s (as ++ bs) = (runSteps step s as).bind fun s' => runSteps step s' bs := by
  induction as generalizing s with
  | nil => rfl
  | cons a as ih =>
      simp only [List.cons_append, runSteps]
      cases step s a with
      | none => rfl
      | some s' => simpa using ih s'

theorem runSteps_snoc (s : σ) (as : List α) (a : α) :
    runSteps step s (as ++ [a]) = (runSteps step s as).bind fun s' => step s' a := by
  rw [runSteps_append]
  congr 1
  funext s'
  cases h : step s' a <;> simp [runSteps, h]

/-- What every step preserves holds at the end of every run. -/
theorem runSteps_induct {Inv : σ → Prop} (keep : ∀ s a s', Inv s → step s a = some s' → Inv s')
    {s t : σ} (inv : Inv s) {as : List α} (reached : runSteps step s as = some t) : Inv t := by
  induction as generalizing s with
  | nil => exact Option.some.inj reached ▸ inv
  | cons a as ih =>
      obtain ⟨s', first, rest⟩ := Option.bind_eq_some_iff.mp reached
      exact ih (keep s a s' inv first) rest

instance decidableAlong {P : σ → α → Prop} [∀ s a, Decidable (P s a)] :
    ∀ (s : σ) (as : List α), Decidable (Along step P s as)
  | _, [] => isTrue trivial
  | s, a :: as =>
      match h : step s a with
      | none => decidable_of_iff (P s a) (by simp [Along, h])
      | some s' =>
          have := decidableAlong (P := P) s' as
          decidable_of_iff (P s a ∧ Along step P s' as) (by simp [Along, h])

theorem Along.after {P : σ → α → Prop} {s t : σ} {as bs : List α}
    (all : Along step P s (as ++ bs)) (reached : runSteps step s as = some t) :
    Along step P t bs := by
  induction as generalizing s with
  | nil =>
      obtain rfl := Option.some.inj reached
      exact all
  | cons a as ih =>
      obtain ⟨s', first, rest⟩ := Option.bind_eq_some_iff.mp reached
      exact ih (all.2 s' first) rest

theorem Along.start {P : σ → α → Prop} {s : σ} {as bs : List α}
    (all : Along step P s (as ++ bs)) : Along step P s as := by
  induction as generalizing s with
  | nil => trivial
  | cons a as ih => exact ⟨all.1, fun s' returned => ih (all.2 s' returned)⟩

/-- What holds along a run is what holds of each step after the ones before it. -/
theorem along_iff_forall {P : σ → α → Prop} {s : σ} {as : List α} :
    Along step P s as ↔ ∀ before a, before ++ [a] <+: as →
      ∀ t, runSteps step s before = some t → P t a := by
  constructor
  · rintro all before a ⟨after, rfl⟩ t reached
    rw [List.append_assoc] at all
    exact (all.after reached).1
  · intro all
    induction as generalizing s with
    | nil => trivial
    | cons a as ih =>
        refine ⟨all [] a (by simp) s rfl, fun s' returned => ih ?_⟩
        intro before b shorter t reached
        refine all (a :: before) b (by simpa using shorter) t ?_
        rw [runSteps, returned]
        exact reached

theorem along_of_forall {L : α → Prop} {s : σ} {as : List α} (legal : ∀ a ∈ as, L a) :
    Along step (fun _ a => L a) s as := by
  refine along_iff_forall.mpr fun before a shorter _ _ => legal a (shorter.subset ?_)
  simp

/-- The rule for a property of steps. -/
theorem along_iff {I : σ → Prop} {L : α → Prop} {P Q : σ → α → Prop}
    (agree : ∀ s a, I s → L a → (P s a ↔ Q s a))
    (keep : ∀ s a s', I s → L a → Q s a → step s a = some s' → I s')
    {s : σ} (inv : I s) {as : List α} (legal : ∀ a ∈ as, L a) :
    Along step P s as ↔ Along step Q s as := by
  induction as generalizing s with
  | nil => simp [Along]
  | cons a as ih =>
      have first := legal a (by simp)
      have rest : ∀ b ∈ as, L b := fun b hb => legal b (by simp [hb])
      simp only [Along, agree s a inv first]
      constructor <;> rintro ⟨guard, next⟩ <;> refine ⟨guard, fun s' returned => ?_⟩
      · exact (ih (keep s a s' inv first guard returned) rest).mp (next s' returned)
      · exact (ih (keep s a s' inv first guard returned) rest).mpr (next s' returned)

theorem throughout_nil {G : σ → Prop} {s : σ} : Throughout step G s [] ↔ G s := by
  constructor
  · exact fun all => all [] (List.prefix_refl _) s rfl
  · rintro good bs shorter s' reached
    obtain rfl := List.prefix_nil.mp shorter
    obtain rfl := Option.some.inj reached
    exact good

theorem throughout_cons {G : σ → Prop} {s : σ} {a : α} {as : List α} :
    Throughout step G s (a :: as) ↔
      G s ∧ ∀ s', step s a = some s' → Throughout step G s' as := by
  constructor
  · intro all
    refine ⟨all [] (by simp) s rfl, fun s' returned bs shorter t reached => ?_⟩
    exact all (a :: bs) (by simpa using shorter) t (by simp [runSteps, returned, reached])
  · rintro ⟨good, next⟩ bs shorter t reached
    rcases bs with _ | ⟨b, bs⟩
    · obtain rfl := Option.some.inj reached
      exact good
    · obtain ⟨rfl, tail⟩ : b = a ∧ bs <+: as := by simpa using shorter
      obtain ⟨s', returned, reached'⟩ := Option.bind_eq_some_iff.mp reached
      exact next s' returned bs tail t reached'

/-- The rule for a condition that is enough: the steps that meet it keep the invariant. -/
theorem along_throughout {I : σ → Prop} {L : α → Prop} {P Q : σ → α → Prop}
    (meets : ∀ s a, I s → L a → Q s a → P s a)
    (keep : ∀ s a s', I s → L a → Q s a → step s a = some s' → I s')
    {s : σ} (inv : I s) {as : List α} (legal : ∀ a ∈ as, L a) (all : Along step Q s as) :
    Along step P s as ∧ Throughout step I s as := by
  induction as generalizing s with
  | nil => exact ⟨trivial, throughout_nil.mpr inv⟩
  | cons a as ih =>
      obtain ⟨guard, next⟩ := all
      have first := legal a (by simp)
      have rest : ∀ b ∈ as, L b := fun b hb => legal b (by simp [hb])
      have onward := fun s' returned =>
        ih (keep s a s' inv first guard returned) rest (next s' returned)
      refine ⟨⟨meets s a inv first guard, fun s' returned => (onward s' returned).1⟩, ?_⟩
      exact throughout_cons.mpr ⟨inv, fun s' returned => (onward s' returned).2⟩

theorem Along.throughout {I : σ → Prop} {Q : σ → α → Prop} {s : σ} {as : List α}
    (all : Along step Q s as) (keep : ∀ s a s', I s → Q s a → step s a = some s' → I s')
    (inv : I s) : Throughout step I s as :=
  (along_throughout (L := fun _ => True) (fun _ _ _ _ => id)
    (fun s a s' inv _ => keep s a s' inv) inv (fun _ _ => trivial) all).2

/-- The rule for a property of states: in states of the invariant that satisfy
`G`, a step leads to a state of `G` exactly when it meets the condition `Q`. -/
theorem throughout_iff {I G : σ → Prop} {L : α → Prop} {Q : σ → α → Prop}
    (agree : ∀ s a, I s → G s → L a →
      ((∀ s', step s a = some s' → G s') ↔ Q s a))
    (keep : ∀ s a s', I s → G s → L a → Q s a → step s a = some s' → I s')
    {s : σ} (inv : I s) (good : G s) {as : List α} (legal : ∀ a ∈ as, L a) :
    Throughout step G s as ↔ Along step Q s as := by
  induction as generalizing s with
  | nil => simpa [throughout_nil, Along] using good
  | cons a as ih =>
      have first := legal a (by simp)
      have rest : ∀ b ∈ as, L b := fun b hb => legal b (by simp [hb])
      have start : ∀ {t}, Throughout step G t as → G t :=
        fun all => all [] (by simp) _ rfl
      rw [throughout_cons, Along]
      constructor
      · rintro ⟨-, next⟩
        have guard := (agree s a inv good first).mp fun s' returned => start (next s' returned)
        refine ⟨guard, fun s' returned => ?_⟩
        have inv' := keep s a s' inv good first guard returned
        exact (ih inv' (start (next s' returned)) rest).mp (next s' returned)
      · rintro ⟨guard, next⟩
        refine ⟨good, fun s' returned => ?_⟩
        have inv' := keep s a s' inv good first guard returned
        have good' := (agree s a inv good first).mpr guard s' returned
        exact (ih inv' good' rest).mpr (next s' returned)

end Ssuge.GuardedRun

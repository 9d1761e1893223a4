import Mathlib.Data.List.Induction
import Ssuge.GuardedRun

/-! What has happened in a run and has not been undone since. A flag of the state that some
steps set and some clear tells in every state of a run whether the last step that did either
has set it, so that a condition on the flag is one on the history alone. -/

namespace Ssuge.Histories

open GuardedRun

variable {σ α : Type} {step : σ → α → Option σ}

/-- Some step of the history sets, after what came before it, and no later one clears. -/
def Since (sets : List α → α → Prop) (clears : α → Prop) (history : List α) : Prop :=
  ∃ before a after, history = before ++ a :: after ∧ sets before a ∧ ∀ b ∈ after, ¬ clears b

variable {sets : List α → α → Prop} {clears : α → Prop} {history : List α}

theorem since_nil : ¬ Since sets clears [] := by
  rintro ⟨before, a, after, split, -⟩
  simp at split

theorem since_snoc {a : α} : Since sets clears (history ++ [a]) ↔
    sets history a ∨ Since sets clears history ∧ ¬ clears a := by
  constructor
  · rintro ⟨before, b, after, split, set, kept⟩
    induction after using List.reverseRecOn with
    | nil =>
        obtain ⟨rfl, last⟩ := List.append_inj' split rfl
        obtain rfl := List.singleton_inj.mp last
        exact .inl set
    | append_singleton after last _ =>
        rw [← List.cons_append, ← List.append_assoc] at split
        obtain ⟨rfl, same⟩ := List.append_inj' split rfl
        obtain rfl := List.singleton_inj.mp same
        refine .inr ⟨⟨before, b, after, rfl, set, fun c member => ?_⟩, ?_⟩
        · exact kept c (List.mem_append_left _ member)
        · exact kept a (List.mem_append_right _ (List.mem_singleton_self a))
  · rintro (set | ⟨⟨before, b, after, rfl, set, kept⟩, uncleared⟩)
    · exact ⟨history, a, [], rfl, set, by simp⟩
    · refine ⟨before, b, after ++ [a], by simp, set, fun c member => ?_⟩
      rcases List.mem_append.mp member with old | new
      · exact kept c old
      · exact List.mem_singleton.mp new ▸ uncleared

/-- What a history tells about the state, if every step keeps it up. -/
theorem told {I : List α → σ → Prop} {start s : σ} (first : I [] start)
    (keep : ∀ before s a s', I before s → step s a = some s' → I (before ++ [a]) s')
    (reached : runSteps step start history = some s) : I history s := by
  induction history using List.reverseRecOn generalizing s with
  | nil => exact Option.some.inj reached ▸ first
  | append_singleton history a ih =>
      rw [runSteps_snoc] at reached
      obtain ⟨s₁, before, last⟩ := Option.bind_eq_some_iff.mp reached
      exact keep history s₁ a s (ih before) last

theorem forall_prefix_snoc {Q : List α → α → Prop} {a : α} :
    (∀ before b, before ++ [b] <+: history ++ [a] → Q before b) ↔
      (∀ before b, before ++ [b] <+: history → Q before b) ∧ Q history a := by
  constructor
  · intro each
    exact ⟨fun before b shorter => each before b (shorter.trans (List.prefix_append _ _)),
      each history a (List.prefix_refl _)⟩
  · rintro ⟨each, last⟩ before b shorter
    rcases List.prefix_concat_iff.mp shorter with whole | earlier
    · obtain ⟨rfl, same⟩ := List.append_inj' whole rfl
      obtain rfl := List.singleton_inj.mp same
      exact last
    · exact each before b earlier

/-- The rule for runs that go through: where the history tells of every step whether it can be
made, it is a condition on the histories alone. -/
theorem runs_through_iff {I : List α → σ → Prop} {Q : List α → α → Prop} {start : σ}
    (first : I [] start) (agree : ∀ before s a, I before s → ((step s a).isSome ↔ Q before a))
    (keep : ∀ before s a s', I before s → step s a = some s' → I (before ++ [a]) s') :
    (runSteps step start history).isSome ↔ ∀ before a, before ++ [a] <+: history → Q before a := by
  induction history using List.reverseRecOn with
  | nil => simp [runSteps]
  | append_singleton history a ih =>
      rw [forall_prefix_snoc, ← ih, runSteps_snoc]
      cases reached : runSteps step start history with
      | none => simp
      | some s => exact (agree history s a (told first keep reached)).trans (by simp)

theorem throughout_snoc {G : σ → Prop} {start : σ} {a : α} :
    Throughout step G start (history ++ [a]) ↔ Throughout step G start history ∧
      ∀ s, runSteps step start (history ++ [a]) = some s → G s := by
  constructor
  · intro all
    exact ⟨fun as shorter => all as (shorter.trans (List.prefix_append _ _)),
      all _ (List.prefix_refl _)⟩
  · rintro ⟨all, last⟩ as shorter
    rcases List.prefix_concat_iff.mp shorter with rfl | earlier
    · exact last
    · exact all as earlier

end Ssuge.Histories

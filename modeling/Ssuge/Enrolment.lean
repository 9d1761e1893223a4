import Mathlib.Data.List.Basic
import Mathlib.Logic.Function.Basic
import Mathlib.Tactic.Common

/-! A set that is kept in the order in which its members joined. The book notes for
every member the time at which it joined; time passes with every call. A list
represents the book when it holds the members, one that joined earlier before one
that joined later. -/

namespace Ssuge.Enrolment

structure Book (α : Type) where
  clock : Nat
  since : α → Option Nat
  past : ∀ a t, since a = some t → t < clock

variable {α : Type}

namespace Book

def empty : Book α := ⟨0, fun _ => none, by simp⟩

def Member (b : Book α) (a : α) : Prop := (b.since a).isSome

def Before (b : Book α) (x y : α) : Prop :=
  ∃ s t, b.since x = some s ∧ b.since y = some t ∧ s < t

variable [DecidableEq α]

/-- Who is a member already keeps the earlier time. -/
def join (b : Book α) (a : α) : Book α where
  clock := b.clock + 1
  since := if (b.since a).isSome then b.since else Function.update b.since a (some b.clock)
  past x t h := by
    split at h
    · exact Nat.lt_succ_of_lt (b.past x t h)
    · rw [Function.update_apply] at h
      split at h
      · obtain rfl := Option.some.inj h
        exact Nat.lt_succ_self _
      · exact Nat.lt_succ_of_lt (b.past x t h)

def leave (b : Book α) (a : α) : Book α where
  clock := b.clock + 1
  since := Function.update b.since a none
  past x t h := by
    rw [Function.update_apply] at h
    split at h
    · simp at h
    · exact Nat.lt_succ_of_lt (b.past x t h)

end Book

structure Lists (b : Book α) (l : List α) : Prop where
  members : ∀ a, a ∈ l ↔ b.Member a
  ordered : l.Pairwise b.Before

namespace Lists

variable {b : Book α} {l : List α}

theorem empty : Lists (Book.empty : Book α) [] where
  members a := by simp [Book.Member, Book.empty]
  ordered := List.Pairwise.nil

theorem nodup (h : Lists b l) : l.Nodup := by
  refine h.ordered.imp ?_
  rintro x y ⟨s, t, first, second, earlier⟩ rfl
  have same := Option.some.inj (first.symm.trans second)
  omega

variable [DecidableEq α]

theorem join_mem (h : Lists b l) {a : α} (member : a ∈ l) : Lists (b.join a) l := by
  have known : (b.since a).isSome := (h.members a).mp member
  have since : (b.join a).since = b.since := if_pos known
  refine ⟨fun x => ?_, ?_⟩
  · rw [Book.Member, since]
    exact h.members x
  · refine h.ordered.imp ?_
    rintro x y ⟨s, t, first, second, earlier⟩
    exact ⟨s, t, by rw [since, first], by rw [since, second], earlier⟩

theorem join_append (h : Lists b l) {a : α} (absent : a ∉ l) : Lists (b.join a) (l ++ [a]) := by
  have unknown : ¬ (b.since a).isSome := fun known => absent ((h.members a).mpr known)
  have since : (b.join a).since = Function.update b.since a (some b.clock) := if_neg unknown
  have others : ∀ x ∈ l, (b.join a).since x = b.since x := by
    intro x member
    rw [since, Function.update_of_ne]
    rintro rfl
    exact absent member
  refine ⟨fun x => ?_, ?_⟩
  · rw [Book.Member, since, List.mem_append, List.mem_singleton, Function.update_apply]
    split
    · simp [*]
    · simp only [*, or_false]
      exact h.members x
  · refine List.pairwise_append.mpr ⟨?_, List.pairwise_singleton _ _, ?_⟩
    · refine h.ordered.imp_of_mem ?_
      rintro x y hx hy ⟨s, t, first, second, earlier⟩
      exact ⟨s, t, by rw [others x hx, first], by rw [others y hy, second], earlier⟩
    · intro x hx y hy
      obtain rfl := List.mem_singleton.mp hy
      obtain ⟨s, joined⟩ := Option.isSome_iff_exists.mp ((h.members x).mp hx)
      refine ⟨s, b.clock, by rw [others x hx, joined], ?_, b.past x s joined⟩
      rw [since, Function.update_self]

theorem leave_erase (h : Lists b l) (a : α) : Lists (b.leave a) (l.erase a) := by
  have since : ∀ x, x ≠ a → (b.leave a).since x = b.since x := fun x other =>
    Function.update_of_ne other _ _
  refine ⟨fun x => ?_, ?_⟩
  · rw [h.nodup.mem_erase_iff, h.members x, Book.Member, Book.Member]
    by_cases same : x = a
    · subst same
      simp [Book.leave]
    · simp [since x same, same]
  · refine (h.ordered.sublist List.erase_sublist).imp_of_mem ?_
    rintro x y hx hy ⟨s, t, first, second, earlier⟩
    have left := (h.nodup.mem_erase_iff.mp hx).1
    have right := (h.nodup.mem_erase_iff.mp hy).1
    exact ⟨s, t, by rw [since x left, first], by rw [since y right, second], earlier⟩

end Lists

end Ssuge.Enrolment

import Mathlib.Data.List.Basic
import Mathlib.Logic.Function.Basic
import Mathlib.Tactic.Common

/-! Objects of one class, allocated and deleted one by one, and owners that each hold at
most one of them by a pointer. An object keeps its number for ever, and every deletion
is counted. The pool is accounted for when every object allocated so far is either
held by an owner or was deleted, exactly once. -/

namespace Ssuge.OwnedPool

structure Pool (α : Type) where
  cells : List (Option α)
  deleted : List Nat

variable {α ω : Type}

namespace Pool

def empty : Pool α := ⟨[], []⟩

def next (pool : Pool α) : Nat := pool.cells.length

def new (pool : Pool α) (a : α) : Pool α := { pool with cells := pool.cells ++ [some a] }

def get? (pool : Pool α) (i : Nat) : Option α := pool.cells[i]?.join

def delete (pool : Pool α) (i : Nat) : Pool α :=
  { cells := pool.cells.set i none, deleted := i :: pool.deleted }

def set (pool : Pool α) (i : Nat) (a : α) : Pool α :=
  { pool with cells := pool.cells.set i (some a) }

/-- `if (pointer) delete pointer;` -/
def deleteHeld (pool : Pool α) : Option Nat → Pool α
  | some i => pool.delete i
  | none => pool

theorem get?_new (pool : Pool α) (a : α) (i : Nat) :
    (pool.new a).get? i = if i = pool.next then some a else pool.get? i := by
  rw [get?, new, next]
  by_cases inside : i < pool.cells.length
  · rw [List.getElem?_append_left inside, if_neg (Nat.ne_of_lt inside), get?]
  · by_cases last : i = pool.cells.length
    · simp [last]
    · rw [if_neg last, get?, List.getElem?_append_right (Nat.le_of_not_lt inside),
        List.getElem?_eq_none (Nat.le_of_not_lt inside), List.getElem?_eq_none (by simp; omega)]

theorem get?_delete (pool : Pool α) (i j : Nat) :
    (pool.delete i).get? j = if j = i then none else pool.get? j := by
  rw [get?, delete, List.getElem?_set]
  by_cases same : i = j
  · subst same
    by_cases inside : i < pool.cells.length <;> simp [inside]
  · simp [same, Ne.symm same, get?]

theorem get?_set {pool : Pool α} {i : Nat} (live : (pool.get? i).isSome) (a : α) (j : Nat) :
    (pool.set i a).get? j = if j = i then some a else pool.get? j := by
  rw [get?, set, List.getElem?_set]
  by_cases same : i = j
  · subst same
    by_cases inside : i < pool.cells.length
    · simp [inside]
    · rw [get?, List.getElem?_eq_none (Nat.le_of_not_lt inside)] at live
      simp at live
  · simp [same, Ne.symm same, get?]

theorem set_new (pool : Pool α) (a b : α) : (pool.new a).set pool.next b = pool.new b := by
  simp [set, new, next]

theorem set_set (pool : Pool α) (i : Nat) (a b : α) : (pool.set i a).set i b = pool.set i b := by
  simp [set]

theorem set_self {pool : Pool α} {i : Nat} {a : α} (read : pool.get? i = some a) :
    pool.set i a = pool := by
  obtain ⟨inside, cell⟩ := List.getElem?_eq_some_iff.mp (Option.join_eq_some_iff.mp read)
  rw [set, ← cell, List.set_getElem_self]

theorem lt_of_live {pool : Pool α} {i : Nat} (live : (pool.get? i).isSome) : i < pool.next := by
  by_contra outside
  rw [get?, List.getElem?_eq_none (Nat.le_of_not_lt outside)] at live
  simp at live

end Pool

def Held (holds : ω → Option Nat) (i : Nat) : Prop := ∃ owner, holds owner = some i

def Accounted (pool : Pool α) (holds : ω → Option Nat) : Prop :=
  ∀ i < pool.next, Held holds i ∧ pool.deleted.count i = 0 ∨
    ¬ Held holds i ∧ pool.deleted.count i = 1

/-- What owners hold is alive and theirs alone, and an object is not alive after one
deletion. -/
structure Owned (pool : Pool α) (holds : ω → Option Nat) : Prop where
  distinct : ∀ p q i, holds p = some i → holds q = some i → p = q
  live : ∀ p i, holds p = some i → (pool.get? i).isSome
  spared : ∀ i, (pool.get? i).isSome → pool.deleted.count i = 0
  made : ∀ i ∈ pool.deleted, i < pool.next

theorem owned_empty : Owned (Pool.empty : Pool α) fun _ : ω => none where
  distinct _ _ _ held := by simp at held
  live _ _ held := by simp at held
  spared _ _ := rfl
  made _ member := by simp [Pool.empty] at member

theorem accounted_empty : Accounted (Pool.empty : Pool α) fun _ : ω => none := by
  intro i inside
  simp [Pool.next, Pool.empty] at inside

variable {pool : Pool α} {holds : ω → Option Nat} {owner : ω}

theorem Owned.discard (h : Owned pool holds) {i : Nat} (live : (pool.get? i).isSome)
    (unheld : ∀ p, holds p ≠ some i) : Owned (pool.delete i) holds where
  distinct := h.distinct
  live p j held := by
    have apart : j ≠ i := fun same => unheld p (same ▸ held)
    rw [Pool.get?_delete, if_neg apart]
    exact h.live p j held
  spared j alive := by
    rw [Pool.get?_delete] at alive
    by_cases same : j = i
    · simp [same] at alive
    · rw [if_neg same] at alive
      rw [Pool.delete, List.count_cons_of_ne (Ne.symm same)]
      exact h.spared j alive
  made j member := by
    have inside : j < pool.next := by
      rcases List.mem_cons.mp member with rfl | old
      · exact Pool.lt_of_live live
      · exact h.made j old
    simpa [Pool.next, Pool.delete] using inside

theorem Owned.set (h : Owned pool holds) {i : Nat} (live : (pool.get? i).isSome) (a : α) :
    Owned (pool.set i a) holds where
  distinct := h.distinct
  live p j held := by
    rw [Pool.get?_set live]
    split
    · rfl
    · exact h.live p j held
  spared j alive := by
    rw [Pool.get?_set live] at alive
    by_cases same : j = i
    · exact same ▸ h.spared i live
    · rw [if_neg same] at alive
      exact h.spared j alive
  made j member := by
    have inside := h.made j member
    simpa [Pool.next, Pool.set] using inside

variable [DecidableEq ω]

theorem update_none (empty : holds owner = none) : Function.update holds owner none = holds := by
  rw [← empty, Function.update_eq_self]

theorem held_update {value : Option Nat} {i : Nat} : Held (Function.update holds owner value) i ↔
    value = some i ∨ ∃ other ≠ owner, holds other = some i := by
  constructor
  · rintro ⟨p, held⟩
    by_cases same : p = owner
    · subst same
      exact .inl (by simpa using held)
    · exact .inr ⟨p, same, by simpa [same] using held⟩
  · rintro (rfl | ⟨p, other, held⟩)
    · exact ⟨owner, Function.update_self ..⟩
    · exact ⟨p, by rw [Function.update_of_ne other, held]⟩

theorem Owned.assign (h : Owned pool holds) (a : α) :
    Owned (pool.new a) (Function.update holds owner (some pool.next)) := by
  have older : ∀ p i, p ≠ owner → holds p = some i → i ≠ pool.next := fun p i _ held =>
    Nat.ne_of_lt (Pool.lt_of_live (h.live p i held))
  refine ⟨fun p q i first second => ?_, fun p i held => ?_, fun i live => ?_, fun i member => ?_⟩
  · by_cases firstOwner : p = owner <;> by_cases secondOwner : q = owner
    · rw [firstOwner, secondOwner]
    · simp only [firstOwner, Function.update_self, Option.some.injEq] at first
      rw [Function.update_of_ne secondOwner] at second
      exact absurd first.symm (older q i secondOwner second)
    · simp only [secondOwner, Function.update_self, Option.some.injEq] at second
      rw [Function.update_of_ne firstOwner] at first
      exact absurd second.symm (older p i firstOwner first)
    · rw [Function.update_of_ne firstOwner] at first
      rw [Function.update_of_ne secondOwner] at second
      exact h.distinct p q i first second
  · rw [Pool.get?_new]
    split
    · rfl
    next old =>
      by_cases same : p = owner
      · simp only [same, Function.update_self, Option.some.injEq] at held
        exact absurd held.symm old
      · rw [Function.update_of_ne same] at held
        exact h.live p i held
  · rw [Pool.get?_new] at live
    by_cases last : i = pool.next
    · refine List.count_eq_zero.mpr fun member => ?_
      exact Nat.lt_irrefl _ (last ▸ h.made i member)
    · rw [if_neg last] at live
      exact h.spared i live
  · have inside := h.made i member
    simp only [Pool.next, Pool.new, List.length_append, List.length_singleton] at inside ⊢
    omega

/-- The pool stays accounted for exactly when the owner held nothing. -/
theorem Owned.accounted_assign_iff (h : Owned pool holds) (accounted : Accounted pool holds)
    (a : α) : Accounted (pool.new a) (Function.update holds owner (some pool.next)) ↔
      holds owner = none := by
  have size : (pool.new a).next = pool.next + 1 := by simp [Pool.next, Pool.new]
  constructor
  · intro after
    cases lost : holds owner with
    | none => rfl
    | some i =>
        -- nobody holds the old object now, and it was not deleted
        have live := h.live owner i lost
        have inside := Pool.lt_of_live live
        have unheld : ¬ Held (Function.update holds owner (some pool.next)) i := by
          rw [held_update]
          rintro (same | ⟨other, apart, held⟩)
          · exact absurd (Option.some.inj same) (Nat.ne_of_gt inside)
          · exact apart (h.distinct other owner i held lost)
        rcases after i (by omega) with ⟨held, -⟩ | ⟨-, once⟩
        · exact absurd held unheld
        · change pool.deleted.count i = 1 at once
          rw [h.spared i live] at once
          simp at once
  · intro empty i inside
    rw [size] at inside
    by_cases last : i = pool.next
    · refine .inl ⟨⟨owner, by rw [Function.update_self, last]⟩, ?_⟩
      refine List.count_eq_zero.mpr fun member => ?_
      exact Nat.lt_irrefl _ (last ▸ h.made i member)
    · have same : Held (Function.update holds owner (some pool.next)) i ↔ Held holds i := by
        rw [held_update]
        constructor
        · rintro (equal | ⟨other, -, held⟩)
          · exact absurd (Option.some.inj equal).symm last
          · exact ⟨other, held⟩
        · rintro ⟨other, held⟩
          refine .inr ⟨other, ?_, held⟩
          rintro rfl
          simp [empty] at held
      rw [same]
      exact accounted i (by omega)

theorem Owned.accounted_of_assign (h : Owned pool holds) {a : α}
    (after : Accounted (pool.new a) (Function.update holds owner (some pool.next))) :
    Accounted pool holds := by
  intro i inside
  have size : (pool.new a).next = pool.next + 1 := by simp [Pool.next, Pool.new]
  rcases after i (by omega) with ⟨held, spared⟩ | ⟨unheld, once⟩
  · rcases held_update.mp held with same | ⟨other, -, holding⟩
    · exact absurd (Option.some.inj same) (Nat.ne_of_gt inside)
    · exact .inl ⟨⟨other, holding⟩, spared⟩
  · refine .inr ⟨fun ⟨other, holding⟩ => ?_, once⟩
    have spared := h.spared i (h.live other i holding)
    exact absurd (once.symm.trans spared) Nat.one_ne_zero

theorem Owned.lose (h : Owned pool holds) : Owned pool (Function.update holds owner none) := by
  have others : ∀ p i, Function.update holds owner none p = some i → holds p = some i := by
    intro p i holding
    by_cases same : p = owner
    · simp [same] at holding
    · simpa [same] using holding
  exact ⟨fun p q i first second => h.distinct p q i (others p i first) (others q i second),
    fun p i holding => h.live p i (others p i holding), h.spared, h.made⟩

theorem Owned.accounted_lose_iff (h : Owned pool holds) :
    Accounted pool (Function.update holds owner none) ↔
      Accounted pool holds ∧ holds owner = none := by
  constructor
  · intro after
    have lost : holds owner = none := by
      by_contra some_held
      obtain ⟨i, held⟩ := Option.ne_none_iff_exists'.mp some_held
      have live := h.live owner i held
      rcases after i (Pool.lt_of_live live) with ⟨holding, -⟩ | ⟨-, once⟩
      · rcases held_update.mp holding with none | ⟨other, apart, holding⟩
        · exact nomatch none
        · exact apart (h.distinct other owner i holding held)
      · exact absurd (once.symm.trans (h.spared i live)) Nat.one_ne_zero
    rw [update_none lost] at after
    exact ⟨after, lost⟩
  · rintro ⟨accounted, empty⟩
    rw [update_none empty]
    exact accounted

theorem Owned.release (h : Owned pool holds) {i : Nat} (held : holds owner = some i) :
    Owned (pool.delete i) (Function.update holds owner none) := by
  have live := h.live owner i held
  have others : ∀ p j, Function.update holds owner none p = some j → p ≠ owner ∧
      holds p = some j := by
    intro p j holding
    by_cases same : p = owner
    · simp [same] at holding
    · exact ⟨same, by simpa [same] using holding⟩
  refine ⟨fun p q j first second => ?_, fun p j holding => ?_, fun j alive => ?_,
    fun j member => ?_⟩
  · exact h.distinct p q j (others p j first).2 (others q j second).2
  · obtain ⟨other, holding⟩ := others p j holding
    have apart : j ≠ i := by
      rintro rfl
      exact other (h.distinct p owner j holding held)
    rw [Pool.get?_delete, if_neg apart]
    exact h.live p j holding
  · rw [Pool.get?_delete] at alive
    split at alive
    · simp at alive
    next apart =>
      rw [Pool.delete, List.count_cons_of_ne (Ne.symm apart)]
      exact h.spared j alive
  · have inside : j < pool.next := by
      rcases List.mem_cons.mp member with rfl | old
      · exact Pool.lt_of_live live
      · exact h.made j old
    simpa [Pool.next, Pool.delete] using inside

theorem Owned.accounted_release (h : Owned pool holds) (accounted : Accounted pool holds) {i : Nat}
    (held : holds owner = some i) :
    Accounted (pool.delete i) (Function.update holds owner none) := by
  intro j inside
  have inside' : j < pool.next := by simpa [Pool.next, Pool.delete] using inside
  have still : Held (Function.update holds owner none) j ↔ j ≠ i ∧ Held holds j := by
    rw [held_update]
    constructor
    · rintro (none | ⟨other, apart, holding⟩)
      · simp at none
      · refine ⟨?_, other, holding⟩
        rintro rfl
        exact apart (h.distinct other owner j holding held)
    · rintro ⟨apart, other, holding⟩
      refine .inr ⟨other, ?_, holding⟩
      rintro rfl
      exact apart (Option.some.inj (holding.symm.trans held))
  rw [still, Pool.delete]
  by_cases same : j = i
  · subst same
    refine .inr ⟨fun h => h.1 rfl, ?_⟩
    rw [List.count_cons_self, h.spared j (h.live owner j held)]
  · rw [List.count_cons_of_ne (Ne.symm same)]
    simpa [same] using accounted j inside'

theorem Owned.deleteHeld (h : Owned pool holds) :
    Owned (pool.deleteHeld (holds owner)) (Function.update holds owner none) := by
  cases held : holds owner with
  | none =>
      rw [update_none held]
      exact h
  | some i => exact h.release held

theorem Owned.accounted_deleteHeld (h : Owned pool holds) (accounted : Accounted pool holds) :
    Accounted (pool.deleteHeld (holds owner)) (Function.update holds owner none) := by
  cases held : holds owner with
  | none =>
      rw [update_none held]
      exact accounted
  | some i => exact h.accounted_release accounted held

end Ssuge.OwnedPool

import Mathlib.Data.List.Basic
import Mathlib.Tactic.Common

/-! Runs of imperative code over fixed-size arrays. A run yields a value unless
one of its loops never ends, and it records every index it applies to an array
together with the size of that array. Array cells are `Option`s: `none` is a
cell that was allocated and not yet written, whose value is indeterminate.
An access out of bounds is recorded and then harmless: a read there is
indeterminate, a write there is lost. -/

namespace Ssuge.RecordedRun

structure Access where
  index : Nat
  size : Nat
deriving DecidableEq, Repr

structure Run (α : Type) where
  value : Option α
  accesses : List Access

variable {α β : Type}

def Run.pure (x : α) : Run α := ⟨some x, []⟩

def Run.bind (r : Run α) (f : α → Run β) : Run β :=
  match r.value with
  | none => ⟨none, r.accesses⟩
  | some x => ⟨(f x).value, r.accesses ++ (f x).accesses⟩

instance : Monad Run where
  pure := Run.pure
  bind := Run.bind

/-- A computation that records no access and may fail to return. -/
def ofOption (x : Option α) : Run α := ⟨x, []⟩

def load (xs : List (Option α)) (i : Nat) : Run (Option α) :=
  ⟨some xs[i]?.join, [⟨i, xs.length⟩]⟩

def store (xs : List (Option α)) (i : Nat) (v : Option α) : Run (List (Option α)) :=
  ⟨some (xs.set i v), [⟨i, xs.length⟩]⟩

def Run.InBounds (r : Run α) : Prop := ∀ a ∈ r.accesses, a.index < a.size

instance (r : Run α) : Decidable r.InBounds := by
  unfold Run.InBounds
  infer_instance

@[simp] theorem pure_value (x : α) : (pure x : Run α).value = some x := rfl

@[simp] theorem pure_inBounds (x : α) : (pure x : Run α).InBounds := by
  simp [Run.InBounds, pure, Run.pure]

@[simp] theorem ofOption_inBounds (x : Option α) : (ofOption x).InBounds := by
  simp [Run.InBounds, ofOption]

@[simp] theorem load_value (xs : List (Option α)) (i : Nat) :
    (load xs i).value = some xs[i]?.join := rfl

@[simp] theorem load_inBounds (xs : List (Option α)) (i : Nat) :
    (load xs i).InBounds ↔ i < xs.length := by
  simp [Run.InBounds, load]

@[simp] theorem store_value (xs : List (Option α)) (i : Nat) (v : Option α) :
    (store xs i v).value = some (xs.set i v) := rfl

@[simp] theorem store_inBounds (xs : List (Option α)) (i : Nat) (v : Option α) :
    (store xs i v).InBounds ↔ i < xs.length := by
  simp [Run.InBounds, store]

theorem bind_value (r : Run α) (f : α → Run β) :
    (r >>= f).value = r.value.bind fun x => (f x).value := by
  change (Run.bind r f).value = _
  unfold Run.bind
  cases r.value <;> rfl

theorem bind_value_of {r : Run α} {x : α} (h : r.value = some x) (f : α → Run β) :
    (r >>= f).value = (f x).value := by
  rw [bind_value, h, Option.bind_some]

theorem bind_inBounds_of {r : Run α} {x : α} (h : r.value = some x) (f : α → Run β) :
    (r >>= f).InBounds ↔ r.InBounds ∧ (f x).InBounds := by
  have shape : r >>= f = ⟨(f x).value, r.accesses ++ (f x).accesses⟩ := by
    change Run.bind r f = _
    simp only [Run.bind, h]
  rw [shape]
  simp only [Run.InBounds, List.mem_append]
  constructor
  · intro all
    exact ⟨fun a ha => all a (.inl ha), fun a ha => all a (.inr ha)⟩
  · rintro ⟨first, second⟩ a (ha | ha)
    · exact first a ha
    · exact second a ha

theorem bind_accesses_of {r : Run α} {x : α} (h : r.value = some x) (f : α → Run β) :
    (r >>= f).accesses = r.accesses ++ (f x).accesses := by
  change (Run.bind r f).accesses = _
  simp only [Run.bind, h]

/-- `for (i = 0; i < n; i++) to[i] = from[i];` -/
def copyLoop (source : List (Option α)) : Nat → List (Option α) → Run (List (Option α))
  | 0, target => pure target
  | n + 1, target => do
      let copied ← copyLoop source n target
      let cell ← load source n
      store copied n cell

/-- The first `n` cells of an array, indeterminate past its end. -/
def prefixCells (source : List (Option α)) (n : Nat) : List (Option α) :=
  (List.range n).map fun i => source[i]?.join

@[simp] theorem prefixCells_length (source : List (Option α)) (n : Nat) :
    (prefixCells source n).length = n := by simp [prefixCells]

theorem prefixCells_succ (source : List (Option α)) (n : Nat) :
    prefixCells source (n + 1) = prefixCells source n ++ [source[n]?.join] := by
  simp [prefixCells, List.range_succ]

theorem copyLoop_value (source : List (Option α)) (n : Nat) (target : List (Option α))
    (h : n ≤ target.length) :
    (copyLoop source n target).value = some (prefixCells source n ++ target.drop n) := by
  induction n with
  | zero => simp [copyLoop, prefixCells]
  | succ n ih =>
      rw [copyLoop, bind_value_of (ih (by omega)), bind_value_of (load_value _ _), store_value,
        prefixCells_succ, List.append_assoc]
      congr 1
      rw [List.set_append_right _ _ (by simp), prefixCells_length, Nat.sub_self,
        List.drop_eq_getElem_cons (by omega), List.set_cons_zero]
      rfl

theorem copyLoop_inBounds (source : List (Option α)) (n : Nat) (target : List (Option α))
    (h : n ≤ target.length) :
    (copyLoop source n target).InBounds ↔ n ≤ source.length := by
  induction n with
  | zero => simp [copyLoop]
  | succ n ih =>
      have returned := copyLoop_value source n target (by omega)
      rw [copyLoop, bind_inBounds_of returned, ih (by omega),
        bind_inBounds_of (load_value _ _), load_inBounds, store_inBounds]
      simp only [List.length_append, prefixCells_length, List.length_drop]
      omega

theorem copyLoop_accesses (source : List (Option α)) (n : Nat) (target : List (Option α))
    (h : n ≤ target.length) : (copyLoop source n target).accesses.length = 2 * n := by
  induction n with
  | zero => rfl
  | succ n ih =>
      have returned := copyLoop_value source n target (by omega)
      rw [copyLoop, bind_accesses_of returned, bind_accesses_of (load_value _ _),
        List.length_append, ih (by omega)]
      simp only [load, store, List.length_append, List.length_singleton]
      omega

theorem prefixCells_of_le (source : List (Option α)) (n : Nat) (h : n ≤ source.length) :
    prefixCells source n = source.take n := by
  apply List.ext_getElem (by simp [h])
  intro i hi _
  have bound : i < n := by simpa using hi
  have inside : i < source.length := by omega
  simp [prefixCells, inside]

theorem prefixCells_append (before after : List (Option α)) (n : Nat) :
    prefixCells (before ++ after) (before.length + n) = before ++ prefixCells after n := by
  induction n with
  | zero =>
      rw [prefixCells_of_le _ _ (by simp)]
      simp [prefixCells]
  | succ n ih =>
      rw [← Nat.add_assoc, prefixCells_succ, ih, List.getElem?_append_right (by omega),
        Nat.add_sub_cancel_left, prefixCells_succ, List.append_assoc]

theorem prefixCells_unwritten (written : List (Option α)) (r k : Nat) :
    prefixCells (written ++ List.replicate r none) (written.length + k) =
      written ++ List.replicate k none := by
  have cell : ∀ i : Nat, (List.replicate r (none : Option α))[i]?.join = none := by
    intro i
    rw [List.getElem?_replicate]
    split <;> rfl
  rw [prefixCells_append, prefixCells]
  simp only [cell, List.map_const', List.length_range]

theorem countP_prefixCells_le (p : Option α → Bool) (hp : p none = false)
    (source : List (Option α)) (n : Nat) :
    (prefixCells source n).countP p ≤ source.countP p := by
  rcases Nat.le_total n source.length with h | h
  · rw [prefixCells_of_le source n h]
    exact (List.take_sublist n source).countP_le
  · obtain ⟨k, rfl⟩ := Nat.exists_eq_add_of_le h
    have past := prefixCells_unwritten source 0 k
    simp only [List.replicate_zero, List.append_nil] at past
    rw [past, List.countP_append, List.countP_replicate, hp]
    simp

end Ssuge.RecordedRun

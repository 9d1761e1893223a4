import Ssuge.Histories
import Ssuge.MessageCopies

/-! What becomes of the arrays of messages. A message that grows or is assigned gets a new array
after its old one was deleted, or before it is. Only `initialize` gives up an array without
deleting it: it is meant for memory that is no message yet. -/

namespace Ssuge.MessageMemory

open Procedure OwnedPool GuardedRun Histories

structure Quiet (s t : Memory) : Prop where
  next : t.arrays.next = s.arrays.next
  deleted : t.arrays.deleted = s.arrays.deleted
  messages : t.messages = s.messages

structure Still (s t : Memory) : Prop where
  next : t.arrays.next = s.arrays.next
  deleted : t.arrays.deleted = s.arrays.deleted
  holds : t.holds = s.holds

structure Renewed (s t : Memory) (a : Place) : Prop where
  next : t.arrays.next = s.arrays.next + 1
  deleted : t.arrays.deleted = (s.holds a).toList ++ s.arrays.deleted
  holds : t.holds = Function.update s.holds a (some s.arrays.next)

/-- Every array there was is held by a message or was deleted, once. -/
def NothingLost (s : Memory) : Prop := Accounted s.arrays s.holds

/-- Every array there was is held by one message alone and was not deleted, or is held by none
and was deleted once. -/
def EachOnce (s : Memory) : Prop :=
  ∀ i < s.arrays.next, (∃! a, s.holds a = some i) ∧ s.arrays.deleted.count i = 0 ∨
    (∀ a, s.holds a ≠ some i) ∧ s.arrays.deleted.count i = 1

section effects

variable {s t u : Memory} {a b : Place} {α β : Type}

theorem Quiet.refl (s : Memory) : Quiet s s := ⟨rfl, rfl, rfl⟩

theorem Quiet.trans (first : Quiet s t) (second : Quiet t u) : Quiet s u :=
  ⟨second.next.trans first.next, second.deleted.trans first.deleted,
    second.messages.trans first.messages⟩

theorem Quiet.still (quiet : Quiet s t) : Still s t := by
  refine ⟨quiet.next, quiet.deleted, ?_⟩
  funext a
  rw [Memory.holds, Memory.holds, quiet.messages]

theorem Still.trans (first : Still s t) (second : Still t u) : Still s u :=
  ⟨second.next.trans first.next, second.deleted.trans first.deleted,
    second.holds.trans first.holds⟩

theorem Still.renewed (still : Still s t) (renewed : Renewed t u a) : Renewed s u a where
  next := by rw [renewed.next, still.next]
  deleted := by rw [renewed.deleted, still.deleted, still.holds]
  holds := by rw [renewed.holds, still.next, still.holds]

theorem Renewed.still (renewed : Renewed s t a) (still : Still t u) : Renewed s u a :=
  ⟨still.next.trans renewed.next, still.deleted.trans renewed.deleted,
    still.holds.trans renewed.holds⟩

theorem accounted_congr {pool pool' : Pool α} {holds : Place → Option Nat}
    (next : pool'.next = pool.next) (deleted : pool'.deleted = pool.deleted) :
    Accounted pool' holds ↔ Accounted pool holds := by
  rw [Accounted, Accounted, next, deleted]

theorem still_counters {o o' : Object} (object : s.messages a = some o)
    (pointer : o'.mParams = o.mParams) : Still s (s.setObject a o') := by
  refine ⟨rfl, rfl, ?_⟩
  rw [holds_setObject, Function.update_eq_self_iff, pointer, Memory.holds, object]
  rfl

theorem Still.accounted_iff (still : Still s t) : NothingLost t ↔ NothingLost s := by
  rw [NothingLost, still.holds]
  exact accounted_congr still.next still.deleted

theorem Renewed.nothingLost (renewed : Renewed s t a) (sound : Sound s) (kept : NothingLost s) :
    NothingLost t := by
  have deleted : Owned (s.arrays.deleteHeld (s.holds a)) (Function.update s.holds a none) :=
    sound.owned.deleteHeld
  have assigned := (deleted.accounted_assign_iff
    (sound.owned.accounted_deleteHeld kept) []).mpr (Function.update_self ..)
  rw [Function.update_idem] at assigned
  rw [NothingLost, renewed.holds]
  cases held : s.holds a with
  | none =>
      rw [held] at assigned
      refine (accounted_congr ?_ ?_).mp assigned
      · rw [renewed.next]
        simp [Pool.next, Pool.new, Pool.deleteHeld]
      · rw [renewed.deleted, held]
        rfl
  | some p =>
      rw [held] at assigned
      have same : (s.arrays.deleteHeld (some p)).next = s.arrays.next := by
        simp [Pool.next, Pool.deleteHeld, Pool.delete]
      rw [same] at assigned
      refine (accounted_congr ?_ ?_).mp assigned
      · rw [renewed.next]
        simp [Pool.next, Pool.new, Pool.deleteHeld, Pool.delete]
      · rw [renewed.deleted, held]
        rfl

end effects

section runs

variable {s t : Memory} {a b : Place} {α β : Type}

def Writes (p : MemoryProc α) : Prop := ∀ s v t, p.run s = .returned v t → Quiet s t

theorem writes_pure (v : α) : Writes (pure v) := by
  intro s v t run
  obtain ⟨-, rfl⟩ := (Ending.returned.injEq ..).mp run
  exact Quiet.refl s

theorem Writes.bind {p : MemoryProc α} {f : α → MemoryProc β} (first : Writes p)
    (rest : ∀ v, Writes (f v)) : Writes (p >>= f) := by
  intro s v t run
  obtain ⟨w, u, ran, after⟩ := bind_eq_returned.mp run
  exact (first s w u ran).trans (rest w u v t after)

theorem writes_orStop (x : Option α) (e : Trap) : Writes (orStop x e) := by
  cases x with
  | none =>
      intro s v t run
      cases run
  | some v => exact writes_pure v

theorem writes_require (p : Prop) [Decidable p] (e : Trap) : Writes (require p e) := by
  by_cases holds : p
  · rw [require, if_pos holds]
    exact writes_pure ()
  · rw [require, if_neg holds]
    intro s v t run
    cases run

theorem writes_get {f : Memory → MemoryProc α} (rest : ∀ s, Writes (f s)) :
    Writes (get >>= f) := fun s v t run => rest s s v t run

theorem writes_array (p : Option Nat) : Writes (array p) := writes_get fun _ => writes_orStop _ _

theorem writes_setArray (p : Nat) (cells : List (Option DataItem)) :
    Writes (modify fun s => s.setArray p cells) := by
  intro s v t run
  obtain ⟨-, rfl⟩ := (Ending.returned.injEq ..).mp run
  exact ⟨by simp [Memory.setArray, Pool.next, Pool.set], rfl, rfl⟩

theorem writes_copyCells (target source : Option Nat) (n : Nat) :
    Writes (copyCells target source n) :=
  (writes_array _).bind fun _ => (writes_array _).bind fun _ =>
    (writes_require _ _).bind fun _ => writes_setArray _ _

theorem writes_storeCell (p : Option Nat) (i : Nat) (v : Option DataItem) :
    Writes (storeCell p i v) :=
  (writes_array _).bind fun _ => (writes_require _ _).bind fun _ => writes_setArray _ _

theorem writes_fullChunks (str : List (Option UInt8)) (p : Option Nat) (k n : Nat) :
    Writes (fullChunks str p k n) := by
  induction n with
  | zero => exact writes_pure ()
  | succ n ih => exact ih.bind fun _ => writes_storeCell _ _ _

theorem writes_tailChunk (str : List (Option UInt8)) (length : Nat) (o : Object) :
    Writes (tailChunk str length o) := by
  rw [tailChunk]
  split
  · exact writes_storeCell _ _ _
  · exact writes_pure ()

theorem bind_object_returned {f : Object → MemoryProc α} {v : α} :
    (object a >>= f).run s = .returned v t ↔
      ∃ o, s.messages a = some o ∧ (f o).run s = .returned v t := by
  cases live : s.messages a with
  | none => simp [bind_missing live]
  | some o => simp [bind_object live]

theorem deleteArray_returned {p : Option Nat} (run : (deleteArray p).run s = .returned () t) :
    t.arrays.next = s.arrays.next ∧ t.arrays.deleted = p.toList ++ s.arrays.deleted ∧
      t.messages = s.messages := by
  cases p with
  | none =>
      obtain ⟨-, rfl⟩ := (Ending.returned.injEq ..).mp run
      exact ⟨rfl, rfl, rfl⟩
  | some i =>
      obtain ⟨v, u, read, deleted⟩ := bind_eq_returned.mp run
      have quiet := writes_array (some i) s v u read
      obtain ⟨-, rfl⟩ := (Ending.returned.injEq ..).mp deleted
      refine ⟨?_, ?_, quiet.messages⟩
      · rw [← quiet.next]
        simp [Pool.next, Pool.delete]
      · rw [← quiet.deleted]
        rfl

theorem newArray_returned {size : Nat} {p : Option Nat}
    (run : (newArray size).run s = .returned p t) : p = some s.arrays.next ∧
      t.arrays.next = s.arrays.next + 1 ∧ t.arrays.deleted = s.arrays.deleted ∧
        t.messages = s.messages := by
  obtain ⟨rfl, rfl⟩ := (Ending.returned.injEq ..).mp run
  exact ⟨rfl, by simp [Pool.next, Pool.new], rfl, rfl⟩

theorem setObject_returned {o : Object} (run : (setObject a o).run s = .returned () t) :
    t = s.setObject a o := ((Ending.returned.injEq ..).mp run).2.symm

theorem increaseSize_renews (run : (increaseSize a).run s = .returned () t) : Renewed s t a := by
  obtain ⟨o, object, rest⟩ := bind_object_returned.mp run
  obtain ⟨size, s₁, doubled, rest⟩ := bind_eq_returned.mp rest
  have same := writes_orStop _ _ _ _ _ doubled
  obtain ⟨p, s₂, made, rest⟩ := bind_eq_returned.mp rest
  obtain ⟨rfl, next, deleted, messages⟩ := newArray_returned made
  rw [bind_setObject] at rest
  obtain ⟨_, s₄, copied, freed⟩ := bind_eq_returned.mp rest
  have quiet := writes_copyCells _ _ _ _ _ _ copied
  obtain ⟨next', deleted', messages'⟩ := deleteArray_returned freed
  have pointed : s.holds a = o.mParams := by
    rw [Memory.holds, object]
    rfl
  refine ⟨?_, ?_, ?_⟩
  · rw [next', quiet.next]
    exact next.trans (congrArg (· + 1) same.next)
  · rw [deleted', quiet.deleted, pointed]
    exact congrArg _ (deleted.trans same.deleted)
  · have holds : t.holds = (s₂.setObject a { o with
        mMaxChunks := size, mParams := some s₁.arrays.next }).holds := by
      funext b
      rw [Memory.holds, Memory.holds, messages', quiet.messages]
    rw [holds, holds_setObject, same.next]
    congr 1
    funext b
    rw [Memory.holds, Memory.holds, messages, same.messages]

theorem reserve_effect {n : Nat} (run : (reserve a n).run s = .returned () t) :
    Still s t ∨ Renewed s t a := by
  obtain ⟨o, object, rest⟩ := bind_object_returned.mp run
  rw [bind_setObject] at rest
  have still : Still s (s.setObject a { o with mNumChunks := o.mNumChunks + n }) :=
    still_counters object rfl
  split at rest
  · exact .inr (still.renewed (increaseSize_renews rest))
  · obtain ⟨-, rfl⟩ := (Ending.returned.injEq ..).mp rest
    exact .inl still

theorem add_effect_of {n : Nat} {u : Memory} (reserved : (reserve a n).run s = .returned () u)
    (rest : Still u t) : Still s t ∨ Renewed s t a :=
  (reserve_effect reserved).imp (·.trans rest) (·.still rest)

theorem add_effect {q : Param} (run : (add a q).run s = .returned () t) :
    Still s t ∨ Renewed s t a := by
  cases q with
  | string str =>
      obtain ⟨_, s₁, reserved, rest⟩ := bind_eq_returned.mp run
      obtain ⟨o, object, rest⟩ := bind_object_returned.mp rest
      obtain ⟨_, s₂, full, rest⟩ := bind_eq_returned.mp rest
      obtain ⟨_, s₃, tail, set⟩ := bind_eq_returned.mp rest
      have quiet :=
        (writes_fullChunks _ _ _ _ _ _ _ full).trans (writes_tailChunk _ _ _ _ _ _ tail)
      obtain rfl := setObject_returned set
      have still : s₃.messages a = some o := quiet.messages ▸ object
      exact add_effect_of reserved (quiet.still.trans (still_counters still rfl))
  | int | float | gameObject =>
      obtain ⟨_, s₁, reserved, rest⟩ := bind_eq_returned.mp run
      obtain ⟨o, object, rest⟩ := bind_object_returned.mp rest
      obtain ⟨_, s₂, stored, set⟩ := bind_eq_returned.mp rest
      have quiet := writes_storeCell _ _ _ _ _ _ stored
      obtain rfl := setObject_returned set
      have still : s₂.messages a = some o := quiet.messages ▸ object
      exact add_effect_of reserved (quiet.still.trans (still_counters still rfl))

/-- The old array is deleted before the new one is there. -/
theorem assign_renews (run : (assign a b).run s = .returned () t) : Renewed s t a := by
  obtain ⟨o, object, rest⟩ := bind_object_returned.mp run
  obtain ⟨_, s₁, freed, rest⟩ := bind_eq_returned.mp rest
  obtain ⟨next, deleted, messages⟩ := deleteArray_returned freed
  obtain ⟨m, source, rest⟩ := bind_object_returned.mp rest
  obtain ⟨o₁, object₁, rest⟩ := bind_object_returned.mp rest
  rw [bind_setObject] at rest
  obtain ⟨o₂, object₂, rest⟩ := bind_object_returned.mp rest
  obtain ⟨p, s₂, made, rest⟩ := bind_eq_returned.mp rest
  obtain ⟨rfl, next', deleted', messages'⟩ := newArray_returned made
  obtain ⟨o₃, object₃, rest⟩ := bind_object_returned.mp rest
  rw [bind_setObject] at rest
  obtain ⟨o₄, object₄, rest⟩ := bind_object_returned.mp rest
  obtain ⟨o₅, object₅, rest⟩ := bind_object_returned.mp rest
  obtain ⟨o₆, object₆, copied⟩ := bind_object_returned.mp rest
  have still := (writes_copyCells _ _ _ _ _ _ copied).still
  have pointed : s.holds a = o.mParams := by
    rw [Memory.holds, object]
    rfl
  refine ⟨?_, ?_, ?_⟩
  · rw [still.next]
    exact next'.trans (congrArg (· + 1) next)
  · rw [still.deleted, pointed]
    exact deleted'.trans deleted
  · have same : ∀ c ≠ a, s₂.messages c = s.messages c := fun c apart => by
      rw [messages', ← messages]
      exact Function.update_of_ne apart ..
    have first : s₁.arrays.next = s.arrays.next := next
    rw [still.holds, holds_setObject, ← first]
    funext c
    by_cases own : c = a
    · rw [own, Function.update_self, Function.update_self]
      rfl
    · rw [Function.update_of_ne own, Function.update_of_ne own, Memory.holds, Memory.holds,
        same c own]

theorem copyConstruct_renews (run : (copyConstruct a b).run s = .returned () t) :
    s.holds a = none ∧ Renewed s t a := by
  rw [copyConstruct, bind_get_run, bind_require_run] at run
  split at run
  next free =>
    obtain ⟨m, source, rest⟩ := bind_object_returned.mp run
    rw [bind_newArray, bind_setObject] at rest
    have still := (writes_copyCells _ _ _ _ _ _ rest).still
    have fresh : s.holds a = none := by
      rw [Memory.holds, Option.isNone_iff_eq_none.mp free]
      rfl
    refine ⟨fresh, ?_, ?_, ?_⟩
    · rw [still.next]
      simp [Memory.setObject, Pool.next, Pool.new]
    · rw [still.deleted, fresh]
      rfl
    · rw [still.holds]
      exact holds_setObject _
  · cases run

theorem construct_renews {numChunks : Nat}
    (run : (construct a numChunks).run s = .returned () t) :
    s.holds a = none ∧ Renewed s t a := by
  rw [construct, bind_get_run, bind_require_run] at run
  split at run
  next free =>
    have fresh : s.holds a = none := by
      rw [Memory.holds, Option.isNone_iff_eq_none.mp free]
      rfl
    rw [bind_newArray] at run
    obtain rfl := setObject_returned run
    refine ⟨fresh, ?_, ?_, holds_setObject _⟩
    · simp [Memory.setObject, Pool.next, Pool.new]
    · rw [fresh]
      rfl
  · cases run

end runs

def Op.Makes (a : Place) : Op → Prop
  | .construct b _ | .initializeMessage b | .copyConstruct b _ => b = a
  | .destruct _ | .assign _ _ | .add _ _ => False

theorem Op.Makes.unique {a b : Place} {op : Op} (first : op.Makes a) (second : op.Makes b) :
    a = b := by
  cases op with
  | construct | initializeMessage | copyConstruct => exact first.symm.trans second
  | destruct | assign | add => exact absurd first id

/-- A message was made at the place and is not destroyed yet. -/
def Occupied (a : Place) : List Op → Prop :=
  Since (fun _ op => op.Makes a) (· = .destruct a)

section accounts

variable {s t : Memory} {a : Place} {op : Op}

inductive Effect (s t : Memory) : Op → Prop
  | renewed {op : Op} (a : Place) (made : op.Makes a ∧ s.holds a = none ∨
      (∀ b, ¬ op.Makes b) ∧ (s.holds a).isSome) (kept : ∀ b, op ≠ .destruct b)
      (renewed : Renewed s t a) : Effect s t op
  | still {op : Op} (makes : ∀ b, ¬ op.Makes b) (kept : ∀ b, op ≠ .destruct b)
      (still : Still s t) : Effect s t op
  | initialized (a : Place) (holds : t.holds = Function.update s.holds a (some s.arrays.next))
      (arrays : t.arrays = s.arrays.new (List.replicate Message.startChunkNum none)) :
      Effect s t (.initializeMessage a)
  | destroyed (a : Place) {p : Nat} (held : s.holds a = some p)
      (holds : t.holds = Function.update s.holds a none) (arrays : t.arrays = s.arrays.delete p) :
      Effect s t (.destruct a)

theorem Sound.isSome_iff (sound : Sound s) : (s.messages a).isSome ↔ (s.holds a).isSome := by
  rw [Memory.holds]
  cases object : s.messages a with
  | none => simp
  | some o => simpa using sound.pointed a o object

theorem Sound.effect (sound : Sound s) (stepped : MessageMemory.step s op = some t) :
    Effect s t op := by
  have run := step_eq_some.mp stepped
  cases op with
  | construct a numChunks =>
      obtain ⟨fresh, renewed⟩ := construct_renews run
      exact .renewed a (.inl ⟨rfl, fresh⟩) nofun renewed
  | initializeMessage a =>
      obtain ⟨-, rfl⟩ := (Ending.returned.injEq ..).mp run
      exact .initialized a (holds_setObject _) rfl
  | destruct a =>
      rcases sound.missing_or_located a with missing | ⟨m, p, located⟩
      · exact absurd run (not_returned (bind_of_stopped (bind_missing missing _) _))
      · obtain ⟨-, rfl⟩ := (Ending.returned.injEq ..).mp ((destruct_run located).symm.trans run)
        exact .destroyed a located.holds holds_removeObject rfl
  | copyConstruct a b =>
      obtain ⟨fresh, renewed⟩ := copyConstruct_renews run
      exact .renewed a (.inl ⟨rfl, fresh⟩) nofun renewed
  | assign a b =>
      obtain ⟨o, object, -⟩ := bind_object_returned.mp run
      have held := sound.isSome_iff.mp (object ▸ rfl : (s.messages a).isSome)
      exact .renewed a (.inr ⟨nofun, held⟩) nofun (assign_renews run)
  | add a q =>
      rcases sound.missing_or_located a with missing | ⟨m, p, located⟩
      · exact absurd run (not_returned (add_missing missing q))
      · rcases add_effect run with still | renewed
        · exact .still nofun nofun still
        · exact .renewed a (.inr ⟨nofun, by rw [located.holds]; rfl⟩) nofun renewed

/-- Only `initialize` loses an array, and only that of a message. -/
theorem Effect.accounted_iff (effect : Effect s t op) (sound : Sound s) (kept : NothingLost s) :
    NothingLost t ↔ ∀ a, op = .initializeMessage a → s.holds a = none := by
  cases effect with
  | renewed a made others renewed =>
      refine iff_of_true (renewed.nothingLost sound kept) fun b same => ?_
      rcases made with ⟨own, empty⟩ | ⟨never, -⟩
      · subst same
        obtain rfl : b = a := own
        exact empty
      · subst same
        exact absurd rfl (never b)
  | still makes others still =>
      refine iff_of_true (still.accounted_iff.mpr kept) fun b same => ?_
      subst same
      exact absurd rfl (makes b)
  | initialized a holds arrays =>
      rw [NothingLost, holds, arrays, sound.owned.accounted_assign_iff kept]
      simp
  | destroyed a held holds arrays =>
      refine iff_of_true ?_ nofun
      rw [NothingLost, holds, arrays]
      exact sound.owned.accounted_release kept held

theorem Effect.occupied (effect : Effect s t op) (b : Place) : (t.holds b).isSome ↔
    op.Makes b ∨ (s.holds b).isSome ∧ op ≠ .destruct b := by
  cases effect with
  | renewed a made others renewed =>
      rw [renewed.holds, and_iff_left (others b)]
      by_cases own : b = a
      · subst own
        rw [Function.update_self]
        exact iff_of_true rfl (made.imp And.left And.right)
      · rw [Function.update_of_ne own]
        refine (or_iff_right fun makes => ?_).symm
        rcases made with ⟨makes', -⟩ | ⟨never, -⟩
        · exact own (makes.unique makes')
        · exact never b makes
  | still makes others still =>
      rw [still.holds, and_iff_left (others b), or_iff_right (makes b)]
  | initialized a holds arrays =>
      rw [holds]
      by_cases own : b = a
      · simp [own, Op.Makes]
      · simp [own, Op.Makes, Ne.symm own]
  | destroyed a held holds arrays =>
      rw [holds]
      by_cases own : b = a
      · simp [own, Op.Makes]
      · simp [own, Op.Makes, Ne.symm own]

structure Told (before : List Op) (s : Memory) : Prop where
  sound : Sound s
  occupied : ∀ a, (s.holds a).isSome ↔ Occupied a before

theorem Told.next {before : List Op} (told : Told before s) (stepped : step s op = some t) :
    Told (before ++ [op]) t where
  sound := Sound.step told.sound stepped
  occupied a := by
    rw [Occupied, since_snoc, (told.sound.effect stepped).occupied, told.occupied]
    rfl

theorem Sound.eachOnce_iff (sound : Sound s) : EachOnce s ↔ NothingLost s := by
  have alone : ∀ i, (∃! a, s.holds a = some i) ↔ Held s.holds i := fun i =>
    ⟨ExistsUnique.exists, fun ⟨a, held⟩ => ⟨a, held, fun b held' =>
      sound.owned.distinct b a i held' held⟩⟩
  have nobody : ∀ i, (∀ a, s.holds a ≠ some i) ↔ ¬ Held s.holds i := fun i => not_exists.symm
  simp only [EachOnce, NothingLost, Accounted, alone, nobody]

theorem nothingLost_throughout_iff {ops : List Op}
    (defined : (runSteps step Memory.empty ops).isSome) :
    Throughout step NothingLost Memory.empty ops ↔
      ∀ before op, before ++ [op] <+: ops → ∀ a, op = .initializeMessage a →
        ¬ Occupied a before := by
  have first : Told [] Memory.empty :=
    ⟨sound_empty, fun a => iff_of_false Bool.false_ne_true since_nil⟩
  obtain ⟨t, reached⟩ := Option.isSome_iff_exists.mp defined
  clear defined
  induction ops using List.reverseRecOn generalizing t with
  | nil => exact iff_of_true (throughout_nil.mpr accounted_empty) (by simp)
  | append_singleton ops op ih =>
      obtain ⟨s, before, stepped⟩ := Option.bind_eq_some_iff.mp (runSteps_snoc .. ▸ reached)
      have told : Told ops s := Histories.told (I := Told) first
        (fun _ _ _ _ told stepped => told.next stepped) before
      have same : _ ↔ _ := ih s before
      rw [throughout_snoc, forall_prefix_snoc, ← same]
      refine and_congr_right fun all => ?_
      have kept := all ops (List.prefix_refl _) s before
      have lost := ((told.sound.effect stepped).accounted_iff told.sound kept)
      simp only [← told.occupied, Option.not_isSome_iff_eq_none, ← lost]
      exact ⟨fun ended => ended t reached, fun kept' u here =>
        Option.some.inj (reached.symm.trans here) ▸ kept'⟩

/-- In a run of operations that all return, every array that was allocated is at any time held by
one message alone or was deleted once, exactly if `initialize` is never called on a message. -/
theorem arrays_accounted_iff {ops : List Op} (defined : (runSteps step Memory.empty ops).isSome) :
    Throughout step EachOnce Memory.empty ops ↔
      ∀ before op, before ++ [op] <+: ops → ∀ a, op = .initializeMessage a →
        ¬ Occupied a before := by
  have sound : ∀ {before s}, runSteps step Memory.empty before = some s → Sound s :=
    runSteps_induct (fun _ _ _ kept stepped => Sound.step kept stepped) sound_empty
  rw [← nothingLost_throughout_iff defined]
  constructor
  · exact fun all before shorter s reached =>
      (sound reached).eachOnce_iff.mp (all before shorter s reached)
  · exact fun all before shorter s reached =>
      (sound reached).eachOnce_iff.mpr (all before shorter s reached)

end accounts

/-- A message that is copied, assigned and made larger. -/
theorem arrays_accounted_copies : Throughout step EachOnce Memory.empty
    ([.construct 0 1, .copyConstruct 1 0, .add 1 (.int 3), .add 1 (.int 4), .assign 0 1] ++
      [.destruct 1]) := by
  refine (arrays_accounted_iff (by decide)).mpr fun before op shorter a same => ?_
  subst same
  have member := shorter.subset (List.mem_append_right before (List.mem_singleton_self _))
  simp at member

end Ssuge.MessageMemory

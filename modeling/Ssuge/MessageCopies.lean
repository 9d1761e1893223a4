import Ssuge.MessageMemory

/-! Copies of messages. The copy constructor and `operator =` give a message an array of
its own with the cells of the other. `operator =` deletes the old array first, and when
both operands are one object, what it then copies are the unwritten cells of the new array.
Adding to a message afterwards is seen by no other message, as long as nothing is written
outside its array. -/

namespace Ssuge.MessageMemory

open RecordedRun CString Procedure OwnedPool GuardedRun

section copies

variable {s : Memory} {a b : Place} {m : Message}

theorem Sound.at_object (sound : Sound s) {o : Object} (live : s.messages a = some o) :
    ∃ m p, Located s a m p ∧ o = objectOf m p := by
  obtain ⟨p, pointer⟩ := Option.isSome_iff_exists.mp (sound.pointed a o live)
  have held : s.holds a = some p := holds_of_object live pointer
  obtain ⟨cells, read⟩ := Option.isSome_iff_exists.mp (sound.owned.live a p held)
  have view : s.view a = some ⟨cells, o.mNumParam, o.mNumChunks⟩ := by
    simp [Memory.view, live, pointer, read]
  obtain ⟨q, located⟩ := sound.located view
  exact ⟨_, q, located, Option.some.inj (live.symm.trans located.object)⟩

theorem Sound.replace (sound : Sound s) {p : Nat} (at' : Located s a m p) :
    ∃ t, (deleteArray (some p)).run s = .returned () t ∧ t.messages = s.messages ∧
      (∀ c q, c ≠ a → s.holds c = some q → t.arrays.get? q = s.arrays.get? q ∧
        q ≠ t.arrays.next) ∧
      ∀ m', Becomes s { (t.setObject a (objectOf m' t.arrays.next)) with
        arrays := t.arrays.new m'.mParams } a m' := by
  refine ⟨{ s with arrays := s.arrays.delete p }, deleteArray_run at'.cells, rfl, ?_, ?_⟩
  · intro c q other held
    have older := sound.older held
    refine ⟨(Pool.get?_delete ..).trans (if_neg (sound.apart at' other held)), ?_⟩
    simpa [Pool.next, Pool.delete] using older
  · intro m'
    obtain ⟨released, views⟩ := sound.release at'
    have moved := released.move (a := a) m'
    have same : { (Memory.setObject { (s.removeObject a) with arrays := s.arrays.delete p } a
        (objectOf m' (s.arrays.delete p).next)) with
          arrays := (s.arrays.delete p).new m'.mParams } =
        { (Memory.setObject { s with arrays := s.arrays.delete p } a
        (objectOf m' (s.arrays.delete p).next)) with
          arrays := (s.arrays.delete p).new m'.mParams } := by
      simp only [Memory.setObject, Memory.removeObject, Function.update_idem]
    refine ⟨same ▸ moved.sound, same ▸ moved.view, fun c apart => ?_⟩
    exact same ▸ (moved.others c apart).trans (views c apart)

theorem copyCells_new {t : Memory} {p : Option Nat} {cells : List (Option DataItem)} (size : Nat)
    (source : p.bind { t with
      arrays := t.arrays.new (List.replicate size none) }.arrays.get? = some cells)
    (whole : cells.length = size) :
    (copyCells (some t.arrays.next) p size).run
        { t with arrays := t.arrays.new (List.replicate size none) } =
      .returned () { t with arrays := t.arrays.new cells } := by
  obtain ⟨q, rfl, read⟩ := Option.bind_eq_some_iff.mp source
  have target : (t.arrays.new (List.replicate size (none : Option DataItem))).get?
      t.arrays.next = some (List.replicate size none) := (Pool.get?_new ..).trans (if_pos rfl)
  have all : prefixCells cells size ++ (List.replicate size none).drop size = cells := by
    rw [prefixCells_of_le _ _ whole.ge, ← whole]
    simp
  rw [copyCells_run read target (by rw [List.length_replicate]), all]
  simp only [Memory.setArray, Pool.set_new]

theorem copyConstruct_run (sound : Sound s) (fresh : s.messages a = none)
    (source : s.view b = some m) :
    ∃ t, (copyConstruct a b).run s = .returned () t ∧ Becomes s t a m := by
  obtain ⟨q, located⟩ := sound.located source
  have older := sound.older located.holds
  refine ⟨_, ?_, sound.move m⟩
  rw [copyConstruct, bind_get_run, bind_of_returned (require_pos (by rw [fresh]; rfl) _ _),
    bind_object located.object, bind_newArray, bind_setObject]
  refine copyCells_new (t := s.setObject a (objectOf m s.arrays.next)) m.mMaxChunks ?_ rfl
  exact (Pool.get?_new ..).trans ((if_neg older).trans located.cells)

/-- `operator =` as far as the copying. -/
theorem assign_opens {t : Memory} {n : Message} {p q : Nat} (at' : Located s a n p)
    (deleted : (deleteArray (some p)).run s = .returned () t) (same : t.messages = s.messages)
    (source : Located s b m q) :
    (assign a b).run s = (copyCells (some t.arrays.next)
        (if b = a then some t.arrays.next else some q) m.mMaxChunks).run
      { (t.setObject a (objectOf m t.arrays.next)) with
        arrays := t.arrays.new (List.replicate m.mMaxChunks none) } := by
  have liveA : t.messages a = some (objectOf n p) := by rw [same, at'.object]
  have liveB : t.messages b = some (objectOf m q) := by rw [same, source.object]
  set u := t.setObject a (objectOf m p) with u_eq
  have liveU : u.messages a = some (objectOf m p) := Function.update_self ..
  have liveU' : Memory.messages { u with
      arrays := u.arrays.new (List.replicate m.mMaxChunks none) } a = some (objectOf m p) := liveU
  set v : Memory := { (t.setObject a (objectOf m t.arrays.next)) with
    arrays := t.arrays.new (List.replicate m.mMaxChunks none) } with v_eq
  have liveV : v.messages a = some (objectOf m t.arrays.next) := Function.update_self ..
  have twice : Memory.setObject { u with
      arrays := t.arrays.new (List.replicate m.mMaxChunks none) } a
        (objectOf m t.arrays.next) = v := by
    simp only [u_eq, v_eq, Memory.setObject, Function.update_idem]
  -- the other message is read after this one was written
  have read : ∃ w, v.messages b = some w ∧
      w.mParams = if b = a then some t.arrays.next else some q := by
    by_cases self : b = a
    · subst self
      exact ⟨_, liveV, (if_pos rfl).symm⟩
    · exact ⟨_, (Function.update_of_ne self ..).trans liveB, (if_neg self).symm⟩
  obtain ⟨w, liveW, pointer⟩ := read
  rw [assign, bind_object at'.object]
  refine (bind_of_returned deleted _).trans ?_
  rw [bind_object liveB, bind_object liveA, bind_setObject]
  refine (bind_object liveU _).trans ?_
  rw [bind_newArray]
  refine (bind_object liveU' _).trans ?_
  rw [bind_setObject]
  refine (congrArg _ twice).trans ?_
  rw [bind_object liveV, bind_object liveW, bind_object liveV, pointer]
  rfl

theorem assign_other (sound : Sound s) (live : (s.view a).isSome) (source : s.view b = some m)
    (apart : a ≠ b) : ∃ t, (assign a b).run s = .returned () t ∧ Becomes s t a m := by
  obtain ⟨n, target⟩ := Option.isSome_iff_exists.mp live
  obtain ⟨p, at'⟩ := sound.located target
  obtain ⟨q, located⟩ := sound.located source
  obtain ⟨t, deleted, same, kept, replaced⟩ := sound.replace at'
  obtain ⟨read, older⟩ := kept b q (Ne.symm apart) located.holds
  refine ⟨_, ?_, replaced m⟩
  rw [assign_opens at' deleted same located, if_neg (Ne.symm apart)]
  refine copyCells_new (t := t.setObject a (objectOf m t.arrays.next)) m.mMaxChunks ?_ rfl
  exact (Pool.get?_new ..).trans ((if_neg older).trans (read.trans located.cells))

/-- A message with the counters that it had and an array that was not written. -/
def unwritten (m : Message) : Message :=
  { m with mParams := List.replicate m.mMaxChunks none }

/-- A message that is assigned to itself keeps its counters only. -/
theorem assign_self (sound : Sound s) (source : s.view a = some m) :
    ∃ t, (assign a a).run s = .returned () t ∧ Becomes s t a (unwritten m) := by
  obtain ⟨p, at'⟩ := sound.located source
  obtain ⟨t, deleted, same, -, replaced⟩ := sound.replace at'
  have counters : objectOf (unwritten m) t.arrays.next = objectOf m t.arrays.next := by
    simp [objectOf, unwritten, Message.mMaxChunks]
  have result := replaced (unwritten m)
  rw [counters] at result
  refine ⟨_, ?_, result⟩
  rw [assign_opens at' deleted same at', if_pos rfl]
  refine copyCells_new (t := t.setObject a (objectOf m t.arrays.next)) m.mMaxChunks ?_ ?_
  · exact (Pool.get?_new ..).trans (if_pos rfl)
  · exact List.length_replicate ..

theorem step_eq_some {op : Op} {t : Memory} :
    step s op = some t ↔ op.run.run s = .returned () t := by
  rw [step]
  cases op.run.run s with
  | returned => simp [Ending.resumes]
  | stopped => simp [Ending.resumes]

theorem Sound.construct (sound : Sound s) (a : Place) (numChunks : Nat) :
    Becomes s { (s.setObject a ⟨0, 0, numChunks, some s.arrays.next⟩) with
      arrays := s.arrays.new (List.replicate numChunks none) } a (Message.ofSize numChunks) := by
  have moved := sound.move (a := a) (Message.ofSize numChunks)
  have counters : objectOf (Message.ofSize numChunks) s.arrays.next =
      ⟨0, 0, numChunks, some s.arrays.next⟩ := by
    simp [objectOf, Message.ofSize, Message.mMaxChunks]
  rwa [counters] at moved

theorem destruct_run {p : Nat} (at' : Located s a m p) : (destruct a).run s =
    .returned () { (s.removeObject a) with arrays := s.arrays.delete p } := by
  have destroyed : (destroy a).run s = .returned () (Memory.setObject
      { s with arrays := s.arrays.delete p } a { objectOf m p with mParams := none }) := by
    rw [destroy, bind_object at'.object]
    exact bind_of_returned (deleteArray_run at'.cells) _
  rw [destruct, bind_of_returned destroyed, modify_run]
  simp only [Memory.removeObject, Memory.setObject, Function.update_idem]

theorem bind_missing {α : Type} (missing : s.messages a = none) (f : Object → MemoryProc α) :
    (object a >>= f).run s = .stopped .undefined s := by
  have found : (object a).run s = .stopped .undefined s := by
    simp only [object, bind_get_run, missing, orStop_none]
  exact bind_of_stopped found f

theorem add_missing (missing : s.messages a = none) (q : Param) :
    (add a q).run s = .stopped .undefined s := by
  have reserved : ∀ n, (reserve a n).run s = .stopped .undefined s := fun n =>
    bind_missing missing _
  cases q with
  | string str => exact bind_of_stopped (reserved _) _
  | _ => exact bind_of_stopped (reserved 1) _

theorem Sound.missing_or_located (sound : Sound s) (c : Place) :
    s.messages c = none ∨ ∃ m p, Located s c m p := by
  cases live : s.messages c with
  | none => exact .inl rfl
  | some o =>
      obtain ⟨m, p, located, -⟩ := sound.at_object live
      exact .inr ⟨m, p, located⟩

theorem not_returned {proc : MemoryProc Unit} {t u : Memory} {e : Trap}
    (stopped : proc.run s = .stopped e u) : proc.run s ≠ .returned () t := by
  simp [stopped]

theorem Becomes.of_returned {proc : MemoryProc Unit} {t u : Memory}
    (made : proc.run s = .returned () u) (becomes : Becomes s u a m)
    (returned : proc.run s = .returned () t) : Becomes s t a m := by
  obtain rfl : u = t := by simpa using made.symm.trans returned
  exact becomes

theorem Sound.copyConstruct (sound : Sound s) {t : Memory}
    (returned : (MessageMemory.copyConstruct a b).run s = .returned () t) : Sound t := by
  by_cases fresh : (s.messages a).isNone
  · rcases sound.missing_or_located b with missing | ⟨m, p, located⟩
    · refine absurd returned (not_returned (e := .undefined) (u := s) ?_)
      exact (bind_of_returned (require_pos fresh _ _) _).trans (bind_missing missing _)
    · obtain ⟨u, made, becomes⟩ :=
        copyConstruct_run sound (Option.isNone_iff_eq_none.mp fresh) located.view
      exact (becomes.of_returned made returned).sound
  · exact absurd returned (not_returned (bind_of_stopped (require_neg fresh _ _) _))

theorem Sound.assign (sound : Sound s) {t : Memory}
    (returned : (MessageMemory.assign a b).run s = .returned () t) : Sound t := by
  rcases sound.missing_or_located a with missing | ⟨n, p, located⟩
  · exact absurd returned (not_returned (bind_missing missing _))
  by_cases self : a = b
  · subst self
    obtain ⟨u, made, becomes⟩ := assign_self sound located.view
    exact (becomes.of_returned made returned).sound
  rcases sound.missing_or_located b with missing | ⟨m, q, source⟩
  · obtain ⟨u, deleted, same, -⟩ := sound.replace located
    refine absurd returned (not_returned (e := .undefined) (u := u) ?_)
    refine (bind_object located.object _).trans ((bind_of_returned deleted _).trans ?_)
    exact bind_missing (same ▸ missing) _
  · obtain ⟨u, made, becomes⟩ := assign_other sound (by rw [located.view]; rfl) source.view self
    exact (becomes.of_returned made returned).sound

theorem Sound.add (sound : Sound s) {q : Param} {t : Memory}
    (returned : (MessageMemory.add a q).run s = .returned () t) : Sound t := by
  rcases sound.missing_or_located a with missing | ⟨m, p, located⟩
  · exact absurd returned (not_returned (add_missing missing q))
  · rcases add_run sound located q with
      ⟨m', u, -, -, run', becomes⟩ | ⟨-, u, run'⟩ | ⟨-, -, u, run'⟩
    · exact (becomes.of_returned run' returned).sound
    · exact absurd returned (not_returned run')
    · exact absurd returned (not_returned run')

/-- Every operation keeps messages and arrays in order. -/
theorem Sound.step (sound : Sound s) {op : Op} {t : Memory} (returned : step s op = some t) :
    Sound t := by
  have run := step_eq_some.mp returned
  cases op with
  | construct a numChunks =>
      by_cases fresh : (s.messages a).isNone
      · refine ((sound.construct a numChunks).of_returned ?_ run).sound
        exact bind_of_returned (require_pos fresh _ _) _
      · exact absurd run (not_returned (bind_of_stopped (require_neg fresh _ _) _))
  | initializeMessage a => exact ((sound.construct a _).of_returned rfl run).sound
  | destruct a =>
      rcases sound.missing_or_located a with missing | ⟨m, p, located⟩
      · exact absurd run (not_returned (bind_of_stopped (bind_missing missing _) _))
      · obtain rfl : _ = t := by simpa using (destruct_run located).symm.trans run
        exact (sound.release located).1
  | copyConstruct a b => exact sound.copyConstruct run
  | assign a b => exact sound.assign run
  | add a q => exact sound.add run

theorem Sound.run (sound : Sound s) {ops : List Op} {t : Memory}
    (reached : runSteps MessageMemory.step s ops = some t) : Sound t :=
  runSteps_induct (fun _ _ _ inv returned => Sound.step inv returned) sound reached

end copies

structure SameGetters (m n : Message) : Prop where
  numParams : m.getNumParams = n.getNumParams
  paramType : m.getParamType = n.getParamType
  int : m.getInt = n.getInt
  float : m.getFloat = n.getFloat
  gameObject : m.getGameObject = n.getGameObject
  string : m.getString = n.getString

theorem SameGetters.refl (m : Message) : SameGetters m m := ⟨rfl, rfl, rfl, rfl, rfl, rfl⟩

theorem sameGetters_of_lookup {m n : Message} (numParams : m.getNumParams = n.getNumParams)
    (lookups : ∀ number, Message.lookup number m.chunks = Message.lookup number n.chunks)
    (string : m.getString = n.getString) : SameGetters m n := by
  refine ⟨numParams, ?_, ?_, ?_, ?_, string⟩ <;> funext k
  · rw [Message.getParamType, Message.getParamType, lookups]
  · rw [Message.getInt, Message.getInt, lookups]
  · rw [Message.getFloat, Message.getFloat, lookups]
  · rw [Message.getGameObject, Message.getGameObject, lookups]

def FirstWritten (m : Message) : Prop := ∃ item rest, m.chunks = some item :: rest

theorem chunks_unwritten (m : Message) :
    (unwritten m).chunks = List.replicate m.mNumChunks none := by
  apply List.ext_getElem (by simp [Message.chunks, unwritten])
  intro i hi _
  simp only [Message.chunks, unwritten, prefixCells, List.getElem_map, List.getElem_range,
    List.getElem_replicate, List.getElem?_replicate]
  split <;> rfl

theorem unwritten_getters_iff (m : Message) :
    SameGetters (unwritten m) m ↔ ¬ FirstWritten m := by
  have counted : m.chunks.length = m.mNumChunks := prefixCells_length ..
  have blank := chunks_unwritten m
  constructor
  · rintro same ⟨item, rest, first⟩
    rw [first, List.length_cons] at counted
    rw [← counted, List.replicate_succ] at blank
    have asked := congrFun same.paramType item.mParamNum.toNat
    have number : Message.paramByte item.mParamNum.toNat = item.mParamNum := UInt8.ofNat_toNat
    simp only [Message.getParamType, blank, first, number, Message.lookup, if_pos] at asked
    simp [bind, Except.bind, pure, Except.pure] at asked
  · intro unwrittenFirst
    cases cells : m.chunks with
    | nil =>
        rw [cells, List.length_nil] at counted
        rw [← counted, List.replicate_zero] at blank
        refine sameGetters_of_lookup rfl (fun _ => by rw [blank, cells]) (funext fun k => ?_)
        simp only [Message.getString, blank, cells, Message.stringExtent]
        rfl
    | cons cell rest =>
        cases cell with
        | some item => exact absurd ⟨item, rest, cells⟩ unwrittenFirst
        | none =>
            rw [cells, List.length_cons] at counted
            rw [← counted, List.replicate_succ] at blank
            have lookups : ∀ number, Message.lookup number (unwritten m).chunks =
                Message.lookup number m.chunks := fun _ => by rw [blank, cells]; rfl
            refine sameGetters_of_lookup rfl lookups (funext fun k => ?_)
            simp only [Message.getString, blank, cells, Message.stringExtent]
            rfl

/-- The message at `a` becomes what the one at `b` was, and that one stays. -/
def DeepCopy (s t : Memory) (a b : Place) : Prop :=
  ∀ m, s.view b = some m → (∃ n, t.view a = some n ∧ SameGetters n m) ∧
    ∃ n, t.view b = some n ∧ SameGetters n m

/-- Adding to the message at `x` is defined and leaves the one at `y` as it was. -/
structure Spares (x y : Place) (s : Memory) (q : Param) : Prop where
  defined : ∀ t, (add x q).run s ≠ .stopped .undefined t
  same : ∀ t m, step s (.add x q) = some t → s.view y = some m →
    ∃ n, t.view y = some n ∧ SameGetters n m

def addTo (x : Place) (s : Memory) (q : Param) : Option Memory := step s (.add x q)

def StoresInside (x : Place) (s : Memory) (q : Param) : Prop :=
  ∃ m ∈ s.view x, m.StoresInside q

instance (x : Place) (s : Memory) (q : Param) : Decidable (StoresInside x s q) :=
  inferInstanceAs (Decidable (∃ m ∈ s.view x, m.StoresInside q))

theorem spares_iff {s : Memory} (sound : Sound s) {x y : Place} (apart : x ≠ y) (q : Param) :
    Spares x y s q ↔ StoresInside x s q := by
  cases view : s.view x with
  | none =>
      have missing : s.messages x = none := by
        by_contra present
        obtain ⟨o, live⟩ := Option.ne_none_iff_exists'.mp present
        obtain ⟨m, p, located, -⟩ := sound.at_object live
        simp [located.view] at view
      refine ⟨fun spares => absurd (add_missing missing q) (spares.defined s), ?_⟩
      rintro ⟨m, found, -⟩
      simp [view] at found
  | some m =>
      obtain ⟨p, located⟩ := sound.located view
      have only : StoresInside x s q ↔ m.StoresInside q := by
        constructor
        · rintro ⟨n, found, inside⟩
          obtain rfl := Option.some.inj (view.symm.trans found)
          exact inside
        · exact fun inside => ⟨m, view, inside⟩
      rw [only]
      rcases add_run sound located q with
        ⟨m', u, -, inside, run, becomes⟩ | ⟨outside, u, run⟩ | ⟨-, inside, u, run⟩
      · refine iff_of_true ⟨fun t => by rw [run]; simp, fun t n returned there => ?_⟩ inside
        obtain rfl : u = t := by simpa using run.symm.trans (step_eq_some.mp returned)
        exact ⟨n, (becomes.others y apart.symm).trans there, .refl n⟩
      · exact iff_of_false (fun spares => spares.defined u run) outside
      · refine iff_of_true ⟨fun t => by rw [run]; simp, fun t n returned _ => ?_⟩ inside
        exact absurd (run.symm.trans (step_eq_some.mp returned)) (by simp)

inductive Copying
  | constructed
  | assigned

def Copying.op : Copying → Place → Place → Op
  | constructed => .copyConstruct
  | assigned => .assign

def Copying.Ready (s : Memory) (a : Place) : Copying → Prop
  | constructed => s.messages a = none
  | assigned => (s.view a).isSome

theorem Copying.step {s : Memory} (sound : Sound s) (how : Copying) {a b : Place} {m : Message}
    (ready : how.Ready s a) (source : s.view b = some m) :
    ∃ t, MessageMemory.step s (how.op a b) = some t ∧
      Becomes s t a (if a = b then unwritten m else m) := by
  cases how with
  | constructed =>
      obtain ⟨t, made, becomes⟩ := copyConstruct_run sound ready source
      have apart : a ≠ b := by
        rintro rfl
        obtain ⟨p, located⟩ := sound.located source
        exact absurd (ready.symm.trans located.object) (by simp)
      exact ⟨t, step_eq_some.mpr made, by rwa [if_neg apart]⟩
  | assigned =>
      by_cases self : a = b
      · subst self
        obtain ⟨t, made, becomes⟩ := assign_self sound source
        exact ⟨t, step_eq_some.mpr made, by rwa [if_pos rfl]⟩
      · obtain ⟨t, made, becomes⟩ := assign_other sound ready source self
        exact ⟨t, step_eq_some.mpr made, by rwa [if_neg self]⟩

theorem deepCopy_iff {s t : Memory} {a b : Place} {m : Message} (source : s.view b = some m)
    (becomes : Becomes s t a (if a = b then unwritten m else m)) :
    DeepCopy s t a b ↔ (a = b → ¬ FirstWritten m) := by
  by_cases self : a = b
  · subst self
    have becomes' : t.view a = some (unwritten m) := by simpa using becomes.view
    rw [← unwritten_getters_iff]
    constructor
    · intro deep _
      obtain ⟨⟨n, found, same⟩, -⟩ := deep m source
      obtain rfl := Option.some.inj (becomes'.symm.trans found)
      exact same
    · intro same n found
      obtain rfl := Option.some.inj (source.symm.trans found)
      exact ⟨⟨_, becomes', same rfl⟩, _, becomes', same rfl⟩
  · refine iff_of_true (fun n found => ?_) fun equal => absurd equal self
    obtain rfl := Option.some.inj (source.symm.trans found)
    refine ⟨⟨m, by simpa [self] using becomes.view, .refl m⟩, m, ?_, .refl m⟩
    exact (becomes.others b (Ne.symm self)).trans source

/-- Whatever a program did before, a message is copied, and later adds to one of two
messages spare the other, exactly when no message with a written chunk is assigned to
itself and no add writes outside its array. -/
theorem copy_deep_iff {ops : List Op} {s : Memory}
    (reached : runSteps step Memory.empty ops = some s) (how : Copying) {a b x y : Place}
    {m : Message} (ready : how.Ready s a) (source : s.view b = some m) (apart : x ≠ y)
    (ps : List Param) :
    (∃ t, step s (how.op a b) = some t ∧ DeepCopy s t a b ∧
        Along (addTo x) (Spares x y) t ps) ↔
      (a = b → ¬ FirstWritten m) ∧
        ∀ t, step s (how.op a b) = some t → Along (addTo x) (StoresInside x) t ps := by
  have sound := sound_empty.run reached
  obtain ⟨t, made, becomes⟩ := how.step sound ready source
  have adds : Along (addTo x) (Spares x y) t ps ↔ Along (addTo x) (StoresInside x) t ps :=
    along_iff (I := Sound) (L := fun _ => True)
      (fun u q inv _ => spares_iff inv apart q)
      (fun u q v inv _ _ returned => Sound.step inv returned) becomes.sound fun _ _ => trivial
  rw [← deepCopy_iff source becomes]
  constructor
  · rintro ⟨u, made', deep, spared⟩
    obtain rfl := Option.some.inj (made.symm.trans made')
    refine ⟨deep, fun v made'' => ?_⟩
    obtain rfl := Option.some.inj (made.symm.trans made'')
    exact adds.mp spared
  · rintro ⟨deep, inside⟩
    exact ⟨t, made, deep, adds.mpr (inside t made)⟩

def twoMessages : List Op := [.construct 0 3, .construct 1 3, .add 1 (.int 5)]

theorem copy_deep_two : ∃ s t, runSteps step Memory.empty twoMessages = some s ∧
    step s (.assign 0 1) = some t ∧ DeepCopy s t 0 1 ∧
      Along (addTo 0) (Spares 0 1) t [.int 6, .int 7, .string (chars "abc")] := by
  have reached : runSteps step Memory.empty twoMessages = some _ := rfl
  obtain ⟨t, made, deep, spared⟩ := (copy_deep_iff reached .assigned
    (a := 0) (b := 1) (x := 0) (y := 1) rfl rfl (by decide)
    [.int 6, .int 7, .string (chars "abc")]).mpr
      ⟨fun equal => absurd equal (by decide), fun t made => by
        obtain rfl := Option.some.inj made
        decide⟩
  exact ⟨_, t, rfl, made, deep, spared⟩

/-- A number is lost when its message is assigned to itself. -/
theorem self_assignment_forgets : ∃ s t, runSteps step Memory.empty twoMessages = some s ∧
    step s (.assign 1 1) = some t ∧ (s.view 1).map (·.getInt 0) = some (.ok 5) ∧
      (t.view 1).map (·.getInt 0) = some (.error .undefined) ∧ ¬ DeepCopy s t 1 1 := by
  refine ⟨_, _, rfl, rfl, rfl, rfl, fun deep => ?_⟩
  obtain ⟨⟨n, found, same⟩, -⟩ := deep _ rfl
  obtain rfl := Option.some.inj found
  exact absurd (congrFun same.int 0) (by decide)

end Ssuge.MessageMemory

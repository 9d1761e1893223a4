import Ssuge.MessageGrowth
import Ssuge.OwnedPool
import Ssuge.Procedure

/-! Messages as objects in memory. Each points to an array that it shares with no other
message, and every array that was allocated is an object of its own. What an operation
does to the object and to its array is what it does to the message as a value, as long as
every cell that it writes lies in the array. A cell that is read past the end of an array
is indeterminate; one that is written there is the memory of something else. -/

namespace Ssuge.Message

open RecordedRun CString

/-- The full chunks of a string, which go to the cells from its number on, stay in the
array. -/
def StoresInside (m : Message) : Param → Prop
  | .string str => strlen str / 4 = 0 ∨
      ∀ m₁ ∈ (m.reserve (wordCount (strlen str))).value,
        m₁.mNumParam + strlen str / 4 ≤ m₁.mMaxChunks
  | _ => True

instance (m : Message) : (p : Param) → Decidable (m.StoresInside p)
  | .string _ => inferInstanceAs (Decidable (_ ∨ _))
  | .int _ | .float _ | .gameObject _ => isTrue trivial

end Ssuge.Message

namespace Ssuge.MessageMemory

open RecordedRun CString Procedure OwnedPool

abbrev Place := Nat

/-- The members of a message. An array that is `none` is the NULL pointer. -/
structure Object where
  mNumParam : Nat
  mNumChunks : Nat
  mMaxChunks : Nat
  mParams : Option Nat

structure Memory where
  arrays : Pool (List (Option DataItem))
  messages : Place → Option Object

inductive Trap
  | undefined
  | endless
deriving DecidableEq, Repr

abbrev MemoryProc := Proc Trap Memory

namespace Memory

def empty : Memory := ⟨Pool.empty, fun _ => none⟩

def setObject (s : Memory) (a : Place) (o : Object) : Memory :=
  { s with messages := Function.update s.messages a (some o) }

def setArray (s : Memory) (p : Nat) (cells : List (Option DataItem)) : Memory :=
  { s with arrays := s.arrays.set p cells }

def removeObject (s : Memory) (a : Place) : Memory :=
  { s with messages := Function.update s.messages a none }

def holds (s : Memory) (a : Place) : Option Nat := (s.messages a).bind Object.mParams

def view (s : Memory) (a : Place) : Option Message :=
  (s.messages a).bind fun o =>
    (o.mParams.bind s.arrays.get?).map fun cells => ⟨cells, o.mNumParam, o.mNumChunks⟩

end Memory

def object (a : Place) : MemoryProc Object := do
  orStop ((← get).messages a) .undefined

def setObject (a : Place) (o : Object) : MemoryProc Unit := modify fun s => s.setObject a o

def array (p : Option Nat) : MemoryProc (Nat × List (Option DataItem)) := do
  let s ← get
  orStop (p.bind fun i => (s.arrays.get? i).map fun cells => (i, cells)) .undefined

def newArray (size : Nat) : MemoryProc (Option Nat) := do
  let p := (← get).arrays.next
  modify fun s => { s with arrays := s.arrays.new (List.replicate size none) }
  pure (some p)

/-- `if (p) delete [] p;` -/
def deleteArray (p : Option Nat) : MemoryProc Unit :=
  match p with
  | none => pure ()
  | some i => do
      let _ ← array (some i)
      modify fun s => { s with arrays := s.arrays.delete i }

/-- `memcpy` of `n` cells, and the loop that copies them one by one. -/
def copyCells (target source : Option Nat) (n : Nat) : MemoryProc Unit := do
  let (_, cells) ← array source
  let (i, old) ← array target
  require (n ≤ old.length) .undefined
  modify fun s => s.setArray i (prefixCells cells n ++ old.drop n)

def storeCell (p : Option Nat) (i : Nat) (v : Option DataItem) : MemoryProc Unit := do
  let (p, cells) ← array p
  require (i < cells.length) .undefined
  modify fun s => s.setArray p (cells.set i v)

/-- `Message(int numChunks)` at a place where no message is yet. -/
def construct (a : Place) (numChunks : Nat) : MemoryProc Unit := do
  require ((← get).messages a).isNone .undefined
  let p ← newArray numChunks
  setObject a ⟨0, 0, numChunks, p⟩

/-- `initialize()` gives up an array that the message has. -/
def initializeMessage (a : Place) : MemoryProc Unit := do
  let p ← newArray Message.startChunkNum
  setObject a ⟨0, 0, Message.startChunkNum, p⟩

def destroy (a : Place) : MemoryProc Unit := do
  let o ← object a
  deleteArray o.mParams
  setObject a { o with mParams := none }

/-- `~Message()`, after which there is no message at the place. -/
def destruct (a : Place) : MemoryProc Unit := do
  destroy a
  modify fun s => s.removeObject a

/-- `Message(const Message & m)` -/
def copyConstruct (a b : Place) : MemoryProc Unit := do
  require ((← get).messages a).isNone .undefined
  let m ← object b
  let p ← newArray m.mMaxChunks
  setObject a ⟨m.mNumParam, m.mNumChunks, m.mMaxChunks, p⟩
  copyCells p m.mParams m.mMaxChunks

/-- `operator =`. The message `m` is read again after every write to `*this`. -/
def assign (a b : Place) : MemoryProc Unit := do
  deleteArray (← object a).mParams
  let m ← object b
  setObject a ⟨m.mNumParam, m.mNumChunks, m.mMaxChunks, (← object a).mParams⟩
  let p ← newArray (← object a).mMaxChunks
  setObject a { (← object a) with mParams := p }
  copyCells (← object a).mParams (← object b).mParams (← object a).mMaxChunks

def increaseSize (a : Place) : MemoryProc Unit := do
  let o ← object a
  let mMaxChunks ←
    orStop (Message.doubleLoop o.mNumChunks o.mNumChunks o.mMaxChunks) .endless
  let p ← newArray mMaxChunks
  setObject a { o with mMaxChunks := mMaxChunks, mParams := p }
  copyCells p o.mParams (o.mNumChunks - 1)
  deleteArray o.mParams

def reserve (a : Place) (chunks : Nat) : MemoryProc Unit := do
  let o ← object a
  setObject a { o with mNumChunks := o.mNumChunks + chunks }
  if o.mNumChunks + chunks > o.mMaxChunks then increaseSize a else pure ()

/-- The common body of `addInt`, `addFloat` and `addGameObject`. -/
def addItem (a : Place) (mType : Char) (mData : Word) : MemoryProc Unit := do
  reserve a 1
  let o ← object a
  storeCell o.mParams (o.mNumChunks - 1) (some ⟨mType, mData, Message.paramByte o.mNumParam⟩)
  setObject a { o with mNumParam := o.mNumParam + 1 }

def fullChunks (s : List (Option UInt8)) (mParams : Option Nat) (mNumParam : Nat) :
    Nat → MemoryProc Unit
  | 0 => pure ()
  | i + 1 => do
      fullChunks s mParams mNumParam i
      storeCell mParams (mNumParam + i)
        (some ⟨'s', wordAt s (4 * i), Message.paramByte mNumParam⟩)

def tailChunk (s : List (Option UInt8)) (length : Nat) (o : Object) : MemoryProc Unit :=
  if length % 4 ≠ 0 then
    storeCell o.mParams (o.mNumChunks - 1)
      (some ⟨'s', wordAt s (4 * (length / 4)), Message.paramByte o.mNumParam⟩)
  else pure ()

def addString (a : Place) (str : List UInt8) : MemoryProc Unit := do
  let s := buffer str
  let stringLength := strlen str
  reserve a (wordCount stringLength)
  let o ← object a
  fullChunks s o.mParams o.mNumParam (stringLength / 4)
  tailChunk s stringLength o
  setObject a { o with mNumParam := o.mNumParam + 1 }

def add (a : Place) : Param → MemoryProc Unit
  | .int i => addItem a 'i' (.ofUInt32 i.toUInt32)
  | .float f => addItem a 'f' (.ofUInt32 f.bits)
  | .gameObject g => addItem a 'g' (.ofUInt32 g)
  | .string str => addString a str

inductive Op
  | construct (a : Place) (numChunks : Nat)
  | initializeMessage (a : Place)
  | destruct (a : Place)
  | copyConstruct (a b : Place)
  | assign (a b : Place)
  | add (a : Place) (p : Param)

def Op.run : Op → MemoryProc Unit
  | .construct a numChunks => MessageMemory.construct a numChunks
  | .initializeMessage a => MessageMemory.initializeMessage a
  | .destruct a => MessageMemory.destruct a
  | .copyConstruct a b => MessageMemory.copyConstruct a b
  | .assign a b => MessageMemory.assign a b
  | .add a p => MessageMemory.add a p

def step (s : Memory) (op : Op) : Option Memory := (op.run.run s).resumes fun _ => false

/-- Messages own their arrays, and know how large these are. -/
structure Sound (s : Memory) : Prop where
  owned : Owned s.arrays s.holds
  pointed : ∀ a o, s.messages a = some o → o.mParams.isSome
  sized : ∀ a o p cells, s.messages a = some o → o.mParams = some p →
    s.arrays.get? p = some cells → cells.length = o.mMaxChunks

/-- Whatever else changes, only the message at `a` has another value, namely `m`. -/
structure Becomes (s t : Memory) (a : Place) (m : Message) : Prop where
  sound : Sound t
  view : t.view a = some m
  others : ∀ b, b ≠ a → t.view b = s.view b

theorem Becomes.trans {s t u : Memory} {a : Place} {m n : Message} (first : Becomes s t a m)
    (second : Becomes t u a n) : Becomes s u a n where
  sound := second.sound
  view := second.view
  others b apart := (second.others b apart).trans (first.others b apart)

theorem sound_empty : Sound Memory.empty where
  owned := owned_empty
  pointed a o live := by simp [Memory.empty] at live
  sized a o p cells live := by simp [Memory.empty] at live

def objectOf (m : Message) (p : Nat) : Object :=
  ⟨m.mNumParam, m.mNumChunks, m.mMaxChunks, some p⟩

theorem holds_of_object {s : Memory} {a : Place} {o : Object} {p : Nat}
    (object : s.messages a = some o) (pointer : o.mParams = some p) : s.holds a = some p := by
  simp [Memory.holds, object, pointer]

structure Located (s : Memory) (a : Place) (m : Message) (p : Nat) : Prop where
  object : s.messages a = some (objectOf m p)
  cells : s.arrays.get? p = some m.mParams

namespace Located

variable {s : Memory} {a : Place} {m : Message} {p : Nat}

theorem holds (at' : Located s a m p) : s.holds a = some p := by
  simp [Memory.holds, at'.object, objectOf]

theorem live (at' : Located s a m p) : (s.arrays.get? p).isSome := by
  simp [at'.cells]

theorem view (at' : Located s a m p) : s.view a = some m := by
  simp [Memory.view, at'.object, objectOf, at'.cells]

end Located

theorem Sound.located {s : Memory} (sound : Sound s) {a : Place} {m : Message}
    (view : s.view a = some m) : ∃ p, Located s a m p := by
  obtain ⟨o, object, rest⟩ := Option.bind_eq_some_iff.mp view
  obtain ⟨cells, read, rfl⟩ := Option.map_eq_some_iff.mp rest
  obtain ⟨p, pointer, read⟩ := Option.bind_eq_some_iff.mp read
  refine ⟨p, ?_, read⟩
  have size : cells.length = o.mMaxChunks := sound.sized a o p cells object pointer read
  rw [object, objectOf, Message.mMaxChunks, size, ← pointer]

theorem Sound.apart {s : Memory} (sound : Sound s) {a b : Place} {m : Message} {p q : Nat}
    (at' : Located s a m p) (other : b ≠ a) (held : s.holds b = some q) : q ≠ p := by
  rintro rfl
  exact other (sound.owned.distinct b a q held at'.holds)

theorem Sound.older {s : Memory} (sound : Sound s) {b : Place} {q : Nat}
    (held : s.holds b = some q) : q ≠ s.arrays.next :=
  Nat.ne_of_lt (Pool.lt_of_live (sound.owned.live b q held))

section updates

variable {s : Memory} {a : Place}

theorem holds_setObject (o : Object) :
    (s.setObject a o).holds = Function.update s.holds a o.mParams := by
  funext b
  by_cases same : b = a
  · subst same
    simp [Memory.holds, Memory.setObject]
  · simp [Memory.holds, Memory.setObject, same]

theorem holds_removeObject : (s.removeObject a).holds = Function.update s.holds a none := by
  funext b
  by_cases same : b = a
  · subst same
    simp [Memory.holds, Memory.removeObject]
  · simp [Memory.holds, Memory.removeObject, same]

theorem Sound.pointed_setObject (sound : Sound s) {o : Object} (array : o.mParams.isSome)
    (b : Place) (o' : Object) (live : (s.setObject a o).messages b = some o') :
    o'.mParams.isSome := by
  change Function.update s.messages a _ b = _ at live
  by_cases same : b = a
  · subst same
    rw [Function.update_self] at live
    obtain rfl := Option.some.inj live
    exact array
  · rw [Function.update_of_ne same] at live
    exact sound.pointed b o' live

theorem view_of_same {t : Memory} {b : Place} (object : t.messages b = s.messages b)
    (array : ∀ p, s.holds b = some p → t.arrays.get? p = s.arrays.get? p) :
    t.view b = s.view b := by
  rw [Memory.view, Memory.view, object]
  cases live : s.messages b with
  | none => rfl
  | some o =>
      cases pointer : o.mParams with
      | none => simp [pointer]
      | some p => simp [pointer, array p (holds_of_object live pointer)]

theorem Sound.write (sound : Sound s) {m : Message} {p : Nat} (at' : Located s a m p)
    (m' : Message) :
    Becomes s ((s.setArray p m'.mParams).setObject a (objectOf m' p)) a m' := by
  have reads : ∀ q, (s.arrays.set p m'.mParams).get? q =
      if q = p then some m'.mParams else s.arrays.get? q := Pool.get?_set at'.live _
  have owned : Owned (s.arrays.set p m'.mParams) s.holds := sound.owned.set at'.live _
  have holds : ((s.setArray p m'.mParams).setObject a (objectOf m' p)).holds = s.holds := by
    rw [holds_setObject]
    have kept : Function.update s.holds a (some p) = s.holds := by
      rw [← at'.holds, Function.update_eq_self]
    exact kept
  refine ⟨⟨?_, sound.pointed_setObject rfl, ?_⟩, ?_, ?_⟩
  · rw [holds]
    exact owned
  · intro b o q cells object pointer read
    change Function.update s.messages a _ b = _ at object
    change (s.arrays.set p m'.mParams).get? q = _ at read
    rw [reads] at read
    by_cases same : b = a
    · subst same
      rw [Function.update_self] at object
      obtain rfl := Option.some.inj object
      obtain rfl : p = q := Option.some.inj pointer
      rw [if_pos rfl] at read
      obtain rfl := Option.some.inj read
      rfl
    · rw [Function.update_of_ne same] at object
      rw [if_neg (sound.apart at' same (holds_of_object object pointer))] at read
      exact sound.sized b o q cells object pointer read
  · apply Located.view (p := p)
    refine ⟨Function.update_self .., ?_⟩
    exact (reads p).trans (if_pos rfl)
  · intro b apart
    apply view_of_same (Function.update_of_ne apart ..)
    intro q held
    exact (reads q).trans (if_neg (sound.apart at' apart held))

theorem Sound.move (sound : Sound s) (m : Message) :
    Becomes s { (s.setObject a (objectOf m s.arrays.next)) with
      arrays := s.arrays.new m.mParams } a m := by
  set t : Memory := { (s.setObject a (objectOf m s.arrays.next)) with
    arrays := s.arrays.new m.mParams } with t_eq
  have holds : t.holds = Function.update s.holds a (some s.arrays.next) :=
    holds_setObject (objectOf m s.arrays.next)
  refine ⟨⟨?_, sound.pointed_setObject rfl, ?_⟩, ?_, ?_⟩
  · rw [holds]
    exact sound.owned.assign _
  · intro b o q cells object pointer read
    change (s.arrays.new m.mParams).get? q = _ at read
    change Function.update s.messages a _ b = _ at object
    rw [Pool.get?_new] at read
    by_cases same : b = a
    · subst same
      rw [Function.update_self] at object
      obtain rfl := Option.some.inj object
      obtain rfl : s.arrays.next = q := Option.some.inj pointer
      rw [if_pos rfl] at read
      obtain rfl := Option.some.inj read
      rfl
    · rw [Function.update_of_ne same] at object
      rw [if_neg (sound.older (holds_of_object object pointer))] at read
      exact sound.sized b o q cells object pointer read
  · apply Located.view (p := s.arrays.next)
    refine ⟨Function.update_self .., ?_⟩
    exact (Pool.get?_new ..).trans (if_pos rfl)
  · intro b apart
    apply view_of_same (Function.update_of_ne apart ..)
    intro q held
    exact (Pool.get?_new ..).trans (if_neg (sound.older held))

theorem Sound.unheld (sound : Sound s) {m : Message} {p : Nat} (at' : Located s a m p)
    {o : Object} (pointer : o.mParams = some s.arrays.next) (b : Place) :
    (s.setObject a o).holds b ≠ some p := by
  intro held
  rw [holds_setObject] at held
  by_cases same : b = a
  · subst same
    rw [Function.update_self, pointer] at held
    exact sound.older at'.holds (Option.some.inj held).symm
  · rw [Function.update_of_ne same] at held
    exact sound.apart at' same held rfl

theorem Sound.discard (sound : Sound s) {p : Nat} (live : (s.arrays.get? p).isSome)
    (unheld : ∀ b, s.holds b ≠ some p) :
    Sound { s with arrays := s.arrays.delete p } ∧
      ∀ b, Memory.view { s with arrays := s.arrays.delete p } b = s.view b := by
  have reads : ∀ b q, s.holds b = some q → (s.arrays.delete p).get? q = s.arrays.get? q := by
    intro b q held
    have apart : q ≠ p := fun same => unheld b (same ▸ held)
    exact (Pool.get?_delete ..).trans (if_neg apart)
  refine ⟨⟨sound.owned.discard live unheld, sound.pointed, ?_⟩, fun b => view_of_same rfl (reads b)⟩
  intro b o q cells object pointer read
  have held : s.holds b = some q := holds_of_object object pointer
  exact sound.sized b o q cells object pointer ((reads b q held).symm.trans read)

theorem Sound.release (sound : Sound s) {m : Message} {p : Nat} (at' : Located s a m p) :
    Sound { (s.removeObject a) with arrays := s.arrays.delete p } ∧
      ∀ b, b ≠ a → Memory.view { (s.removeObject a) with arrays := s.arrays.delete p } b =
        s.view b := by
  have reads : ∀ b q, b ≠ a → s.holds b = some q →
      (s.arrays.delete p).get? q = s.arrays.get? q := by
    intro b q other held
    exact (Pool.get?_delete ..).trans (if_neg (sound.apart at' other held))
  have older : ∀ b o, (s.removeObject a).messages b = some o → b ≠ a ∧ s.messages b = some o := by
    intro b o live
    change Function.update s.messages a none b = _ at live
    by_cases same : b = a
    · subst same
      simp at live
    · exact ⟨same, by rwa [Function.update_of_ne same] at live⟩
  refine ⟨⟨?_, ?_, ?_⟩, fun b apart => view_of_same (Function.update_of_ne apart ..)
    (reads b · apart)⟩
  · change Owned (s.arrays.delete p) (s.removeObject a).holds
    rw [holds_removeObject]
    exact sound.owned.release at'.holds
  · intro b o live
    exact sound.pointed b o (older b o live).2
  · intro b o q cells live pointer read
    obtain ⟨other, object⟩ := older b o live
    have held : s.holds b = some q := holds_of_object object pointer
    exact sound.sized b o q cells object pointer ((reads b q other held).symm.trans read)

end updates

section runs

variable {s : Memory} {a : Place} {m : Message} {p : Nat}

theorem bind_array {α : Type} {cells : List (Option DataItem)} (read : s.arrays.get? p = some cells)
    (f : Nat × List (Option DataItem) → MemoryProc α) :
    (array (some p) >>= f).run s = (f (p, cells)).run s := by
  have found : (array (some p)).run s = .returned (p, cells) s := by
    simp only [array, bind_get_run, Option.bind_some, read, Option.map_some, orStop_some]
  exact bind_of_returned found f

theorem bind_object {α : Type} {o : Object} (live : s.messages a = some o)
    (f : Object → MemoryProc α) : (object a >>= f).run s = (f o).run s := by
  have found : (object a).run s = .returned o s := by
    simp only [object, bind_get_run, live, orStop_some]
  exact bind_of_returned found f

theorem bind_newArray {α : Type} (size : Nat) (f : Option Nat → MemoryProc α) :
    (newArray size >>= f).run s = (f (some s.arrays.next)).run
      { s with arrays := s.arrays.new (List.replicate size none) } := rfl

theorem bind_setObject {α : Type} (o : Object) (f : Unit → MemoryProc α) :
    (setObject a o >>= f).run s = (f ()).run (s.setObject a o) := rfl

theorem deleteArray_run {cells : List (Option DataItem)} (read : s.arrays.get? p = some cells) :
    (deleteArray (some p)).run s = .returned () { s with arrays := s.arrays.delete p } := by
  rw [deleteArray, bind_array read, modify_run]

theorem copyCells_run {i : Nat} {cells old : List (Option DataItem)} {n : Nat}
    (source : s.arrays.get? p = some cells) (target : s.arrays.get? i = some old)
    (room : n ≤ old.length) : (copyCells (some i) (some p) n).run s =
      .returned () (s.setArray i (prefixCells cells n ++ old.drop n)) := by
  rw [copyCells, bind_array source, bind_array target, bind_of_returned (require_pos room _ _),
    modify_run]

theorem storeCell_run {cells : List (Option DataItem)} (read : s.arrays.get? p = some cells)
    {i : Nat} (inside : i < cells.length) (v : Option DataItem) :
    (storeCell (some p) i v).run s = .returned () (s.setArray p (cells.set i v)) := by
  rw [storeCell, bind_array read, bind_of_returned (require_pos inside _ _), modify_run]

theorem storeCell_outside {cells : List (Option DataItem)} (read : s.arrays.get? p = some cells)
    {i : Nat} (outside : ¬ i < cells.length) (v : Option DataItem) :
    (storeCell (some p) i v).run s = .stopped .undefined s := by
  rw [storeCell, bind_array read, bind_of_stopped (require_neg outside _ _)]

theorem increaseSize_value {size : Nat}
    (ended : Message.doubleLoop m.mNumChunks m.mNumChunks m.mMaxChunks = some size) :
    m.increaseSize.value = some { m with
      mParams := prefixCells m.mParams (m.mNumChunks - 1) ++
        (List.replicate size none).drop (m.mNumChunks - 1) } := by
  have room : m.mNumChunks - 1 ≤ (List.replicate size (none : Option DataItem)).length := by
    have enough := (Message.doubleLoop_result ended).1
    rw [List.length_replicate]
    omega
  have sized : (ofOption (Message.doubleLoop m.mNumChunks m.mNumChunks m.mMaxChunks)).value =
      some size := ended
  rw [Message.increaseSize, bind_value_of sized, bind_value_of (copyLoop_value _ _ _ room),
    pure_value]

/-- The array of a message grows as that of its value does. -/
theorem increaseSize_run (sound : Sound s) (at' : Located s a m p) :
    (∃ m' t, m.increaseSize.value = some m' ∧ (increaseSize a).run s = .returned () t ∧
        Becomes s t a m') ∨
      m.increaseSize.value = none ∧ (increaseSize a).run s = .stopped .endless s := by
  cases ended : Message.doubleLoop m.mNumChunks m.mNumChunks m.mMaxChunks with
  | none =>
      right
      constructor
      · rw [Message.increaseSize, bind_value]
        simp [ofOption, ended]
      · rw [increaseSize, bind_object at'.object]
        simp only [objectOf, ended, bind_none_run]
  | some size =>
      left
      set cells := prefixCells m.mParams (m.mNumChunks - 1) ++
        (List.replicate size none).drop (m.mNumChunks - 1) with cells_eq
      set m' : Message := { m with mParams := cells } with m'_eq
      have enough := (Message.doubleLoop_result ended).1
      have length : cells.length = size := by
        simp only [cells_eq, List.length_append, prefixCells_length, List.length_drop,
          List.length_replicate]
        omega
      have older := sound.older at'.holds
      have moved := sound.move (a := a) m'
      set grown : Memory := { (s.setObject a (objectOf m' s.arrays.next)) with
        arrays := s.arrays.new m'.mParams } with grown_eq
      have still : grown.arrays.get? p = some m.mParams := by
        rw [grown_eq, Pool.get?_new, if_neg older, at'.cells]
      obtain ⟨after, views⟩ :=
        moved.sound.discard (by rw [still]; rfl) (sound.unheld at' rfl)
      refine ⟨m', { grown with arrays := grown.arrays.delete p }, increaseSize_value ended, ?_,
        after, (views a).trans moved.view, fun b apart => (views b).trans (moved.others b apart)⟩
      have copied : (copyCells (some s.arrays.next) (some p) (m.mNumChunks - 1)).run
          { (s.setObject a ⟨m.mNumParam, m.mNumChunks, size, some s.arrays.next⟩) with
            arrays := s.arrays.new (List.replicate size none) } = .returned () grown := by
        rw [copyCells_run ((Pool.get?_new ..).trans ((if_neg older).trans at'.cells))
          ((Pool.get?_new ..).trans (if_pos rfl))]
        · simp only [Memory.setArray, Pool.set_new, grown_eq, objectOf, Message.mMaxChunks,
            m'_eq, length, ← cells_eq]
        · rw [List.length_replicate]
          omega
      rw [increaseSize, bind_object at'.object]
      simp only [objectOf, ended, bind_some_run]
      rw [bind_newArray, bind_setObject]
      refine (bind_of_returned copied _).trans ?_
      exact deleteArray_run still

theorem reserve_run (sound : Sound s) (at' : Located s a m p) (n : Nat) :
    (∃ m' t, (m.reserve n).value = some m' ∧ (reserve a n).run s = .returned () t ∧
        Becomes s t a m') ∨
      (m.reserve n).value = none ∧ ∃ t, (reserve a n).run s = .stopped .endless t := by
  set counted : Message := { m with mNumChunks := m.mNumChunks + n } with counted_eq
  have counts : Becomes s (s.setObject a (objectOf counted p)) a counted := by
    have written := sound.write at' counted
    have same : s.setArray p counted.mParams = s := by
      rw [Memory.setArray, Pool.set_self at'.cells]
    rwa [same] at written
  have shape : (reserve a n).run s = (if m.mNumChunks + n > m.mMaxChunks then increaseSize a
      else pure ()).run (s.setObject a (objectOf counted p)) := by
    rw [reserve, bind_object at'.object, bind_setObject]
    rfl
  by_cases grows : m.mNumChunks + n > m.mMaxChunks
  · have value : m.reserve n = counted.increaseSize := if_pos grows
    rw [shape, if_pos grows, value]
    obtain ⟨q, located⟩ := counts.sound.located counts.view
    rcases increaseSize_run counts.sound located with ⟨m', t, value, run, becomes⟩ | ⟨value, run⟩
    · exact .inl ⟨m', t, value, run, counts.trans becomes⟩
    · exact .inr ⟨value, _, run⟩
  · have value : m.reserve n = pure counted := if_neg grows
    rw [shape, if_neg grows, value]
    exact .inl ⟨counted, _, rfl, rfl, counts⟩

theorem fullChunks_run (str : List (Option UInt8)) (k n : Nat) {cells : List (Option DataItem)}
    (read : s.arrays.get? p = some cells) :
    ∃ written, (Message.fullChunkLoop str k n cells).value = some written ∧
      written.length = cells.length ∧
      (n = 0 ∨ k + n ≤ cells.length →
        (fullChunks str (some p) k n).run s = .returned () (s.setArray p written)) ∧
      (¬ (n = 0 ∨ k + n ≤ cells.length) →
        ∃ t, (fullChunks str (some p) k n).run s = .stopped .undefined t) := by
  induction n with
  | zero =>
      refine ⟨cells, rfl, rfl, fun _ => ?_, fun outside => absurd (.inl rfl) outside⟩
      rw [Memory.setArray, Pool.set_self read]
      rfl
  | succ n ih =>
      obtain ⟨written, value, length, inside, outside⟩ := ih
      refine ⟨written.set (k + n) (some ⟨'s', wordAt str (4 * n), Message.paramByte k⟩), ?_, ?_,
        ?_, ?_⟩
      · rw [Message.fullChunkLoop, bind_value_of value, bind_value_of (loadWord_value _ _),
          store_value]
      · rw [List.length_set, length]
      · intro room
        have before := inside (by omega)
        have read' : (s.setArray p written).arrays.get? p = some written :=
          (Pool.get?_set (by rw [read]; rfl) _ _).trans (if_pos rfl)
        rw [fullChunks, bind_of_returned before, storeCell_run read' (by omega)]
        simp only [Memory.setArray, Pool.set_set]
      · intro tight
        by_cases earlier : n = 0 ∨ k + n ≤ cells.length
        · refine ⟨s.setArray p written, ?_⟩
          have read' : (s.setArray p written).arrays.get? p = some written :=
            (Pool.get?_set (by rw [read]; rfl) _ _).trans (if_pos rfl)
          rw [fullChunks, bind_of_returned (inside earlier), storeCell_outside read' (by omega)]
        · obtain ⟨t, stopped⟩ := outside earlier
          exact ⟨t, by rw [fullChunks, bind_of_stopped stopped]⟩

end runs

section adds

variable {s : Memory} {a : Place} {m : Message} {p : Nat}

/-- How an add ends: as that of the value does, unless it writes outside the array. -/
inductive Added (s : Memory) (a : Place) (m : Message) (q : Param) (e : Ending Trap Memory Unit) :
    Prop
  | returned (m' : Message) (t : Memory) (value : m.addStep q = some m')
      (inside : m.StoresInside q) (run : e = .returned () t) (becomes : Becomes s t a m')
  | outside (stored : ¬ m.StoresInside q) (t : Memory) (run : e = .stopped .undefined t)
  | endless (value : m.addStep q = none) (inside : m.StoresInside q) (t : Memory)
      (run : e = .stopped .endless t)

theorem numParam_objectOf (m : Message) (p : Nat) {cells : List (Option DataItem)}
    (size : cells.length = m.mMaxChunks) :
    { objectOf m p with mNumParam := m.mNumParam + 1 } =
      objectOf { m with mParams := cells, mNumParam := m.mNumParam + 1 } p := by
  simp only [objectOf]
  rw [← size]
  rfl

theorem addItem_run (sound : Sound s) (at' : Located s a m p) (mType : Char) (mData : Word) :
    (∃ m' t, (m.addItem mType mData).value = some m' ∧
        (addItem a mType mData).run s = .returned () t ∧ Becomes s t a m') ∨
      (m.addItem mType mData).value = none ∧
        ∃ t, (addItem a mType mData).run s = .stopped .endless t := by
  rcases reserve_run sound at' 1 with ⟨m₁, t, reserved, run, becomes⟩ | ⟨stuck, t, run⟩
  · left
    obtain ⟨q, located⟩ := becomes.sound.located becomes.view
    obtain ⟨chunks, fits, -⟩ := Message.reserve_counts reserved
    have inside : m₁.mNumChunks - 1 < m₁.mParams.length := by
      rw [Message.mMaxChunks] at fits
      omega
    set item : Option DataItem := some ⟨mType, mData, Message.paramByte m₁.mNumParam⟩
    set m₂ : Message := { m₁ with
      mParams := m₁.mParams.set (m₁.mNumChunks - 1) item
      mNumParam := m₁.mNumParam + 1 } with m₂_eq
    have written := becomes.sound.write located m₂
    refine ⟨m₂, _, ?_, ?_, becomes.trans written⟩
    · rw [Message.addItem, bind_value_of reserved, bind_value_of (store_value _ _ _), pure_value]
    · have stored := storeCell_run located.cells inside item
      have capacity : m₂.mMaxChunks = m₁.mMaxChunks := List.length_set ..
      rw [addItem, bind_of_returned run, bind_object located.object]
      refine (bind_of_returned stored _).trans ?_
      have counted := numParam_objectOf m₁ q capacity
      exact congrArg (fun o => Ending.returned () (Memory.setObject _ a o)) counted
  · right
    refine ⟨?_, t, ?_⟩
    · rw [Message.addItem, bind_value, stuck, Option.bind_none]
    · rw [addItem, bind_of_stopped run]

theorem tailChunk_run {cells : List (Option DataItem)} (str : List (Option UInt8)) (length : Nat)
    (read : s.arrays.get? p = some cells)
    (inside : length % 4 ≠ 0 → m.mNumChunks - 1 < cells.length) :
    ∃ tailed, (Message.tailChunk str length { m with mParams := cells }).value = some tailed ∧
      tailed.length = cells.length ∧
      (tailChunk str length (objectOf m p)).run s = .returned () (s.setArray p tailed) := by
  by_cases whole : length % 4 ≠ 0
  · set item : Option DataItem :=
      some ⟨'s', wordAt str (4 * (length / 4)), Message.paramByte m.mNumParam⟩
    refine ⟨cells.set (m.mNumChunks - 1) item, ?_, List.length_set .., ?_⟩
    · rw [Message.tailChunk, if_pos whole, bind_value_of (loadWord_value _ _), store_value]
    · rw [tailChunk, if_pos whole]
      exact storeCell_run read (inside whole) item
  · refine ⟨cells, ?_, rfl, ?_⟩
    · rw [Message.tailChunk, if_neg whole, pure_value]
    · rw [tailChunk, if_neg whole, Memory.setArray, Pool.set_self read]
      rfl

/-- The full chunks have room in the array that the message has after it made room for all. -/
theorem storesInside_string_iff {str : List UInt8} {m₁ : Message}
    (reserved : (m.reserve (wordCount (strlen str))).value = some m₁) :
    m.StoresInside (.string str) ↔
      strlen str / 4 = 0 ∨ m₁.mNumParam + strlen str / 4 ≤ m₁.mParams.length := by
  refine or_congr_right ⟨fun all => all m₁ reserved, fun room m₂ reserved₂ => ?_⟩
  obtain rfl := Option.some.inj (reserved.symm.trans reserved₂)
  exact room

theorem addString_run (sound : Sound s) (at' : Located s a m p) (str : List UInt8) :
    Added s a m (.string str) ((addString a str).run s) := by
  rcases reserve_run sound at' (wordCount (strlen str)) with
    ⟨m₁, t, reserved, run, becomes⟩ | ⟨stuck, t, run⟩
  · obtain ⟨q, located⟩ := becomes.sound.located becomes.view
    obtain ⟨chunks, fits, -⟩ := Message.reserve_counts reserved
    obtain ⟨written, value, size, inside, outside⟩ :=
      fullChunks_run (buffer str) m₁.mNumParam (strlen str / 4) located.cells
    have opened : (addString a str).run s = (fullChunks (buffer str) (some q) m₁.mNumParam
        (strlen str / 4) >>= fun _ => tailChunk (buffer str) (strlen str) (objectOf m₁ q) >>=
          fun _ => setObject a { objectOf m₁ q with mNumParam := m₁.mNumParam + 1 }).run t := by
      rw [addString, bind_of_returned run, bind_object located.object]
      rfl
    have stored := storesInside_string_iff reserved
    by_cases room : strlen str / 4 = 0 ∨ m₁.mNumParam + strlen str / 4 ≤ m₁.mParams.length
    · have full := inside room
      have reads : (t.setArray q written).arrays.get? q = some written :=
        (Pool.get?_set located.live _ _).trans (if_pos rfl)
      have last : strlen str % 4 ≠ 0 → m₁.mNumChunks - 1 < written.length := by
        intro more
        have counted : 0 < wordCount (strlen str) := by
          rw [wordCount, if_neg more]
          omega
        rw [Message.mMaxChunks] at fits
        omega
      obtain ⟨tailed, tailValue, tailSize, tail⟩ :=
        tailChunk_run (m := m₁) (buffer str) (strlen str) reads last
      set m₂ : Message := { m₁ with
        mParams := tailed
        mNumParam := m₁.mNumParam + 1 } with m₂_eq
      have result := becomes.sound.write located m₂
      refine .returned m₂ _ ?_ (stored.mpr room) ?_ (becomes.trans result)
      · change (m.addString str).value = some m₂
        rw [Message.addString, bind_value_of reserved, bind_value_of value,
          bind_value_of tailValue, pure_value]
      · have capacity : m₂.mMaxChunks = m₁.mMaxChunks := tailSize.trans size
        have twice : (t.setArray q written).setArray q tailed = t.setArray q tailed := by
          simp only [Memory.setArray, Pool.set_set]
        rw [opened, bind_of_returned full, bind_of_returned tail, twice,
          numParam_objectOf m₁ q capacity]
        rfl
    · obtain ⟨u, stopped⟩ := outside room
      refine .outside (fun within => room (stored.mp within)) u ?_
      rw [opened, bind_of_stopped stopped]
  · refine .endless ?_ (.inr fun m₁ reserved => ?_) t ?_
    · change (m.addString str).value = none
      rw [Message.addString, bind_value, stuck, Option.bind_none]
    · simp [stuck] at reserved
    · rw [addString, bind_of_stopped run]

theorem add_run (sound : Sound s) (at' : Located s a m p) (q : Param) :
    Added s a m q ((add a q).run s) := by
  have item : ∀ (mType : Char) (mData : CString.Word), m.add q = m.addItem mType mData →
      add a q = addItem a mType mData → m.StoresInside q → Added s a m q ((add a q).run s) := by
    intro mType mData value run inside
    rcases addItem_run sound at' mType mData with
      ⟨m', t, returned, ended, becomes⟩ | ⟨stuck, t, ended⟩
    · exact .returned m' t (by rw [Message.addStep, value, returned]) inside (by rw [run, ended])
        becomes
    · exact .endless (by rw [Message.addStep, value, stuck]) inside t (by rw [run, ended])
  cases q with
  | string str => exact addString_run sound at' str
  | int i => exact item _ _ rfl rfl trivial
  | float f => exact item _ _ rfl rfl trivial
  | gameObject g => exact item _ _ rfl rfl trivial

end adds

end Ssuge.MessageMemory

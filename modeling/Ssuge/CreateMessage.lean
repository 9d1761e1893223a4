import Mathlib.Algebra.GroupWithZero.Nat
import Ssuge.MessageGaps

/-! `createMessage`. It walks its format twice, each time with a fresh `va_list`: to
count the chunks, and to store the arguments. A `va_list` is a position on the
stack, in words of four bytes, and a `va_arg` advances it by the size of the type
that it names. A `float` is passed as a `double`, which takes two words. The first
pass reads it as a `float`, so what comes after it is read from the wrong place.
The counters are exact naturals, as those of a message. -/

namespace Ssuge.CreateMessage

open RecordedRun CString GuardedRun Message

/-- What a `char *` that may be read points to. -/
abbrev CStr := { s : List UInt8 // NulFree s }

/-- The words on the stack after `initString`, and the strings in memory. -/
structure Memory where
  stack : Nat → UInt32
  strings : Ptr → Option CStr

/-- The labels of both switches. -/
inductive Conversion
  | s
  | i
  | f
  | g
deriving DecidableEq, Repr

def conversion (c : UInt8) : Option Conversion :=
  if c = 's'.toUInt8 ∨ c = 'S'.toUInt8 then some .s
  else if c = 'i'.toUInt8 ∨ c = 'I'.toUInt8 then some .i
  else if c = 'f'.toUInt8 ∨ c = 'F'.toUInt8 then some .f
  else if c = 'g'.toUInt8 ∨ c = 'G'.toUInt8 then some .g
  else none

variable (mem : Memory)

/-- A pass over the format: where its `va_list` stands, where it has read so far, and
what it computes. -/
structure Pass (α : Type) where
  argumentList : Nat
  reads : List Nat
  result : α

variable {α : Type}

/-- A `va_arg` of `size` words. -/
def Pass.read (p : Pass α) (size : Nat) (result : α) : Pass α :=
  ⟨p.argumentList + size, p.reads ++ [p.argumentList], result⟩

/-- One round of the loop that counts. -/
def countArgument (p : Pass Nat) (c : UInt8) : Option (Pass Nat) :=
  match conversion c with
  | none => some p
  | some .s => do
      let valS ← mem.strings (mem.stack p.argumentList)
      some (p.read 1 (p.result + wordCount (strlen valS.1)))
  | some .i => some (p.read 1 (p.result + 1))
  | some .f => some (p.read 1 (p.result + 1))
  | some .g => some (p.read 1 (p.result + 1))

def Memory.double (at_ : Nat) : UInt64 :=
  UInt64.ofNat ((mem.stack at_).toNat + 2 ^ 32 * (mem.stack (at_ + 1)).toNat)

/-- One round of the loop that stores. -/
def storeArgument (p : Pass Message) (c : UInt8) : Option (Pass Message) :=
  match conversion c with
  | none => some p
  | some .s => do
      let valS ← mem.strings (mem.stack p.argumentList)
      let toReturn ← (p.result.addString valS.1).value
      some (p.read 1 toReturn)
  | some .i => do
      let toReturn ← (p.result.addInt (mem.stack p.argumentList).toInt32).value
      some (p.read 1 toReturn)
  | some .f => do
      let toReturn ← (p.result.addFloat (.ofDouble (mem.double p.argumentList))).value
      some (p.read 2 toReturn)
  | some .g => do
      let toReturn ← (p.result.addGameObject (mem.stack p.argumentList)).value
      some (p.read 1 toReturn)

def countingPass (initString : List UInt8) : Option (Pass Nat) :=
  runSteps (countArgument mem) ⟨0, [], 0⟩ initString

def storingPass (initNumChunks : Nat) (initString : List UInt8) : Option (Pass Message) :=
  runSteps (storeArgument mem) ⟨0, [], ofSize initNumChunks⟩ initString

def createMessage (initString : List UInt8) : Option Message := do
  let counted ← countingPass mem initString
  let stored ← storingPass mem counted.result initString
  some stored.result

/-- An argument as it is passed; a `float` is promoted. -/
inductive Arg
  | string (p : Ptr) (s : CStr)
  | int (i : Int32)
  | float (d : UInt64)
  | gameObject (g : Ptr)

namespace Arg

def conversion : Arg → Conversion
  | string .. => .s
  | int _ => .i
  | float _ => .f
  | gameObject _ => .g

def param : Arg → Param
  | string _ s => .string s.1
  | int i => .int i
  | float d => .float (.ofDouble d)
  | gameObject g => .gameObject g

def At (at_ : Nat) : Arg → Prop
  | string p s => mem.stack at_ = p ∧ mem.strings p = some s
  | int i => (mem.stack at_).toInt32 = i
  | float d => mem.double at_ = d
  | gameObject g => mem.stack at_ = g

theorem param_nulFree (arg : Arg) : arg.param.NulFree := by
  cases arg with
  | string p s => exact s.2
  | _ => trivial

end Arg

def countedSize : Conversion → Nat := fun _ => 1

def storedSize : Conversion → Nat
  | .f => 2
  | _ => 1

def Placed : Nat → List Arg → Prop
  | _, [] => True
  | at_, arg :: args => arg.At mem at_ ∧ Placed (at_ + storedSize arg.conversion) args

structure Matching (initString : List UInt8) (args : List Arg) : Prop where
  kinds : initString.filterMap conversion = args.map Arg.conversion
  placed : Placed mem 0 args

/-- Both passes return after reading at the same positions, the first counts the chunks
of the message, and the array keeps the counted size. -/
def PassesAgree (initString : List UInt8) : Prop :=
  ∃ counted stored, countingPass mem initString = some counted ∧
    storingPass mem counted.result initString = some stored ∧
    counted.reads = stored.reads ∧ counted.result = stored.result.mNumChunks ∧
    Throughout (storeArgument mem) (fun p => p.result.mMaxChunks = counted.result)
      ⟨0, [], ofSize counted.result⟩ initString

def FloatLast (initString : List UInt8) : Prop :=
  initString.Pairwise fun c d => conversion c = some .f → conversion d = none

instance (initString : List UInt8) : Decidable (FloatLast initString) := by
  unfold FloatLast
  infer_instance

section reads

def readsFrom (size : Conversion → Nat) : Nat → List UInt8 → List Nat
  | _, [] => []
  | at_, c :: rest =>
      match conversion c with
      | none => readsFrom size at_ rest
      | some k => at_ :: readsFrom size (at_ + size k) rest

def Advances (size : Conversion → Nat) (round : Pass α → UInt8 → Option (Pass α)) : Prop :=
  ∀ p c p', round p c = some p' →
    match conversion c with
    | none => p' = p
    | some k => ∃ result, p' = p.read (size k) result

theorem countArgument_advances : Advances countedSize (countArgument mem) := by
  intro p c p' returned
  unfold countArgument at returned
  cases kind : conversion c with
  | none => simpa [kind] using returned.symm
  | some k =>
      cases k with
      | s =>
          simp only [kind] at returned
          obtain ⟨valS, -, read⟩ := Option.bind_eq_some_iff.mp returned
          exact ⟨_, (Option.some.inj read).symm⟩
      | _ =>
          simp only [kind] at returned
          exact ⟨_, (Option.some.inj returned).symm⟩

theorem storeArgument_advances : Advances storedSize (storeArgument mem) := by
  intro p c p' returned
  unfold storeArgument at returned
  cases kind : conversion c with
  | none => simpa [kind] using returned.symm
  | some k =>
      cases k with
      | s =>
          simp only [kind] at returned
          obtain ⟨valS, -, added⟩ := Option.bind_eq_some_iff.mp returned
          obtain ⟨toReturn, -, read⟩ := Option.bind_eq_some_iff.mp added
          exact ⟨toReturn, (Option.some.inj read).symm⟩
      | _ =>
          simp only [kind] at returned
          obtain ⟨toReturn, -, read⟩ := Option.bind_eq_some_iff.mp returned
          exact ⟨toReturn, (Option.some.inj read).symm⟩

theorem reads_of_run {size : Conversion → Nat} {round : Pass α → UInt8 → Option (Pass α)}
    (advances : Advances size round) {p p' : Pass α} {initString : List UInt8}
    (run : runSteps round p initString = some p') :
    p'.reads = p.reads ++ readsFrom size p.argumentList initString := by
  induction initString generalizing p with
  | nil =>
      obtain rfl := Option.some.inj run
      simp [readsFrom]
  | cons c rest ih =>
      obtain ⟨next, returned, later⟩ := Option.bind_eq_some_iff.mp run
      have step := advances p c next returned
      rw [ih later, readsFrom]
      cases kind : conversion c with
      | none =>
          simp only [kind] at step
          rw [step]
      | some k =>
          simp only [kind] at step
          obtain ⟨result, rfl⟩ := step
          simp [Pass.read]

theorem readsFrom_apart {size size' : Conversion → Nat} {at_ at' : Nat} (apart : at_ ≠ at')
    {initString : List UInt8} :
    readsFrom size at_ initString = readsFrom size' at' initString ↔
      ∀ c ∈ initString, conversion c = none := by
  induction initString with
  | nil => simp [readsFrom]
  | cons c rest ih =>
      cases kind : conversion c with
      | none => simp [readsFrom, kind, ih]
      | some k => simp [readsFrom, kind, apart]

/-- The two passes read at the same positions exactly when nothing comes after a float. -/
theorem readsFrom_eq_iff (at_ : Nat) (initString : List UInt8) :
    readsFrom countedSize at_ initString = readsFrom storedSize at_ initString ↔
      FloatLast initString := by
  induction initString generalizing at_ with
  | nil => simp [readsFrom, FloatLast]
  | cons c rest ih =>
      rw [FloatLast, List.pairwise_cons, ← FloatLast]
      cases kind : conversion c with
      | none => simp [readsFrom, kind, ih]
      | some k =>
          by_cases float : k = .f
          · subst float
            have apart : at_ + countedSize .f ≠ at_ + storedSize .f := by
              simp [countedSize, storedSize]
            simp only [readsFrom, kind, List.cons.injEq, true_and, readsFrom_apart apart,
              forall_const]
            refine ⟨fun nothing => ⟨nothing, ?_⟩, fun both => both.1⟩
            exact List.Pairwise.imp_of_mem (R := fun _ _ => True)
              (fun _ later _ _ => nothing _ later) (List.pairwise_of_forall fun _ _ => trivial)
          · have same : countedSize k = storedSize k := by
              cases k <;> simp_all [countedSize, storedSize]
            simp [readsFrom, kind, same, ih, float]

end reads

section room

theorem reserve_room {m : Message} {n : Nat} (room : m.mNumChunks + n ≤ m.mMaxChunks) :
    m.reserve n = pure { m with mNumChunks := m.mNumChunks + n } :=
  if_neg (Nat.not_lt.mpr room)

theorem tailChunk_value (s : List (Option UInt8)) (length : Nat) (m : Message) :
    ∃ cells, (tailChunk s length m).value = some cells ∧ cells.length = m.mParams.length := by
  unfold tailChunk
  split
  · refine ⟨m.mParams.set (m.mNumChunks - 1)
      (some ⟨'s', wordAt s (4 * (length / 4)), paramByte m.mNumParam⟩), ?_, List.length_set ..⟩
    rw [bind_value_of (loadWord_value _ _), store_value]
  · exact ⟨_, pure_value _, rfl⟩

def KeepsCounters (m₁ : Message) (added : Option Message) : Prop :=
  ∃ m', added = some m' ∧ m'.mNumChunks = m₁.mNumChunks ∧ m'.mMaxChunks = m₁.mMaxChunks

theorem addItem_value {m m₁ : Message} {mType : Char} {mData : Word}
    (reserved : (m.reserve 1).value = some m₁) :
    KeepsCounters m₁ (m.addItem mType mData).value := by
  refine ⟨{ m₁ with
    mParams := m₁.mParams.set (m₁.mNumChunks - 1) (some ⟨mType, mData, paramByte m₁.mNumParam⟩)
    mNumParam := m₁.mNumParam + 1 }, ?_, rfl, by simp [mMaxChunks]⟩
  rw [addItem, bind_value_of reserved, bind_value_of (store_value _ _ _), pure_value]

theorem addString_value {m m₁ : Message} {s : List UInt8} (nulFree : CString.NulFree s)
    (reserved : (m.reserve (wordCount s.length)).value = some m₁) :
    KeepsCounters m₁ (m.addString s).value := by
  obtain ⟨full, looped, length, -⟩ :=
    fullChunkLoop_spec (buffer s) m₁.mNumParam (s.length / 4) m₁.mParams
  obtain ⟨cells, tailed, length'⟩ :=
    tailChunk_value (buffer s) s.length { m₁ with mParams := full }
  refine ⟨{ m₁ with mParams := cells, mNumParam := m₁.mNumParam + 1 }, ?_, rfl, ?_⟩
  · unfold addString
    rw [strlen_of_nulFree nulFree, bind_value_of reserved, bind_value_of looped,
      bind_value_of tailed, pure_value]
  · rw [mMaxChunks, length', length, mMaxChunks]

theorem add_value {m m₁ : Message} {p : Param} (nulFree : p.NulFree)
    (reserved : (m.reserve p.chunkCount).value = some m₁) :
    KeepsCounters m₁ (addStep m p) := by
  cases p with
  | string s => exact addString_value nulFree reserved
  | _ => exact addItem_value reserved

theorem add_room {m : Message} {p : Param} (nulFree : p.NulFree)
    (room : m.mNumChunks + p.chunkCount ≤ m.mMaxChunks) :
    ∃ m', addStep m p = some m' ∧ m'.mNumChunks = m.mNumChunks + p.chunkCount ∧
      m'.mMaxChunks = m.mMaxChunks := by
  have reserved : (m.reserve p.chunkCount).value =
      some { m with mNumChunks := m.mNumChunks + p.chunkCount } := by
    rw [reserve_room room, pure_value]
  exact add_value nulFree reserved

end room

section matching

variable {mem : Memory}

theorem countArgument_arg {c : UInt8} {arg : Arg} (kind : conversion c = some arg.conversion)
    {p : Pass Nat} (lies : arg.At mem p.argumentList) :
    countArgument mem p c = some (p.read 1 (p.result + arg.param.chunkCount)) := by
  cases arg with
  | string q s =>
      have read : mem.strings (mem.stack p.argumentList) = some s := lies.1 ▸ lies.2
      simp [countArgument, kind, Arg.conversion, read, Arg.param, Param.chunkCount,
        strlen_of_nulFree s.2]
  | _ => simp [countArgument, kind, Arg.conversion, Arg.param, Param.chunkCount]

theorem storeArgument_arg {c : UInt8} {arg : Arg} (kind : conversion c = some arg.conversion)
    {p : Pass Message} (lies : arg.At mem p.argumentList) :
    storeArgument mem p c =
      (addStep p.result arg.param).map fun m => p.read (storedSize arg.conversion) m := by
  cases arg with
  | string q s =>
      have read : mem.strings (mem.stack p.argumentList) = some s := lies.1 ▸ lies.2
      simp only [storeArgument, kind, Arg.conversion, read]
      exact (Option.map_eq_bind ..).symm
  | int i =>
      simp only [storeArgument, kind, Arg.conversion, ← show _ = i from lies]
      exact (Option.map_eq_bind ..).symm
  | float d =>
      simp only [storeArgument, kind, Arg.conversion, ← show _ = d from lies]
      exact (Option.map_eq_bind ..).symm
  | gameObject g =>
      simp only [storeArgument, kind, Arg.conversion, ← show _ = g from lies]
      exact (Option.map_eq_bind ..).symm

def chunksOf (args : List Arg) : Nat := (args.map fun arg => arg.param.chunkCount).sum

theorem kinds_cons {c : UInt8} {k : Conversion} {rest : List UInt8} {args : List Arg}
    (kind : conversion c = some k)
    (kinds : (c :: rest).filterMap conversion = args.map Arg.conversion) :
    ∃ arg args', args = arg :: args' ∧ conversion c = some arg.conversion ∧
      rest.filterMap conversion = args'.map Arg.conversion := by
  rw [List.filterMap_cons_some kind] at kinds
  cases args with
  | nil => simp at kinds
  | cons arg args' =>
      obtain ⟨rfl, later⟩ := List.cons.inj kinds
      exact ⟨arg, args', rfl, kind, later⟩

theorem chunksOf_cons (arg : Arg) (args : List Arg) :
    chunksOf (arg :: args) = arg.param.chunkCount + chunksOf args := by
  simp [chunksOf]

theorem storing_matching {initString : List UInt8} {args : List Arg} {p : Pass Message}
    (kinds : initString.filterMap conversion = args.map Arg.conversion)
    (placed : Placed mem p.argumentList args)
    (room : p.result.mNumChunks + chunksOf args ≤ p.result.mMaxChunks) :
    ∃ p', runSteps (storeArgument mem) p initString = some p' ∧
      p'.result.mNumChunks = p.result.mNumChunks + chunksOf args ∧
      Throughout (storeArgument mem) (fun q => q.result.mMaxChunks = p.result.mMaxChunks)
        p initString := by
  induction initString generalizing p args with
  | nil =>
      obtain rfl : args = [] := by simpa using kinds.symm
      exact ⟨p, rfl, rfl, throughout_nil.mpr rfl⟩
  | cons c rest ih =>
      cases kind : conversion c with
      | none =>
          have skip : storeArgument mem p c = some p := by simp [storeArgument, kind]
          rw [List.filterMap_cons_none kind] at kinds
          obtain ⟨p', run, counted, size⟩ := ih kinds placed room
          refine ⟨p', by rw [runSteps, skip, Option.bind_some, run], counted, ?_⟩
          refine throughout_cons.mpr ⟨rfl, fun next returned => ?_⟩
          obtain rfl := Option.some.inj (skip.symm.trans returned)
          exact size
      | some k =>
          obtain ⟨arg, args', rfl, kind', kinds'⟩ := kinds_cons kind kinds
          have total := chunksOf_cons arg args'
          obtain ⟨m, added, chunks, capacity⟩ :=
            add_room (m := p.result) arg.param_nulFree (by omega)
          have round : storeArgument mem p c = some (p.read (storedSize arg.conversion) m) := by
            rw [storeArgument_arg kind' placed.1, added, Option.map_some]
          obtain ⟨p', run, counted, size⟩ := ih (p := p.read (storedSize arg.conversion) m)
            kinds' placed.2 (by simp only [Pass.read]; omega)
          simp only [Pass.read] at counted size
          refine ⟨p', by rw [runSteps, round, Option.bind_some, run], by omega, ?_⟩
          refine throughout_cons.mpr ⟨rfl, fun next returned => ?_⟩
          obtain rfl := Option.some.inj (round.symm.trans returned)
          rw [capacity] at size
          exact size

theorem Placed.next {at_ : Nat} {arg : Arg} {args : List Arg}
    (placed : Placed mem at_ (arg :: args))
    (last : arg.conversion = .f → args = []) : Placed mem (at_ + 1) args := by
  by_cases isFloat : arg.conversion = .f
  · obtain rfl := last isFloat
    trivial
  · have size : storedSize arg.conversion = 1 := by
      cases h : arg.conversion <;> simp_all [storedSize]
    exact size ▸ placed.2

/-- With a float at the end only, the first pass counts the chunks of the arguments. -/
theorem counting_matching {initString : List UInt8} {args : List Arg} {p : Pass Nat}
    (kinds : initString.filterMap conversion = args.map Arg.conversion)
    (placed : Placed mem p.argumentList args) (last : FloatLast initString) :
    ∃ p', runSteps (countArgument mem) p initString = some p' ∧
      p'.result = p.result + chunksOf args := by
  induction initString generalizing p args with
  | nil =>
      obtain rfl : args = [] := by simpa using kinds.symm
      exact ⟨p, rfl, rfl⟩
  | cons c rest ih =>
      obtain ⟨float, last'⟩ := List.pairwise_cons.mp last
      cases kind : conversion c with
      | none =>
          have skip : countArgument mem p c = some p := by simp [countArgument, kind]
          rw [List.filterMap_cons_none kind] at kinds
          obtain ⟨p', run, counted⟩ := ih kinds placed last'
          exact ⟨p', by rw [runSteps, skip, Option.bind_some, run], counted⟩
      | some k =>
          obtain ⟨arg, args', rfl, kind', kinds'⟩ := kinds_cons kind kinds
          have total := chunksOf_cons arg args'
          have round := countArgument_arg kind' placed.1
          have placed' : Placed mem (p.argumentList + 1) args' := by
            refine placed.next fun isFloat => ?_
            -- nothing is left to be read at a wrong position
            have nothing : rest.filterMap conversion = [] :=
              List.filterMap_eq_nil_iff.mpr fun d later =>
                float d later (by rw [kind', isFloat])
            simpa [nothing] using kinds'.symm
          obtain ⟨p', run, counted⟩ :=
            ih (p := p.read 1 (p.result + arg.param.chunkCount)) kinds' placed' last'
          simp only [Pass.read] at counted
          exact ⟨p', by rw [runSteps, round, Option.bind_some, run], by omega⟩

/-- The passes of a call with matching arguments agree exactly when the format converts
nothing after a float. -/
theorem passesAgree_iff {initString : List UInt8} {args : List Arg}
    (matching : Matching mem initString args) :
    PassesAgree mem initString ↔ FloatLast initString := by
  constructor
  · rintro ⟨counted, stored, counting, storing, same, -⟩
    rw [reads_of_run (countArgument_advances mem) counting,
      reads_of_run (storeArgument_advances mem) storing, List.nil_append, List.nil_append] at same
    exact (readsFrom_eq_iff 0 initString).mp same
  · intro last
    obtain ⟨counted, counting, count⟩ :=
      counting_matching (p := ⟨0, [], 0⟩) matching.kinds matching.placed last
    rw [Nat.zero_add] at count
    have capacity : (ofSize counted.result).mMaxChunks = counted.result := by
      simp [mMaxChunks, ofSize]
    obtain ⟨stored, storing, chunks, size⟩ :=
      storing_matching (p := ⟨0, [], ofSize counted.result⟩) matching.kinds matching.placed (by
        rw [capacity, count]
        exact (Nat.zero_add _).le)
    simp only [capacity] at size
    refine ⟨counted, stored, counting, storing, ?_, ?_, size⟩
    · rw [reads_of_run (countArgument_advances mem) counting,
        reads_of_run (storeArgument_advances mem) storing, List.nil_append, List.nil_append]
      exact (readsFrom_eq_iff 0 initString).mpr last
    · rw [count, chunks]
      exact (Nat.zero_add _).symm

def actionCall : Memory where
  stack n := [0x1000, 1].getD n 0
  strings p := if p = 0x1000 then some ⟨chars "jump", by decide⟩ else none

theorem passesAgree_actionCall : PassesAgree actionCall (chars "si") := by
  have matching : Matching actionCall (chars "si")
      [.string 0x1000 ⟨chars "jump", by decide⟩, .int 1] :=
    ⟨by decide, ⟨rfl, rfl⟩, rfl, trivial⟩
  exact (passesAgree_iff matching).mpr (by decide)

def floatCall : Memory where
  stack n := [0, 0x3FF00000, 7].getD n 0
  strings _ := none

/-- The first pass takes the upper half of the double for the integer. -/
theorem passes_disagree_floatCall :
    Matching floatCall (chars "fi") [.float 0x3FF0000000000000, .int 7] ∧
      ¬ PassesAgree floatCall (chars "fi") := by
  have double : floatCall.double 0 = 0x3FF0000000000000 := by decide
  have integer : (floatCall.stack 2).toInt32 = 7 := by decide
  refine ⟨⟨by decide, double, integer, trivial⟩, ?_⟩
  rintro ⟨counted, stored, counting, storing, same, -⟩
  rw [reads_of_run (countArgument_advances floatCall) counting,
    reads_of_run (storeArgument_advances floatCall) storing, List.nil_append, List.nil_append]
    at same
  have different : readsFrom countedSize 0 (chars "fi") ≠ readsFrom storedSize 0 (chars "fi") := by
    decide
  exact different same

end matching

end Ssuge.CreateMessage

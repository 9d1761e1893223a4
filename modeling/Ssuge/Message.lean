import Ssuge.Binary32
import Ssuge.CString

/-! The message of `Message.h` and `Message.cpp`: a growing array of chunks. Each
chunk carries a type code, four bytes and an eight-bit parameter number; a
string takes one chunk for every four characters. The counters are exact
naturals where the source has 32 bits. A chunk has twelve bytes, so a 32-bit
process cannot allocate enough chunks to wrap `mNumChunks`, and `mNumParam` wraps
only after 2 ^ 32 adds, nearly all of them of empty strings. -/

namespace Ssuge

open RecordedRun CString

/-- A `GameObject *`; 0 is NULL. -/
abbrev Ptr := UInt32

structure DataItem where
  mType : Char
  /-- The four bytes of the union. -/
  mData : Word
  mParamNum : UInt8
deriving DecidableEq, Repr

structure Message where
  mParams : List (Option DataItem)
  mNumParam : Nat
  mNumChunks : Nat
deriving DecidableEq, Repr

/-- What a getter cannot answer: C++ leaves the result undefined (an unwritten
chunk or byte is used, or a float does not fit an int), or it throws. -/
inductive Fault
  | undefined
  | thrown (description : String)
deriving DecidableEq, Repr

abbrev Eval := Except Fault

def definedOr {α : Type} : Option α → Eval α
  | none => .error .undefined
  | some x => .ok x

theorem definedOr_eq_ok {α : Type} {x : Option α} {a : α} :
    definedOr x = .ok a ↔ x = some a := by
  cases x <;> simp [definedOr]

theorem bind_eq_ok {α β : Type} {x : Eval α} {f : α → Eval β} {b : β} :
    x >>= f = .ok b ↔ ∃ a, x = .ok a ∧ f a = .ok b := by
  cases x <;> simp [bind, Except.bind]

namespace Message

/-- Every allocation of `mParams` has `mMaxChunks` elements. -/
def mMaxChunks (m : Message) : Nat := m.mParams.length

def startChunkNum : Nat := 3

theorem startChunkNum_pos : 0 < startChunkNum := by decide

/-- `Message(int numChunks)` -/
def ofSize (numChunks : Nat) : Message := ⟨List.replicate numChunks none, 0, 0⟩

/-- `Message()`, and `initialize()` on a buffer of Lua. -/
def initialized : Message := ofSize startChunkNum

/-- `while (mNumChunks > mMaxChunks) mMaxChunks = 2 * mMaxChunks;` -/
def doubleLoop : (fuel mNumChunks mMaxChunks : Nat) → Option Nat
  | 0, mNumChunks, mMaxChunks => if mNumChunks > mMaxChunks then none else some mMaxChunks
  | fuel + 1, mNumChunks, mMaxChunks =>
      if mNumChunks > mMaxChunks then doubleLoop fuel mNumChunks (2 * mMaxChunks)
      else some mMaxChunks

/-- The loop copies `mNumChunks - 1` cells, whatever the old capacity was. -/
def increaseSize (m : Message) : Run Message := do
  let mMaxChunks ← ofOption (doubleLoop m.mNumChunks m.mNumChunks m.mMaxChunks)
  let mParams ← copyLoop m.mParams (m.mNumChunks - 1) (List.replicate mMaxChunks none)
  pure { m with mParams := mParams }

/-- The opening of every add: count the new chunks and make room for them. -/
def reserve (m : Message) (chunks : Nat) : Run Message :=
  let counted := { m with mNumChunks := m.mNumChunks + chunks }
  if counted.mNumChunks > counted.mMaxChunks then counted.increaseSize else pure counted

/-- `(unsigned char)paramNum` -/
def paramByte (paramNum : Nat) : UInt8 := UInt8.ofNat paramNum

/-- The common body of `addInt`, `addFloat` and `addGameObject`. -/
def addItem (m : Message) (mType : Char) (mData : Word) : Run Message := do
  let m ← m.reserve 1
  let mParams ← store m.mParams (m.mNumChunks - 1)
    (some ⟨mType, mData, paramByte m.mNumParam⟩)
  pure { m with mParams := mParams, mNumParam := m.mNumParam + 1 }

def addInt (m : Message) (i : Int32) : Run Message := m.addItem 'i' (.ofUInt32 i.toUInt32)

def addFloat (m : Message) (f : Binary32) : Run Message := m.addItem 'f' (.ofUInt32 f.bits)

def addGameObject (m : Message) (g : Ptr) : Run Message := m.addItem 'g' (.ofUInt32 g)

/-- The first loop of `addString`: chunk `i` goes to index `mNumParam + i`. -/
def fullChunkLoop (s : List (Option UInt8)) (mNumParam : Nat) :
    Nat → List (Option DataItem) → Run (List (Option DataItem))
  | 0, mParams => pure mParams
  | i + 1, mParams => do
      let mParams ← fullChunkLoop s mNumParam i mParams
      let word ← loadWord s (4 * i)
      store mParams (mNumParam + i) (some ⟨'s', word, paramByte mNumParam⟩)

/-- The characters left over by the loop go to the last chunk counted. -/
def tailChunk (s : List (Option UInt8)) (length : Nat) (m : Message) :
    Run (List (Option DataItem)) :=
  if length % 4 ≠ 0 then do
    let word ← loadWord s (4 * (length / 4))
    store m.mParams (m.mNumChunks - 1) (some ⟨'s', word, paramByte m.mNumParam⟩)
  else pure m.mParams

def addString (m : Message) (str : List UInt8) : Run Message := do
  let s := buffer str
  let stringLength := strlen str
  let m ← m.reserve (wordCount stringLength)
  let mParams ← fullChunkLoop s m.mNumParam (stringLength / 4) m.mParams
  let mParams ← tailChunk s stringLength { m with mParams := mParams }
  pure { m with mParams := mParams, mNumParam := m.mNumParam + 1 }

/-- The chunks that the getters walk through. -/
def chunks (m : Message) : List (Option DataItem) := prefixCells m.mParams m.mNumChunks

/-- `for (i = 0; i < mNumChunks; i++) if (mParams[i].mParamNum == paramNum) ...` -/
def lookup (paramNum : UInt8) : List (Option DataItem) → Eval (Option DataItem)
  | [] => .ok none
  | none :: _ => .error .undefined
  | some item :: rest =>
      if item.mParamNum = paramNum then .ok (some item) else lookup paramNum rest

def getParamType (m : Message) (paramNum : Nat) : Eval Char := do
  match ← lookup (paramByte paramNum) m.chunks with
  | some item => pure item.mType
  | none => pure '?'

def getInt (m : Message) (paramNum : Nat) : Eval Int32 := do
  match ← lookup (paramByte paramNum) m.chunks with
  | none => pure 0
  | some item =>
      if item.mType = 'i' then return (← definedOr item.mData.toUInt32).toInt32
      else if item.mType = 'f' then
        definedOr (Binary32.toInt ⟨← definedOr item.mData.toUInt32⟩)
      else throw (.thrown "Message Parameter can't be converted to an int")

def getFloat (m : Message) (paramNum : Nat) : Eval Binary32 := do
  match ← lookup (paramByte paramNum) m.chunks with
  | none => pure ⟨0⟩
  | some item =>
      if item.mType = 'f' then return ⟨← definedOr item.mData.toUInt32⟩
      else if item.mType = 'i' then
        return Binary32.ofInt (← definedOr item.mData.toUInt32).toInt32
      else throw (.thrown "Message parameter can't be converted to float")

def getGameObject (m : Message) (paramNum : Nat) : Eval Ptr := do
  match ← lookup (paramByte paramNum) m.chunks with
  | none => pure 0
  | some item => definedOr item.mData.toUInt32

/-- The first loop of `getString`: where the parameter starts and how many
chunks carry its number. -/
def stringExtent (paramNum : UInt8) : Nat → List (Option DataItem) → Eval (Option Nat × Nat)
  | _, [] => .ok (none, 0)
  | _, none :: _ => .error .undefined
  | i, some item :: rest => do
      let (start, chunkSize) ← stringExtent paramNum (i + 1) rest
      if item.mParamNum = paramNum then pure (some i, chunkSize + 1)
      else pure (start, chunkSize)

/-- `memcpy` of the four bytes of a chunk. -/
def cellBytes : Option DataItem → List (Option UInt8)
  | some item => item.mData.bytes
  | none => List.replicate 4 none

@[simp] theorem cellBytes_length (cell : Option DataItem) : (cellBytes cell).length = 4 := by
  cases cell <;> rfl

def getString (m : Message) (paramNum : Nat) : Eval (List UInt8) := do
  let (stringStart, chunkSize) ← stringExtent (paramByte paramNum) 0 m.chunks
  let copied := (prefixCells (m.mParams.drop (stringStart.getD 0)) chunkSize).flatMap cellBytes
  definedOr (readCString (copied ++ [some 0]))

def getNumParams (m : Message) : Nat := m.mNumParam

end Message

/-- One value to add: the argument of an `addInt`, `addFloat`, `addGameObject` or
`addString` call. -/
inductive Param
  | int (i : Int32)
  | float (f : Binary32)
  | gameObject (g : Ptr)
  | string (s : List UInt8)
deriving DecidableEq, Repr

namespace Message

def add (m : Message) : Param → Run Message
  | .int i => m.addInt i
  | .float f => m.addFloat f
  | .gameObject g => m.addGameObject g
  | .string s => m.addString s

def addStep (m : Message) (p : Param) : Option Message := (m.add p).value

def addAll (m : Message) : List Param → Run Message
  | [] => pure m
  | p :: ps => do
      let m ← m.add p
      m.addAll ps

end Message

end Ssuge

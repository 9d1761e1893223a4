import Ssuge.MessageLayout

/-! The chunks of a string, with any memory behind its buffer. Each chunk is a copy of four
bytes, so together they are a copy of the beginning of that memory. A last chunk that goes past
the characters goes on with what is behind them, and the terminator comes first there. -/

namespace Ssuge.Message

open RecordedRun CString

/-- The chunks that `addString` stores, in an array with room for just them. -/
def splitString (s : List UInt8) (after : List (Option UInt8)) :
    Run (List (Option DataItem)) := do
  let memory := buffer s ++ after
  let stringLength := strlen s
  let mNumChunks := wordCount stringLength
  let mParams ← fullChunkLoop memory 0 (stringLength / 4) (List.replicate mNumChunks none)
  tailChunk memory stringLength ⟨mParams, 0, mNumChunks⟩

/-- What `getString` makes of chunks. -/
def joinString (chunks : List (Option DataItem)) : Eval (List UInt8) :=
  getString ⟨chunks, 1, chunks.length⟩ 0

def itemsOf (memory : List (Option UInt8)) (count : Nat) : List DataItem :=
  (List.range count).map (fullItem memory 0)

theorem flatMap_itemsOf (memory : List (Option UInt8)) (count : Nat) :
    ((itemsOf memory count).map some).flatMap cellBytes = prefixCells memory (4 * count) := by
  rw [← flatMap_wordAt, itemsOf, List.flatMap_map, List.flatMap_map, List.flatMap_map]
  rfl

/-- The two parts of `addString` write the first chunks of the memory. -/
theorem splitString_value {s : List UInt8} (nulFree : NulFree s) (after : List (Option UInt8)) :
    (splitString s after).value =
      some ((itemsOf (buffer s ++ after) (wordCount s.length)).map some) := by
  rw [splitString, strlen_of_nulFree nulFree]
  by_cases whole : s.length % 4 = 0
  · have count : wordCount s.length = s.length / 4 + 0 := by rw [wordCount, if_pos whole]
    have full := fullChunkLoop_inPlace (buffer s ++ after) 0 (s.length / 4) 0 [] rfl
    simp only [List.nil_append] at full
    rw [count, bind_value_of full, tailChunk, if_neg (by simpa using whole), pure_value]
    simp [itemsOf]
  · have count : wordCount s.length = s.length / 4 + 1 := by rw [wordCount, if_neg whole]
    have full := fullChunkLoop_inPlace (buffer s ++ after) 0 (s.length / 4) 1 [] rfl
    simp only [List.nil_append] at full
    rw [count, bind_value_of full, tailChunk, if_pos whole, bind_value_of (loadWord_value _ _),
      store_value, List.set_append_right _ _ (by simp)]
    simp [itemsOf, List.range_succ, fullItem]

theorem stringExtent_all {n : UInt8} {items : List DataItem}
    (same : ∀ item ∈ items, item.mParamNum = n) (i : Nat) :
    ∃ start, stringExtent n i (items.map some) = .ok (start, items.length) ∧
      start.getD i = i := by
  induction items generalizing i with
  | nil => exact ⟨none, rfl, rfl⟩
  | cons item items ih =>
      obtain ⟨first, rest⟩ := List.forall_mem_cons.mp same
      obtain ⟨start, counted, -⟩ := ih rest (i + 1)
      refine ⟨some i, ?_, rfl⟩
      simp only [List.map_cons, stringExtent, counted, first, if_true]
      rfl

theorem joinString_itemsOf (memory : List (Option UInt8)) (count : Nat) :
    joinString ((itemsOf memory count).map some) =
      definedOr (readCString (prefixCells memory (4 * count) ++ [some 0])) := by
  have numbers : ∀ item ∈ itemsOf memory count, item.mParamNum = paramByte 0 := by
    intro item member
    obtain ⟨i, -, rfl⟩ := List.mem_map.mp member
    rfl
  obtain ⟨start, extent, first⟩ := stringExtent_all numbers 0
  have all : prefixCells ((itemsOf memory count).map some) (itemsOf memory count).length =
      (itemsOf memory count).map some := by
    rw [prefixCells_of_le _ _ (by simp)]
    exact List.take_of_length_le (by simp)
  rw [joinString, getString, chunks, List.length_map, all, extent]
  simp only [bind, Except.bind]
  rw [first, List.drop_zero, all, flatMap_itemsOf]

/-- The codec of strings is the identity, whatever follows the string in memory. -/
theorem joinString_splitString {s : List UInt8} (nulFree : NulFree s)
    (after : List (Option UInt8)) :
    ∃ chunks, (splitString s after).value = some chunks ∧
      chunks.length = s.length / 4 + (if s.length % 4 = 0 then 0 else 1) ∧
      joinString chunks = .ok s := by
  refine ⟨_, splitString_value nulFree after, ?_, ?_⟩
  · rw [List.length_map, itemsOf, List.length_map, List.length_range, wordCount]
  · rw [joinString_itemsOf, readCString_prefixCells nulFree]
    -- the terminator is the one in the last chunk, or the one that `getString` appends
    by_cases whole : s.length % 4 = 0
    · rw [if_pos whole, readCString, if_pos rfl, Option.map_some, List.append_nil, definedOr]
    · rw [if_neg whole, definedOr]

/-- Five characters, and a byte that is left behind their terminator. -/
theorem joinString_splitString_five : ∃ chunks,
    (splitString (chars "ninja") [some 7, none]).value = some chunks ∧
      chunks.length = (chars "ninja").length / 4 +
        (if (chars "ninja").length % 4 = 0 then 0 else 1) ∧
      joinString chunks = .ok (chars "ninja") :=
  joinString_splitString (by decide) [some 7, none]

end Ssuge.Message

import Ssuge.MessageCrossing
import Ssuge.MessageGrowth

/-! Parameter numbers in messages of any length. The number that is stored and the
number that is asked for are both cut to eight bits, so a lookup answers for the
parameter whose number is the wanted one modulo 256. -/

namespace Ssuge.Message

open RecordedRun CString Param GuardedRun

structure Absent (m : Message) (k : Nat) : Prop where
  type : m.getParamType k = .ok '?'
  int : m.getInt k = .ok 0
  float : m.getFloat k = .ok ⟨0⟩
  gameObject : m.getGameObject k = .ok 0

/-- The lookups with the number `k` find the parameter that was added with it, and
nothing if there is none. -/
def Identifies (m : Message) (ps : List Param) (k : Nat) : Prop :=
  match ps[k]? with
  | some p => m.Retrieves k p
  | none => m.Absent k

section lookups

variable {m : Message} {ps : List Param} {k : Nat}

theorem absent_of_lookup (none_found : lookup (paramByte k) m.chunks = .ok none) : m.Absent k := by
  constructor <;>
    simp only [getParamType, getInt, getFloat, getGameObject, none_found, bind, Except.bind] <;>
    rfl

theorem absent_layout (h : Layout m ps)
    (others : ∀ j < ps.length, paramByte j ≠ paramByte k) : m.Absent k := by
  apply absent_of_lookup
  rw [h.chunks_eq, ← List.append_nil ((encodeAll 0 ps).map some), lookup_skip]
  · rfl
  · intro item member
    obtain ⟨j, hj, inside⟩ := mem_encodeAll member
    rw [(encode_mem inside).2, Nat.zero_add]
    exact others j hj

theorem not_absent_of_retrieves {p : Param} (read : m.Retrieves k p) : ¬ m.Absent k := by
  intro absent
  exact typeCode_ne_unknown p (Except.ok.inj (read.1.symm.trans absent.type))

theorem retrieves_unique {p q : Param} (first : m.Retrieves k p) (second : m.Retrieves k q) :
    p = q :=
  readsAs_unique (.inl first) (.inl second)

/-- Where no string is stored, every number below the count finds the parameter that the
number modulo 256 belongs to. -/
theorem retrieves_mod (h : Layout m ps) (scalars : ∀ p ∈ ps, p.typeCode ≠ 's')
    (length : k % 256 < ps.length) : m.Retrieves k ps[k % 256] := by
  have low : k % 256 < 256 := Nat.mod_lt k (by decide)
  rw [← retrieves_congr (paramByte_mod k)]
  exact getScalar_layout h low length (scalars _ (List.getElem_mem length))

theorem identifies_layout (h : Layout m ps) (scalars : ∀ p ∈ ps, p.typeCode ≠ 's') :
    m.Identifies ps k ↔ ps[k]? = ps[k % 256]? := by
  rw [Identifies]
  by_cases found : k % 256 < ps.length
  · have read := retrieves_mod h scalars found
    rw [List.getElem?_eq_getElem found]
    cases wanted : ps[k]? with
    | some p =>
        rw [Option.some.injEq]
        exact ⟨fun own => retrieves_unique own read, fun same => same ▸ read⟩
    | none => simp [not_absent_of_retrieves read]
  · have past : ps.length ≤ k := (Nat.not_lt.mp found).trans (Nat.mod_le k 256)
    rw [List.getElem?_eq_none past, List.getElem?_eq_none (Nat.not_lt.mp found)]
    refine ⟨fun _ => rfl, fun _ => absent_layout h fun j hj => ?_⟩
    rw [ne_eq, paramByte_eq_iff]
    omega

end lookups

theorem not_returns_ofSize_zero {p : Param} (scalar : p.typeCode ≠ 's') (ps : List Param) :
    runSteps addStep (ofSize 0) (p :: ps) = none := by
  rw [runSteps, Option.bind_eq_none_iff]
  intro m returned
  have single : p.chunkCount = 1 ∧ p.NulFree := by
    cases p <;> simp_all [typeCode, chunkCount, Param.NulFree]
  obtain ⟨chunks, fits, same | ⟨capacity, -⟩⟩ := add_counts single.2 returned
  · have empty : (ofSize 0).mMaxChunks = 0 := rfl
    omega
  · exact absurd capacity (Nat.lt_irrefl 0)

/-- After any number of `addInt`, `addFloat` and `addGameObject` calls a number identifies
its parameter exactly when it stands for the same parameter, or none, as its low eight
bits. -/
theorem identifies_iff (numChunks : Nat) (ps : List Param) (scalars : ∀ p ∈ ps, p.typeCode ≠ 's')
    (k : Nat) :
    (∃ m, ((ofSize numChunks).addAll ps).value = some m ∧ m.Identifies ps k) ↔
      (0 < numChunks ∨ ps = []) ∧ ps[k]? = ps[k % 256]? := by
  rw [addAll_value]
  rcases Nat.eq_zero_or_pos numChunks with rfl | positive
  · cases ps with
    | nil =>
        have absent : (ofSize 0).Absent k := absent_of_lookup rfl
        simpa [runSteps, Identifies] using absent
    | cons p ps => simp [not_returns_ofSize_zero (scalars p (by simp)) ps]
  · have nulFree : ∀ p ∈ ps, p.NulFree := by
      intro p member
      have scalar := scalars p member
      cases p <;> simp_all [typeCode, Param.NulFree]
    obtain ⟨m, reached, layout⟩ :=
      layout_of_inOrder positive nulFree (inOrder_of_scalars scalars)
    simp only [reached, Option.some.injEq, exists_eq_left', positive, true_or, true_and]
    exact identifies_layout layout scalars

def reply (n : Nat) : List Param := (List.range n).map fun i => .gameObject (UInt32.ofNat (i + 1))

theorem reply_scalars (n : Nat) : ∀ p ∈ reply n, p.typeCode ≠ 's' := by
  intro p member
  obtain ⟨i, -, rfl⟩ := List.mem_map.mp member
  simp [typeCode]

theorem identifies_reply : ∃ m, ((ofSize 3).addAll (reply 2)).value = some m ∧
    m.Identifies (reply 2) 1 :=
  (identifies_iff 3 (reply 2) (reply_scalars 2) 1).mpr ⟨.inl (by decide), rfl⟩

/-- The number of the 257th object finds the first one. -/
theorem not_identifies_reply : ¬ ∃ m, ((ofSize 3).addAll (reply 257)).value = some m ∧
    m.Identifies (reply 257) 256 := by
  rintro ⟨m, returned, identifies⟩
  rw [addAll_value] at returned
  have nulFree : ∀ p ∈ reply 257, p.NulFree := by
    intro p member
    obtain ⟨i, -, rfl⟩ := List.mem_map.mp member
    trivial
  obtain ⟨m', reached, layout⟩ := layout_of_inOrder (show 0 < 3 by decide) nulFree
    (inOrder_of_scalars (reply_scalars 257))
  obtain rfl := Option.some.inj (returned.symm.trans reached)
  have same := (identifies_layout layout (reply_scalars 257)).mp identifies
  simp [reply] at same

end Ssuge.Message

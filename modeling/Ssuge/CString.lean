import Ssuge.RecordedRun
import Mathlib.Algebra.Group.Nat.Defs
import Mathlib.Order.Defs.LinearOrder
import Mathlib.Data.List.Lex
import Mathlib.Data.List.TakeWhile
import Mathlib.Tactic.Common

/-! NUL-terminated strings in memory and their storage in four-byte words.
A byte of memory is an `Option`: `none` is an indeterminate byte. A word is
filled from a string's buffer by a four-byte copy, so the last word of a string
holds its terminator only when the length is not a multiple of four, and the
bytes after the terminator come from beyond the buffer. -/

namespace Ssuge.CString

open RecordedRun

instance byteLinearOrder : LinearOrder UInt8 where
  le_refl a := UInt8.le_refl a
  le_trans _ _ _ := UInt8.le_trans
  le_antisymm _ _ := UInt8.le_antisymm
  le_total a b := UInt8.le_total a b
  lt_iff_le_not_ge a b := by
    simp only [UInt8.lt_iff_toNat_lt, UInt8.le_iff_toNat_le]
    omega
  toDecidableLE := inferInstance

def chars (s : String) : List UInt8 := s.toList.map fun c => c.val.toUInt8

/-- What `c_str()` points to: the characters and the terminating NUL. -/
def buffer (s : List UInt8) : List (Option UInt8) := s.map some ++ [some 0]

def NulFree (s : List UInt8) : Prop := 0 ∉ s

instance (s : List UInt8) : Decidable (NulFree s) := inferInstanceAs (Decidable (0 ∉ s))

def strlen (s : List UInt8) : Nat := (s.takeWhile (· ≠ 0)).length

@[simp] theorem buffer_length (s : List UInt8) : (buffer s).length = s.length + 1 := by
  simp [buffer]

theorem strlen_of_nulFree {s : List UInt8} (h : NulFree s) : strlen s = s.length := by
  have all : s.takeWhile (· ≠ 0) = s := by
    apply List.takeWhile_eq_self_iff.mpr
    intro c hc
    simpa using fun zero : c = 0 => h (zero ▸ hc)
  rw [strlen, all]

/-- Read characters up to the first NUL; undefined when an indeterminate byte or
the end of the memory comes first. -/
def readCString : List (Option UInt8) → Option (List UInt8)
  | [] => none
  | none :: _ => none
  | some c :: rest => if c = 0 then some [] else (readCString rest).map (c :: ·)

theorem readCString_append {s : List UInt8} (h : NulFree s) (rest : List (Option UInt8)) :
    readCString (s.map some ++ rest) = (readCString rest).map (s ++ ·) := by
  induction s with
  | nil => simp
  | cons c s ih =>
      have nonzero : c ≠ 0 := fun zero => h (by simp [zero])
      have tail : NulFree s := fun zero => h (by simp [zero])
      simp only [List.map_cons, List.cons_append, readCString, nonzero, if_false, ih tail,
        Option.map_map]
      rfl

theorem readCString_length {l : List (Option UInt8)} {s : List UInt8}
    (h : readCString l = some s) : s.length < l.length := by
  induction l generalizing s with
  | nil => simp [readCString] at h
  | cons cell l ih =>
      cases cell with
      | none => simp [readCString] at h
      | some c =>
          rw [readCString] at h
          split at h
          · obtain rfl := Option.some.inj h
            simp
          · obtain ⟨rest, read, rfl⟩ := Option.map_eq_some_iff.mp h
            simpa using ih read

theorem readCString_nulFree {l : List (Option UInt8)} {s : List UInt8}
    (h : readCString l = some s) : NulFree s := by
  induction l generalizing s with
  | nil => simp [readCString] at h
  | cons cell l ih =>
      cases cell with
      | none => simp [readCString] at h
      | some c =>
          rw [readCString] at h
          split at h
          · obtain rfl := Option.some.inj h
            exact List.not_mem_nil
          · obtain ⟨rest, read, rfl⟩ := Option.map_eq_some_iff.mp h
            rw [NulFree, List.mem_cons, not_or]
            exact ⟨Ne.symm ‹_›, ih read⟩

theorem readCString_cons_nil {cell : Option UInt8} {l : List (Option UInt8)} :
    readCString (cell :: l) = some [] ↔ cell = some 0 := by
  cases cell with
  | none => simp [readCString]
  | some c =>
      rw [readCString, Option.some.injEq]
      split <;> simp [*]

structure Word where
  b0 : Option UInt8
  b1 : Option UInt8
  b2 : Option UInt8
  b3 : Option UInt8
deriving DecidableEq, Repr

namespace Word

def bytes (w : Word) : List (Option UInt8) := [w.b0, w.b1, w.b2, w.b3]

/-- Little-endian storage of a 32-bit value. -/
def ofUInt32 (n : UInt32) : Word :=
  let byte (i : Nat) := some (UInt8.ofNat (n.toNat / 256 ^ i))
  ⟨byte 0, byte 1, byte 2, byte 3⟩

def toUInt32 (w : Word) : Option UInt32 := do
  let b0 ← w.b0
  let b1 ← w.b1
  let b2 ← w.b2
  let b3 ← w.b3
  pure (UInt32.ofNat (b0.toNat + 256 * b1.toNat + 256 ^ 2 * b2.toNat + 256 ^ 3 * b3.toNat))

@[simp] theorem toUInt32_ofUInt32 (n : UInt32) : (ofUInt32 n).toUInt32 = some n := by
  have bound := n.toNat_lt
  simp only [ofUInt32, toUInt32, Option.bind_eq_bind, Option.bind_some, Option.pure_def,
    Option.some.injEq]
  apply UInt32.toNat_inj.mp
  simp only [UInt32.toNat_ofNat', UInt8.toNat_ofNat']
  omega

end Word

/-- `memcpy(word, s + offset, 4)` -/
def loadWord (s : List (Option UInt8)) (offset : Nat) : Run Word := do
  let b0 ← load s offset
  let b1 ← load s (offset + 1)
  let b2 ← load s (offset + 2)
  let b3 ← load s (offset + 3)
  pure ⟨b0, b1, b2, b3⟩

def wordAt (s : List (Option UInt8)) (offset : Nat) : Word :=
  ⟨s[offset]?.join, s[offset + 1]?.join, s[offset + 2]?.join, s[offset + 3]?.join⟩

@[simp] theorem loadWord_value (s : List (Option UInt8)) (offset : Nat) :
    (loadWord s offset).value = some (wordAt s offset) := rfl

theorem loadWord_inBounds (s : List (Option UInt8)) (offset : Nat) :
    (loadWord s offset).InBounds ↔ offset + 3 < s.length := by
  rw [loadWord, bind_inBounds_of (load_value _ _), bind_inBounds_of (load_value _ _),
    bind_inBounds_of (load_value _ _), bind_inBounds_of (load_value _ _)]
  simp only [load_inBounds, pure_inBounds, and_true]
  omega

def words : List UInt8 → List Word
  | [] => []
  | [a] => [⟨some a, some 0, none, none⟩]
  | [a, b] => [⟨some a, some b, some 0, none⟩]
  | [a, b, c] => [⟨some a, some b, some c, some 0⟩]
  | a :: b :: c :: d :: rest => ⟨some a, some b, some c, some d⟩ :: words rest

def wordCount (length : Nat) : Nat := length / 4 + if length % 4 = 0 then 0 else 1

theorem words_eq (s : List UInt8) :
    words s = (List.range (s.length / 4)).map (fun i => wordAt (buffer s) (4 * i)) ++
      if s.length % 4 = 0 then [] else [wordAt (buffer s) (4 * (s.length / 4))] := by
  induction s using words.induct with
  | case1 => simp [words]
  | case2 a => simp [words, wordAt, buffer]
  | case3 a b => simp [words, wordAt, buffer]
  | case4 a b c => simp [words, wordAt, buffer]
  | case5 a b c d rest ih =>
      have quotient : (a :: b :: c :: d :: rest).length / 4 = rest.length / 4 + 1 := by
        simp only [List.length_cons]
        omega
      have remainder : (a :: b :: c :: d :: rest).length % 4 = rest.length % 4 := by
        simp only [List.length_cons]
        omega
      rw [words, ih, quotient, remainder, List.range_succ_eq_map, List.map_cons, List.map_map,
        List.cons_append]
      -- the buffer read four bytes further on is the buffer of the remaining characters
      rfl

theorem words_length (s : List UInt8) : (words s).length = wordCount s.length := by
  rw [words_eq, wordCount]
  split <;> simp

theorem words_eq_range (s : List UInt8) :
    words s = (List.range (wordCount s.length)).map fun i => wordAt (buffer s) (4 * i) := by
  rw [words_eq, wordCount]
  split
  · simp
  · simp [List.range_succ]

theorem flatMap_wordAt (memory : List (Option UInt8)) (count : Nat) :
    ((List.range count).map fun i => wordAt memory (4 * i)).flatMap Word.bytes =
      prefixCells memory (4 * count) := by
  induction count with
  | zero => rfl
  | succ count ih =>
      have four : 4 * (count + 1) = 4 * count + 1 + 1 + 1 + 1 := by omega
      rw [List.range_succ, List.map_append, List.flatMap_append, ih, four, prefixCells_succ,
        prefixCells_succ, prefixCells_succ, prefixCells_succ]
      simp [wordAt, Word.bytes]

theorem readCString_prefixCells {s : List UInt8} (h : NulFree s)
    (after rest : List (Option UInt8)) :
    readCString (prefixCells (buffer s ++ after) (4 * wordCount s.length) ++ rest) =
      if s.length % 4 = 0 then (readCString rest).map (s ++ ·) else some s := by
  have memory : buffer s ++ after = s.map some ++ (some 0 :: after) := by
    rw [buffer, List.append_assoc, List.singleton_append]
  by_cases whole : s.length % 4 = 0
  · have count : 4 * wordCount s.length = (s.map some).length + 0 := by
      rw [List.length_map, wordCount, if_pos whole]
      omega
    rw [memory, count, prefixCells_append, if_pos whole, List.append_assoc,
      readCString_append h]
    simp [prefixCells]
  · obtain ⟨extra, count⟩ : ∃ extra,
        4 * wordCount s.length = (s.map some).length + (1 + extra) := by
      refine ⟨4 * wordCount s.length - s.length - 1, ?_⟩
      rw [List.length_map, wordCount, if_neg whole]
      omega
    have terminated : prefixCells (some 0 :: after) (1 + extra) =
        some 0 :: prefixCells after extra := prefixCells_append [some 0] after extra
    rw [memory, count, prefixCells_append, terminated, if_neg whole, List.append_assoc,
      readCString_append h, List.cons_append, readCString, if_pos rfl]
    simp

/-- The codec's law: joining the words and reading up to the first NUL gives the
string back, whatever follows, when its length is not a multiple of four. -/
theorem readCString_words {s : List UInt8} (h : NulFree s) (rest : List (Option UInt8)) :
    readCString ((words s).flatMap Word.bytes ++ rest) =
      if s.length % 4 = 0 then (readCString rest).map (s ++ ·) else some s := by
  rw [words_eq_range, flatMap_wordAt, ← List.append_nil (buffer s), readCString_prefixCells h]

end Ssuge.CString

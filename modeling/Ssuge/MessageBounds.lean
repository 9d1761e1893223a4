import Ssuge.MessageLayout
import Ssuge.GuardedRun

/-! Memory safety of the add operations. An add is safe when every index it uses
lies in its array (the chunk array it writes, the old array that `increaseSize`
copies, the string's characters and terminator) and when it leaves all counted
chunks written. Three kinds of strings break this: one whose length leaves a
remainder of one or two, since the last copy reads past the terminator; one that
is not added in place; and one that needs two or more chunks beyond the capacity,
since `increaseSize` then copies past the end of the old array. -/

namespace Ssuge.Message

open RecordedRun CString Param GuardedRun

def AllWritten (m : Message) : Prop :=
  ∀ i < m.mNumChunks, ∃ item, m.mParams[i]? = some (some item)

structure AddSafe (m : Message) (p : Param) : Prop where
  inBounds : (m.add p).InBounds
  written : ∃ m', addStep m p = some m' ∧ m'.AllWritten ∧ m'.mNumChunks ≤ m'.mMaxChunks

/-- The last four-byte copy of a string ends at its terminator or before it. -/
def tailFits : Param → Prop
  | .string s => s.length % 4 = 0 ∨ s.length % 4 = 3
  | _ => True

instance : (p : Param) → Decidable (tailFits p)
  | .string s => inferInstanceAs (Decidable (s.length % 4 = 0 ∨ s.length % 4 = 3))
  | .int _ | .float _ | .gameObject _ => isTrue trivial

structure AddGuard (m : Message) (p : Param) : Prop where
  tail : tailFits p
  place : m.InPlace p
  growth : m.mNumChunks + p.chunkCount ≤ m.mMaxChunks + 1

instance (m : Message) (p : Param) : Decidable (AddGuard m p) :=
  decidable_of_iff
    (tailFits p ∧ m.InPlace p ∧ m.mNumChunks + p.chunkCount ≤ m.mMaxChunks + 1)
    ⟨fun ⟨tail, place, growth⟩ => ⟨tail, place, growth⟩,
      fun ⟨tail, place, growth⟩ => ⟨tail, place, growth⟩⟩

theorem Layout.allWritten {m : Message} {ps : List Param} (h : Layout m ps) : m.AllWritten := by
  intro i hi
  obtain ⟨r, cells⟩ := h.cells
  rw [h.numChunks] at hi
  exact ⟨(encodeAll 0 ps)[i], by rw [cells, List.getElem?_append_left (by simpa)]; simp [hi]⟩

/-- A string with a full chunk that is added out of place leaves a counted chunk
unwritten: the last of its full chunks' places when parameters lag behind the
chunks, the first when they are ahead. -/
theorem addString_hole {m m' : Message} {ps : List Param} (h : Layout m ps) {s : List UInt8}
    (nulFree : CString.NulFree s) (full : 0 < s.length / 4)
    (misplaced : m.mNumParam ≠ m.mNumChunks) (returned : (m.addString s).value = some m') :
    ∃ i < m'.mNumChunks, m.mNumChunks ≤ i ∧ m'.mParams[i]? = some none := by
  obtain ⟨m₁, cells', made, looped, value, -⟩ := addString_spec m nulFree h.capacity
  obtain ⟨r, cells⟩ := h.reserved made
  obtain ⟨written, looped', -, frame, -⟩ :=
    fullChunkLoop_spec (buffer s) m.mNumParam (s.length / 4) m₁.mParams
  obtain rfl := Option.some.inj (looped.symm.trans looped')
  obtain rfl := Option.some.inj (returned.symm.trans value)
  have counted : m₁.mNumChunks = m.mNumChunks + wordCount s.length := made.numChunks
  obtain ⟨i, lower, upper, outside⟩ : ∃ i, m.mNumChunks ≤ i ∧ i < m.mNumChunks + s.length / 4 ∧
      ∀ k < s.length / 4, i ≠ m.mNumParam + k := by
    rcases Nat.lt_or_gt_of_ne misplaced with behind | ahead
    · exact ⟨m.mNumChunks + s.length / 4 - 1, by omega, by omega, fun k hk => by omega⟩
    · exact ⟨m.mNumChunks, by omega, by omega, fun k hk => by omega⟩
  refine ⟨i, ?_, lower, ?_⟩
  · change i < m₁.mNumChunks
    rw [counted, wordCount]
    omega
  · have unwritten : m₁.mParams[i]? = some none := by
      rw [cells, List.getElem?_append_right (by rw [List.length_map, ← h.numChunks]; omega),
        List.getElem?_replicate, if_pos]
      rw [List.length_map, ← h.numChunks, wordCount]
      omega
    change (m.withTail s cells')[i]? = _
    rw [withTail]
    split
    · rw [frame i outside, unwritten]
    · rw [List.getElem?_set_ne (by omega), frame i outside, unwritten]

theorem addItem_inBounds {m : Message} {ps : List Param} (h : Layout m ps)
    (mType : Char) (mData : Word) : (m.addItem mType mData).InBounds := by
  obtain ⟨-, -, -, bounds⟩ := addItem_spec m mType mData h.capacity
  exact bounds.mpr h.chunks_le

theorem addString_inBounds {m : Message} {ps : List Param} (h : Layout m ps) {s : List UInt8}
    (nulFree : CString.NulFree s) (guard : AddGuard m (.string s)) : (m.addString s).InBounds := by
  obtain ⟨m₁, full, made, -, -, bounds⟩ := addString_spec m nulFree h.capacity
  have fits := made.fits
  rw [made.numChunks, wordCount] at fits
  refine bounds.mpr ⟨guard.growth, fun i hi => ?_, guard.tail⟩
  rw [guard.place (Nat.zero_lt_of_lt hi)]
  omega

theorem add_inBounds {m : Message} {ps : List Param} (h : Layout m ps) {p : Param}
    (nulFree : p.NulFree) (guard : AddGuard m p) : (m.add p).InBounds := by
  cases p with
  | string s => exact addString_inBounds h nulFree guard
  | _ => exact addItem_inBounds h _ _

theorem tail_growth_of_inBounds {m : Message} {ps : List Param} (h : Layout m ps) {p : Param}
    (nulFree : p.NulFree) (inBounds : (m.add p).InBounds) :
    tailFits p ∧ m.mNumChunks + p.chunkCount ≤ m.mMaxChunks + 1 := by
  cases p with
  | string s =>
      obtain ⟨m₁, full, made, -, -, bounds⟩ := addString_spec m nulFree h.capacity
      obtain ⟨growth, -, tail⟩ := bounds.mp inBounds
      exact ⟨tail, growth⟩
  | _ => exact ⟨trivial, Nat.succ_le_succ h.chunks_le⟩

theorem addSafe_iff {m : Message} {ps : List Param} (h : Layout m ps) {p : Param}
    (nulFree : p.NulFree) : AddSafe m p ↔ AddGuard m p := by
  constructor
  · rintro ⟨inBounds, m', returned, written, -⟩
    obtain ⟨tail, growth⟩ := tail_growth_of_inBounds h nulFree inBounds
    refine ⟨tail, ?_, growth⟩
    intro full
    by_contra misplaced
    cases p with
    | string s =>
        obtain ⟨i, hi, -, hole⟩ := addString_hole h nulFree full misplaced returned
        obtain ⟨item, cell⟩ := written i hi
        rw [hole] at cell
        simp at cell
    | _ => exact absurd full (Nat.lt_irrefl 0)
  · intro guard
    obtain ⟨m', returned, layout⟩ := add_layout h nulFree guard.place
    exact ⟨add_inBounds h nulFree guard, m', returned, layout.allWritten, layout.chunks_le⟩

theorem layout_addStep {m m' : Message} {p : Param} (h : ∃ ps, Layout m ps) (nulFree : p.NulFree)
    (place : m.InPlace p) (returned : addStep m p = some m') : ∃ ps, Layout m' ps := by
  obtain ⟨ps, layout⟩ := h
  obtain ⟨m₁, value, stored⟩ := add_layout layout nulFree place
  obtain rfl := Option.some.inj (returned.symm.trans value)
  exact ⟨_, stored⟩

/-- Along every sequence of adds all of them are safe exactly when every add meets
`AddGuard` in the state before it. -/
theorem adds_safe_iff (numChunks : Nat) (positive : 0 < numChunks) (ps : List Param)
    (nulFree : ∀ p ∈ ps, p.NulFree) :
    Along addStep AddSafe (ofSize numChunks) ps ↔ Along addStep AddGuard (ofSize numChunks) ps := by
  refine along_iff (I := fun m => ∃ ps, Layout m ps) (L := Param.NulFree) ?_ ?_
    ⟨[], layout_ofSize numChunks positive⟩ nulFree
  · rintro m p ⟨stored, layout⟩ free
    exact addSafe_iff layout free
  · exact fun m p m' h free guard returned => layout_addStep h free guard.place returned

/-- A message that grows from one chunk to four with two strings in it. -/
theorem adds_safe_abc :
    Along addStep AddSafe (ofSize 1)
      [.int 7, .string (chars "abc"), .string (chars "abcd"), .float ⟨0⟩] :=
  (adds_safe_iff 1 (by decide) _ (by decide)).mpr (by decide)

/-- Adding a string of one character reads two bytes past its terminator; adding one
of twenty characters copies four cells of an old array of three; and after a
string of eight characters one of four leaves the last counted chunk unwritten. -/
theorem adds_unsafe :
    ¬ Along addStep AddSafe initialized [.string (chars "a")] ∧
    ¬ Along addStep AddSafe initialized [.string (chars "abcdefghijklmnopqrst")] ∧
    ¬ Along addStep AddSafe initialized [.string (chars "abcdefgh"), .string (chars "ijkl")] := by
  refine ⟨fun run => absurd run.1.inBounds (by decide),
    fun run => absurd run.1.inBounds (by decide), fun run => ?_⟩
  obtain ⟨m', returned, written, -⟩ := (run.2 _ rfl).1.written
  obtain rfl := Option.some.inj returned
  obtain ⟨item, cell⟩ := written 2 (by decide)
  exact absurd (Option.some.inj cell) (by simp)

end Ssuge.Message

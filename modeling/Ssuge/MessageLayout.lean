import Ssuge.Message

/-! What each add operation does to the chunk array. `Layout m ps` says that the
parameters `ps` are stored one after another and that nothing else has been
written. A string of four or more characters keeps the layout exactly when it is
added while there are as many chunks as parameters, since `addString` places its
full chunks by parameter number. -/

namespace Ssuge

open RecordedRun CString

namespace Param

def NulFree : Param → Prop
  | string s => CString.NulFree s
  | _ => True

instance : (p : Param) → Decidable p.NulFree
  | string s => inferInstanceAs (Decidable (CString.NulFree s))
  | int _ | float _ | gameObject _ => isTrue trivial

/-- The number of full four-byte chunks; 0 for what is not a string. -/
def fullCount : Param → Nat
  | string s => s.length / 4
  | _ => 0

def chunkCount : Param → Nat
  | string s => wordCount s.length
  | _ => 1

def typeCode : Param → Char
  | int _ => 'i'
  | float _ => 'f'
  | gameObject _ => 'g'
  | string _ => 's'

def encode (k : Nat) : Param → List DataItem
  | int i => [⟨'i', .ofUInt32 i.toUInt32, Message.paramByte k⟩]
  | float f => [⟨'f', .ofUInt32 f.bits, Message.paramByte k⟩]
  | gameObject g => [⟨'g', .ofUInt32 g, Message.paramByte k⟩]
  | string s => (words s).map fun w => ⟨'s', w, Message.paramByte k⟩

@[simp] theorem encode_length (k : Nat) (p : Param) : (p.encode k).length = p.chunkCount := by
  cases p <;> simp [encode, chunkCount, words_length]

theorem encode_mem {k : Nat} {p : Param} {item : DataItem} (h : item ∈ p.encode k) :
    item.mType = p.typeCode ∧ item.mParamNum = Message.paramByte k := by
  cases p <;> simp only [encode, List.mem_singleton, List.mem_map] at h
  case string s =>
    obtain ⟨w, _, rfl⟩ := h
    exact ⟨rfl, rfl⟩
  all_goals
    subst h
    exact ⟨rfl, rfl⟩

def encodeAll : Nat → List Param → List DataItem
  | _, [] => []
  | k, p :: ps => p.encode k ++ encodeAll (k + 1) ps

theorem encodeAll_append (k : Nat) (ps qs : List Param) :
    encodeAll k (ps ++ qs) = encodeAll k ps ++ encodeAll (k + ps.length) qs := by
  induction ps generalizing k with
  | nil => simp [encodeAll]
  | cons p ps ih => simp [encodeAll, ih, List.append_assoc, Nat.add_assoc, Nat.add_comm 1]

theorem encodeAll_snoc (ps : List Param) (p : Param) :
    encodeAll 0 (ps ++ [p]) = encodeAll 0 ps ++ p.encode ps.length := by
  rw [encodeAll_append]
  simp [encodeAll]

theorem encodeAll_split (ps : List Param) (k : Nat) (h : k < ps.length) :
    encodeAll 0 ps = encodeAll 0 (ps.take k) ++
      (ps[k].encode k ++ encodeAll (k + 1) (ps.drop (k + 1))) := by
  have parts : ps = ps.take k ++ ps[k] :: ps.drop (k + 1) := by simp
  conv_lhs => rw [parts, encodeAll_append]
  have length : (ps.take k).length = k := by simp; omega
  rw [length, Nat.zero_add, encodeAll]

theorem mem_encodeAll {k : Nat} {ps : List Param} {item : DataItem}
    (h : item ∈ encodeAll k ps) :
    ∃ j, ∃ hj : j < ps.length, item ∈ (ps[j]).encode (k + j) := by
  induction ps generalizing k with
  | nil => simp [encodeAll] at h
  | cons p ps ih =>
      simp only [encodeAll, List.mem_append] at h
      rcases h with h | h
      · exact ⟨0, by simp, h⟩
      · obtain ⟨j, hj, member⟩ := ih h
        refine ⟨j + 1, by simpa using hj, ?_⟩
        simpa [Nat.add_assoc, Nat.add_comm 1] using member

theorem encodeAll_mem {k j : Nat} {ps : List Param} {item : DataItem} (hj : j < ps.length)
    (h : item ∈ (ps[j]).encode (k + j)) : item ∈ encodeAll k ps := by
  induction ps generalizing k j with
  | nil => simp at hj
  | cons p ps ih =>
      rw [encodeAll, List.mem_append]
      cases j with
      | zero => exact .inl h
      | succ j =>
          refine .inr (ih (by simpa using hj) ?_)
          simpa [Nat.add_assoc, Nat.add_comm 1] using h

end Param

namespace Message

open Param

theorem doubleLoop_returns (fuel mNumChunks mMaxChunks : Nat)
    (enough : mNumChunks ≤ 2 ^ fuel * mMaxChunks) :
    ∃ size, doubleLoop fuel mNumChunks mMaxChunks = some size ∧ mNumChunks ≤ size := by
  induction fuel generalizing mMaxChunks with
  | zero =>
      have h : ¬ mNumChunks > mMaxChunks := by simpa using enough
      exact ⟨mMaxChunks, by simp [doubleLoop, h], by omega⟩
  | succ fuel ih =>
      by_cases h : mNumChunks > mMaxChunks
      · have next : mNumChunks ≤ 2 ^ fuel * (2 * mMaxChunks) := by
          rw [← Nat.mul_assoc, ← Nat.pow_succ]
          exact enough
        simpa [doubleLoop, h] using ih _ next
      · exact ⟨mMaxChunks, by simp [doubleLoop, h], by omega⟩

/-- What making room for `n` chunks leaves: either the old array, or its first
`mNumChunks + n - 1` cells and unwritten ones after them. -/
structure Reserved (m : Message) (n : Nat) (m' : Message) : Prop where
  numParam : m'.mNumParam = m.mNumParam
  numChunks : m'.mNumChunks = m.mNumChunks + n
  fits : m'.mNumChunks ≤ m'.mMaxChunks
  cells : m'.mParams = m.mParams ∨ (m.mMaxChunks < m.mNumChunks + n ∧
    ∃ r, m'.mParams = prefixCells m.mParams (m.mNumChunks + n - 1) ++ List.replicate r none)

theorem reserve_spec (m : Message) (n : Nat) (capacity : 0 < m.mMaxChunks) :
    (∃ m', (m.reserve n).value = some m' ∧ Reserved m n m') ∧
      ((m.reserve n).InBounds ↔ m.mNumChunks + n ≤ m.mMaxChunks + 1) := by
  by_cases grows : m.mNumChunks + n > m.mMaxChunks
  · set counted : Message := { m with mNumChunks := m.mNumChunks + n } with counted_eq
    have shape : m.reserve n = counted.increaseSize := if_pos grows
    have enough : m.mNumChunks + n ≤ 2 ^ (m.mNumChunks + n) * m.mMaxChunks :=
      Nat.le_trans Nat.lt_two_pow_self.le (Nat.le_mul_of_pos_right _ capacity)
    obtain ⟨size, doubled, bound⟩ := doubleLoop_returns _ _ _ enough
    have sized : (ofOption (doubleLoop counted.mNumChunks counted.mNumChunks
        counted.mMaxChunks)).value = some size := doubled
    have room : m.mNumChunks + n - 1 ≤ (List.replicate size (none : Option DataItem)).length := by
      rw [List.length_replicate]
      omega
    have copied := copyLoop_value m.mParams (m.mNumChunks + n - 1) _ room
    rw [shape, increaseSize]
    constructor
    · refine ⟨_, by rw [bind_value_of sized, bind_value_of copied, pure_value], ?_⟩
      refine ⟨rfl, rfl, ?_, .inr ⟨grows, size - (m.mNumChunks + n - 1), ?_⟩⟩
      · simp only [mMaxChunks, List.length_append, prefixCells_length, List.length_drop,
          List.length_replicate, counted_eq]
        omega
      · simp only [List.drop_replicate]
    · rw [bind_inBounds_of sized, bind_inBounds_of copied, copyLoop_inBounds _ _ _ room]
      simp only [ofOption_inBounds, pure_inBounds, true_and, and_true, mMaxChunks]
      omega
  · have shape : m.reserve n = pure { m with mNumChunks := m.mNumChunks + n } :=
      if_neg grows
    rw [shape]
    refine ⟨⟨_, pure_value _, rfl, rfl, Nat.not_lt.mp grows, .inl rfl⟩, ?_⟩
    simp only [pure_inBounds, true_iff]
    omega

theorem Reserved.capacity {m m' : Message} {n : Nat} (made : Reserved m n m')
    (h : 0 < m.mMaxChunks) : 0 < m'.mMaxChunks := by
  have fits := made.fits
  rw [made.numChunks] at fits
  rcases made.cells with same | ⟨more, -⟩
  · rw [mMaxChunks, same]
    exact h
  · omega

/-- The parameters `ps` are stored in order from the first chunk on, and every
other cell is still unwritten. -/
structure Layout (m : Message) (ps : List Param) : Prop where
  numParam : m.mNumParam = ps.length
  numChunks : m.mNumChunks = (encodeAll 0 ps).length
  cells : ∃ r, m.mParams = (encodeAll 0 ps).map some ++ List.replicate r none
  capacity : 0 < m.mMaxChunks

theorem layout_ofSize (n : Nat) (h : 0 < n) : Layout (ofSize n) [] where
  numParam := rfl
  numChunks := rfl
  cells := ⟨n, rfl⟩
  capacity := by simpa [mMaxChunks, ofSize] using h

namespace Layout

variable {m m' : Message} {ps : List Param}

theorem chunks_le (h : Layout m ps) : m.mNumChunks ≤ m.mMaxChunks := by
  obtain ⟨r, cells⟩ := h.cells
  rw [mMaxChunks, cells, h.numChunks, List.length_append, List.length_map]
  omega

theorem chunks_eq (h : Layout m ps) : m.chunks = (encodeAll 0 ps).map some := by
  obtain ⟨r, cells⟩ := h.cells
  have bound := h.chunks_le
  rw [chunks, prefixCells_of_le _ _ bound, cells, h.numChunks]
  simp

theorem reserved {n : Nat} (h : Layout m ps) (made : Reserved m n m') :
    ∃ r, m'.mParams = (encodeAll 0 ps).map some ++ List.replicate (n + r) none := by
  have fits := made.fits
  rw [made.numChunks, h.numChunks, mMaxChunks] at fits
  suffices weak : ∃ r, m'.mParams = (encodeAll 0 ps).map some ++ List.replicate r none by
    obtain ⟨r, cells⟩ := weak
    rw [cells, List.length_append, List.length_map, List.length_replicate] at fits
    exact ⟨r - n, by rw [cells, show n + (r - n) = r by omega]⟩
  obtain ⟨r, cells⟩ := h.cells
  rcases made.cells with same | ⟨more, extra, grown⟩
  · exact ⟨r, same.trans cells⟩
  · have bound := h.chunks_le
    obtain ⟨k, hk⟩ : ∃ k, m.mNumChunks + n - 1 = ((encodeAll 0 ps).map some).length + k :=
      Nat.exists_eq_add_of_le (by rw [List.length_map, ← h.numChunks]; omega)
    exact ⟨k + extra, by
      rw [grown, cells, hk, prefixCells_unwritten, List.append_assoc,
        List.replicate_append_replicate]⟩

end Layout

theorem addItem_spec (m : Message) (mType : Char) (mData : Word) (capacity : 0 < m.mMaxChunks) :
    ∃ m₁, Reserved m 1 m₁ ∧
      (m.addItem mType mData).value = some { m₁ with
        mParams := m₁.mParams.set m.mNumChunks (some ⟨mType, mData, paramByte m.mNumParam⟩)
        mNumParam := m.mNumParam + 1 } ∧
      ((m.addItem mType mData).InBounds ↔ m.mNumChunks ≤ m.mMaxChunks) := by
  obtain ⟨⟨m₁, returned, made⟩, bounds⟩ := reserve_spec m 1 capacity
  have index : m₁.mNumChunks - 1 = m.mNumChunks := by
    rw [made.numChunks]
    omega
  have inside : m.mNumChunks < m₁.mParams.length := by
    have := made.fits
    rw [made.numChunks] at this
    exact this
  refine ⟨m₁, made, ?_, ?_⟩
  · unfold addItem
    rw [bind_value_of returned, bind_value_of (store_value _ _ _), pure_value, index,
      made.numParam]
  · unfold addItem
    rw [bind_inBounds_of returned, bind_inBounds_of (store_value _ _ _), store_inBounds,
      bounds, index]
    simp only [inside, pure_inBounds, and_true]
    omega

theorem addItem_layout {m : Message} {ps : List Param} (h : Layout m ps) (p : Param)
    (mType : Char) (mData : Word)
    (single : p.encode ps.length = [⟨mType, mData, paramByte ps.length⟩]) :
    ∃ m', (m.addItem mType mData).value = some m' ∧ Layout m' (ps ++ [p]) := by
  obtain ⟨m₁, made, returned, -⟩ := addItem_spec m mType mData h.capacity
  obtain ⟨r, cells⟩ := h.reserved made
  refine ⟨_, returned, ?_, ?_, ⟨r, ?_⟩, ?_⟩
  · simp [h.numParam]
  · simp [made.numChunks, h.numChunks, encodeAll_snoc, single]
  · rw [encodeAll_snoc, single, ← h.numParam, h.numChunks]
    change m₁.mParams.set _ _ = _
    rw [cells, List.set_append_right _ _ (by simp), Nat.add_comm 1 r, List.replicate_succ]
    simp
  · have := made.capacity h.capacity
    simpa only [mMaxChunks, List.length_set] using this

/-- Chunk `i` of the string being added with parameter number `mNumParam`. -/
def fullItem (s : List (Option UInt8)) (mNumParam i : Nat) : DataItem :=
  ⟨'s', wordAt s (4 * i), paramByte mNumParam⟩

theorem fullChunkLoop_spec (s : List (Option UInt8)) (mNumParam n : Nat)
    (mParams : List (Option DataItem)) :
    ∃ written, (fullChunkLoop s mNumParam n mParams).value = some written ∧
      written.length = mParams.length ∧
      (∀ j, (∀ i < n, j ≠ mNumParam + i) → written[j]? = mParams[j]?) ∧
      ((fullChunkLoop s mNumParam n mParams).InBounds ↔
        ∀ i < n, 4 * i + 3 < s.length ∧ mNumParam + i < mParams.length) := by
  induction n with
  | zero => exact ⟨mParams, by simp [fullChunkLoop]⟩
  | succ n ih =>
      obtain ⟨written, returned, length, frame, bounds⟩ := ih
      refine ⟨written.set (mNumParam + n) (some (fullItem s mNumParam n)), ?_, ?_, ?_, ?_⟩
      · rw [fullChunkLoop, bind_value_of returned, bind_value_of (loadWord_value _ _), store_value]
        rfl
      · rw [List.length_set, length]
      · intro j outside
        rw [List.getElem?_set_ne (outside n (by omega)).symm]
        exact frame j fun i hi => outside i (by omega)
      · rw [fullChunkLoop, bind_inBounds_of returned, bind_inBounds_of (loadWord_value _ _),
          loadWord_inBounds, store_inBounds, bounds, length]
        constructor
        · rintro ⟨before, word, cell⟩ i hi
          rcases Nat.lt_succ_iff_lt_or_eq.mp hi with earlier | rfl
          · exact before i earlier
          · exact ⟨word, cell⟩
        · intro all
          exact ⟨fun i hi => all i (by omega), all n (by omega)⟩

/-- Started at the first unwritten cell the loop appends its chunks. -/
theorem fullChunkLoop_inPlace (s : List (Option UInt8)) (mNumParam n r : Nat)
    (stored : List (Option DataItem)) (place : stored.length = mNumParam) :
    (fullChunkLoop s mNumParam n (stored ++ List.replicate (n + r) none)).value =
      some (stored ++ (List.range n).map (fun i => some (fullItem s mNumParam i)) ++
        List.replicate r none) := by
  induction n generalizing r with
  | zero => simp [fullChunkLoop]
  | succ n ih =>
      have before := ih (r + 1)
      rw [show n + (r + 1) = n + 1 + r by omega] at before
      rw [fullChunkLoop, bind_value_of before, bind_value_of (loadWord_value _ _), store_value,
        List.set_append_right _ _ (by simp [place])]
      have index : mNumParam + n - (stored ++ (List.range n).map
          (fun i => some (fullItem s mNumParam i))).length = 0 := by simp [place]
      rw [index, List.replicate_succ, List.set_cons_zero, List.range_succ, List.map_append]
      simp [fullItem]

theorem encode_string (s : List UInt8) (k : Nat) :
    (Param.string s).encode k = (List.range (s.length / 4)).map (fullItem (buffer s) k) ++
      if s.length % 4 = 0 then [] else [fullItem (buffer s) k (s.length / 4)] := by
  rw [Param.encode, words_eq, List.map_append, List.map_map]
  split <;> rfl

def withTail (m : Message) (s : List UInt8) (full : List (Option DataItem)) :
    List (Option DataItem) :=
  if s.length % 4 = 0 then full
  else full.set (m.mNumChunks + s.length / 4)
    (some (fullItem (buffer s) m.mNumParam (s.length / 4)))

/-- Past the full chunks a whole word is read, so only a string that leaves three
characters, and the terminator after them, fills it. -/
theorem tailChunk_spec {m m₁ : Message} {s : List UInt8} {full : List (Option DataItem)}
    (made : Reserved m (wordCount s.length) m₁) (length : full.length = m₁.mParams.length) :
    (tailChunk (buffer s) s.length { m₁ with mParams := full }).value =
        some (m.withTail s full) ∧
      ((tailChunk (buffer s) s.length { m₁ with mParams := full }).InBounds ↔
        s.length % 4 = 0 ∨ s.length % 4 = 3) := by
  by_cases whole : s.length % 4 = 0
  · have skipped : tailChunk (buffer s) s.length { m₁ with mParams := full } = pure full :=
      if_neg (by simpa using whole)
    rw [skipped, withTail, if_pos whole]
    exact ⟨pure_value _, by simp [whole]⟩
  · have index : m₁.mNumChunks - 1 = m.mNumChunks + s.length / 4 := by
      rw [made.numChunks, wordCount, if_neg whole]
      omega
    have inside : m.mNumChunks + s.length / 4 < full.length := by
      have fits := made.fits
      rw [made.numChunks, wordCount, if_neg whole] at fits
      rw [length]
      exact fits
    have tail : tailChunk (buffer s) s.length { m₁ with mParams := full } =
        (loadWord (buffer s) (4 * (s.length / 4)) >>= fun word =>
          store full (m.mNumChunks + s.length / 4)
            (some ⟨'s', word, paramByte m.mNumParam⟩)) := by
      rw [← index, ← made.numParam]
      exact if_pos whole
    have source : 4 * (s.length / 4) + 3 < s.length + 1 ↔ s.length % 4 = 0 ∨ s.length % 4 = 3 := by
      omega
    rw [tail]
    constructor
    · rw [bind_value_of (loadWord_value _ _), store_value, withTail, if_neg whole]
      rfl
    · rw [bind_inBounds_of (loadWord_value _ _), loadWord_inBounds, store_inBounds, buffer_length,
        source, and_iff_left inside]

theorem addString_spec (m : Message) {s : List UInt8} (nulFree : CString.NulFree s)
    (capacity : 0 < m.mMaxChunks) :
    ∃ m₁ full, Reserved m (wordCount s.length) m₁ ∧
      (fullChunkLoop (buffer s) m.mNumParam (s.length / 4) m₁.mParams).value = some full ∧
      (m.addString s).value = some { m₁ with
        mParams := m.withTail s full
        mNumParam := m.mNumParam + 1 } ∧
      ((m.addString s).InBounds ↔ m.mNumChunks + wordCount s.length ≤ m.mMaxChunks + 1 ∧
        (∀ i < s.length / 4, m.mNumParam + i < m₁.mMaxChunks) ∧
        (s.length % 4 = 0 ∨ s.length % 4 = 3)) := by
  obtain ⟨⟨m₁, returned, made⟩, bounds⟩ := reserve_spec m (wordCount s.length) capacity
  obtain ⟨full, looped, length, -, loopBounds⟩ :=
    fullChunkLoop_spec (buffer s) m.mNumParam (s.length / 4) m₁.mParams
  obtain ⟨tailed, tailBounds⟩ := tailChunk_spec made length
  have loopIff : (∀ i < s.length / 4, 4 * i + 3 < (buffer s).length ∧
      m.mNumParam + i < m₁.mParams.length) ↔
      ∀ i < s.length / 4, m.mNumParam + i < m₁.mMaxChunks := by
    constructor
    · exact fun all i hi => (all i hi).2
    · refine fun all i hi => ⟨?_, all i hi⟩
      rw [buffer_length]
      omega
  rw [loopIff] at loopBounds
  have numParam := made.numParam
  refine ⟨m₁, full, made, looped, ?_⟩
  unfold addString
  rw [strlen_of_nulFree nulFree]
  rw [← numParam] at looped loopBounds
  constructor
  · rw [bind_value_of returned, bind_value_of looped, bind_value_of tailed, pure_value, numParam]
  · rw [bind_inBounds_of returned, bind_inBounds_of looped, bind_inBounds_of tailed,
      bounds, loopBounds, tailBounds, numParam]
    simp only [pure_inBounds, and_true]

/-- A string of at least four characters is in place when chunks and parameters
have been counted alike. -/
def InPlace (m : Message) (p : Param) : Prop := 0 < p.fullCount → m.mNumParam = m.mNumChunks

instance (m : Message) (p : Param) : Decidable (m.InPlace p) := by
  unfold InPlace
  infer_instance

theorem addString_layout {m : Message} {ps : List Param} (h : Layout m ps) {s : List UInt8}
    (nulFree : CString.NulFree s) (place : m.InPlace (.string s)) :
    ∃ m', (m.addString s).value = some m' ∧ Layout m' (ps ++ [.string s]) := by
  obtain ⟨m₁, full, made, looped, returned, -⟩ := addString_spec m nulFree h.capacity
  obtain ⟨r, cells⟩ := h.reserved made
  set stored := (encodeAll 0 ps).map some with stored_eq
  set tail := if s.length % 4 = 0 then 0 else 1 with tail_eq
  have fullCells : full = stored ++ (List.range (s.length / 4)).map
      (fun i => some (fullItem (buffer s) m.mNumParam i)) ++ List.replicate (tail + r) none := by
    rw [cells, wordCount, Nat.add_assoc] at looped
    rcases Nat.eq_zero_or_pos (s.length / 4) with zero | pos
    · rw [zero, Nat.zero_add, fullChunkLoop, pure_value, Option.some.injEq] at looped
      rw [← looped, zero]
      simp [tail_eq]
    · have aligned : stored.length = m.mNumParam := by
        rw [stored_eq, List.length_map, ← h.numChunks, place pos]
      rw [fullChunkLoop_inPlace _ _ _ _ _ aligned, Option.some.injEq] at looped
      exact looped.symm
  have final : m.withTail s full = (encodeAll 0 (ps ++ [.string s])).map some ++
      List.replicate r none := by
    rw [encodeAll_snoc, encode_string, withTail, fullCells, ← h.numParam]
    by_cases whole : s.length % 4 = 0
    · simp [whole, tail_eq, stored_eq]
    · have index : m.mNumChunks + s.length / 4 = (stored ++ (List.range (s.length / 4)).map
          (fun i => some (fullItem (buffer s) m.mNumParam i))).length := by
        simp [stored_eq, h.numChunks]
      rw [if_neg whole, if_neg whole, index, List.set_append_right _ _ (Nat.le_refl _),
        Nat.sub_self, tail_eq, if_neg whole, Nat.add_comm 1 r, List.replicate_succ,
        List.set_cons_zero, stored_eq]
      simp
  refine ⟨_, returned, ?_, ?_, ⟨r, final⟩, ?_⟩
  · simp [h.numParam]
  · change m₁.mNumChunks = _
    rw [made.numChunks, h.numChunks, encodeAll_snoc, List.length_append, encode_length]
    rfl
  · have length : (m.withTail s full).length = m₁.mParams.length := by
      rw [final, cells, List.length_append, List.length_append, stored_eq, encodeAll_snoc]
      simp [encode_length, chunkCount]
      omega
    change 0 < (m.withTail s full).length
    rw [length]
    exact made.capacity h.capacity

/-- An add in place stores its parameter behind the others. -/
theorem add_layout {m : Message} {ps : List Param} (h : Layout m ps) {p : Param}
    (nulFree : p.NulFree) (place : m.InPlace p) :
    ∃ m', (m.add p).value = some m' ∧ Layout m' (ps ++ [p]) := by
  cases p with
  | int i => exact addItem_layout h (.int i) _ _ rfl
  | float f => exact addItem_layout h (.float f) _ _ rfl
  | gameObject g => exact addItem_layout h (.gameObject g) _ _ rfl
  | string s => exact addString_layout h nulFree place

end Message

end Ssuge

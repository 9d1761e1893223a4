import Ssuge.MessageLossless

/-! What out-of-place adds leave behind, whatever the number of parameters. A full
chunk that is placed too low leaves the last chunk but the tail unwritten, and no
later add reaches it; from then on no string of the message can be read. An
empty string leaves no chunk. In a message of more than 256 parameters a string
without terminator runs on into the parameter after it as soon as its number comes
again. -/

namespace Ssuge.Message

open RecordedRun CString Param GuardedRun

/-- There are more chunks than parameters, and nothing beyond the counted chunks. -/
structure Trailing (m : Message) : Prop where
  capacity : 0 < m.mMaxChunks
  behind : m.mNumParam < m.mNumChunks
  beyond : ∀ i, m.mNumChunks ≤ i → m.mParams[i]?.join = none

/-- One of the counted chunks was never written. -/
def Gap (m : Message) : Prop := ∃ i < m.mNumChunks, m.mParams[i]?.join = none

theorem Gap.mem_chunks {m : Message} (gap : m.Gap) : none ∈ m.chunks := by
  obtain ⟨i, counted, cell⟩ := gap
  rw [chunks, prefixCells, List.mem_map]
  exact ⟨i, List.mem_range.mpr counted, cell⟩

theorem Reserved.unwritten {m m' : Message} {n i : Nat} (made : Reserved m n m')
    (cell : m.mParams[i]?.join = none) : m'.mParams[i]?.join = none := by
  rcases made.cells with same | ⟨-, r, grown⟩
  · rw [same, cell]
  · rw [grown]
    by_cases copied : i < (prefixCells m.mParams (m.mNumChunks + n - 1)).length
    · rw [List.getElem?_append_left copied, prefixCells, List.getElem?_map,
        List.getElem?_range (by simpa using copied)]
      exact cell
    · rw [List.getElem?_append_right (Nat.not_lt.mp copied), List.getElem?_replicate]
      split <;> rfl

theorem set_unwritten {cells : List (Option DataItem)} {i j : Nat} {item : Option DataItem}
    (other : j ≠ i) (cell : cells[j]?.join = none) : (cells.set i item)[j]?.join = none := by
  rw [List.getElem?_set_ne other.symm, cell]

theorem addItem_trailing {m : Message} (h : Trailing m) (gap : m.Gap) (mType : Char)
    (mData : Word) :
    ∃ m', (m.addItem mType mData).value = some m' ∧ Trailing m' ∧ m'.Gap := by
  obtain ⟨m₁, made, returned, -⟩ := addItem_spec m mType mData h.capacity
  obtain ⟨i, counted, cell⟩ := gap
  have chunks := made.numChunks
  refine ⟨_, returned, ⟨?_, ?_, fun j far => ?_⟩, i, ?_, ?_⟩
  · simpa only [mMaxChunks, List.length_set] using made.capacity h.capacity
  · have := h.behind
    simp only [chunks]
    omega
  · simp only [chunks] at far
    exact set_unwritten (by omega) (made.unwritten (h.beyond j (by omega)))
  · simp only [chunks]
    omega
  · exact set_unwritten (by omega) (made.unwritten cell)

/-- The loop's last full chunk goes below its place, which stays unwritten. -/
theorem addString_trailing {m : Message} (h : Trailing m) {s : List UInt8}
    (nulFree : CString.NulFree s) (nonempty : s ≠ []) (lost : 0 < s.length / 4 ∨ m.Gap) :
    ∃ m', (m.addString s).value = some m' ∧ Trailing m' ∧ m'.Gap := by
  obtain ⟨m₁, full, made, looped, returned, -⟩ := addString_spec m nulFree h.capacity
  obtain ⟨written, looped', length, frame, -⟩ :=
    fullChunkLoop_spec (buffer s) m.mNumParam (s.length / 4) m₁.mParams
  obtain rfl := Option.some.inj (looped.symm.trans looped')
  have chunks := made.numChunks
  have behind := h.behind
  have counted : s.length / 4 ≤ wordCount s.length ∧ 0 < wordCount s.length ∧
      (s.length % 4 ≠ 0 → s.length / 4 < wordCount s.length) := by
    have := List.length_pos_of_ne_nil nonempty
    rw [wordCount]
    split <;> omega
  have kept : ∀ j, (∀ i < s.length / 4, j ≠ m.mNumParam + i) →
      (s.length % 4 ≠ 0 → j ≠ m.mNumChunks + s.length / 4) → m.mParams[j]?.join = none →
      (m.withTail s full)[j]?.join = none := by
    intro j outside last cell
    have through : full[j]?.join = none := by rw [frame j outside, made.unwritten cell]
    rw [withTail]
    split
    · exact through
    · exact set_unwritten (last ‹_›) through
  refine ⟨_, returned, ⟨?_, ?_, fun j far => ?_⟩, ?_⟩
  · rw [mMaxChunks, withTail_length, length]
    exact made.capacity h.capacity
  · simp only [chunks]
    omega
  · simp only [chunks] at far
    exact kept j (fun i hi => by omega) (fun tail => by have := counted.2.2 tail; omega)
      (h.beyond j (by omega))
  · by_cases some_full : 0 < s.length / 4
    · refine ⟨m.mNumChunks + s.length / 4 - 1, by simp only [chunks]; omega, ?_⟩
      exact kept _ (fun i hi => by omega) (fun _ => by omega) (h.beyond _ (by omega))
    · obtain ⟨i, inside, cell⟩ := lost.resolve_left some_full
      exact ⟨i, by simp only [chunks]; omega,
        kept i (fun i hi => by omega) (fun _ => by omega) cell⟩

theorem add_trailing {m : Message} (h : Trailing m) {p : Param} (nulFree : p.NulFree)
    (nonempty : p ≠ .string []) (lost : 0 < p.fullCount ∨ m.Gap) :
    ∃ m', addStep m p = some m' ∧ Trailing m' ∧ m'.Gap := by
  cases p with
  | string s => exact addString_trailing h nulFree (fun empty => nonempty (by rw [empty])) lost
  | _ => exact addItem_trailing h (lost.resolve_left (Nat.lt_irrefl 0)) _ _

theorem Layout.beyond {m : Message} {ps : List Param} (h : Layout m ps) (i : Nat)
    (far : m.mNumChunks ≤ i) : m.mParams[i]?.join = none := by
  obtain ⟨r, cells⟩ := h.cells
  rw [h.numChunks, ← List.length_map (f := some)] at far
  rw [cells, List.getElem?_append_right far, List.getElem?_replicate]
  split <;> rfl

/-- The first add out of place leaves a gap that stays. -/
theorem gap_of_not_inOrder {numChunks : Nat} (positive : 0 < numChunks) {ps : List Param}
    (nulFree : ∀ p ∈ ps, p.NulFree) (nonempty : ∀ p ∈ ps, p ≠ .string [])
    (disorder : ¬ InOrder ps) :
    ∃ m, runSteps addStep (ofSize numChunks) ps = some m ∧ Trailing m ∧ m.Gap := by
  induction ps using List.reverseRecOn with
  | nil => exact absurd ⟨nonempty, List.Pairwise.nil⟩ disorder
  | append_singleton ps p ih =>
      have free : ∀ q ∈ ps, q.NulFree := fun q member => nulFree q (by simp [member])
      have filled : ∀ q ∈ ps, q ≠ .string [] := fun q member => nonempty q (by simp [member])
      have last : p ≠ .string [] := nonempty p (by simp)
      suffices before : ∃ m, runSteps addStep (ofSize numChunks) ps = some m ∧ Trailing m ∧
          (0 < p.fullCount ∨ m.Gap) by
        obtain ⟨m, reached, trailing, lost⟩ := before
        obtain ⟨m', added, next⟩ := add_trailing trailing (nulFree p (by simp)) last lost
        exact ⟨m', by rw [runSteps_snoc, reached, Option.bind_some, added], next⟩
      by_cases order : InOrder ps
      · obtain ⟨m, reached, layout⟩ := layout_of_inOrder positive free order
        have misplaced : ¬ m.InPlace p := fun place =>
          disorder (inOrder_snoc.mpr ⟨order, last, (layout.inPlace_iff filled p).mp place⟩)
        rw [InPlace, Classical.not_imp] at misplaced
        obtain ⟨full, different⟩ := misplaced
        have least := length_le_encodeAll filled 0
        rw [← layout.numChunks, ← layout.numParam] at least
        exact ⟨m, reached, ⟨layout.capacity, by omega, layout.beyond⟩, .inl full⟩
      · obtain ⟨m, reached, trailing, gap⟩ := ih free filled order
        exact ⟨m, reached, trailing, .inr gap⟩

/-- Where every chunk can be read, the adds were in order. -/
theorem layout_of_written {numChunks : Nat} (positive : 0 < numChunks) {ps : List Param}
    (nulFree : ∀ p ∈ ps, p.NulFree) (nonempty : ∀ p ∈ ps, p ≠ .string []) {m : Message}
    (reached : runSteps addStep (ofSize numChunks) ps = some m) (written : none ∉ m.chunks) :
    InOrder ps ∧ Layout m ps := by
  have order : InOrder ps := by
    by_contra disorder
    obtain ⟨m', reached', -, gap⟩ := gap_of_not_inOrder positive nulFree nonempty disorder
    obtain rfl := Option.some.inj (reached.symm.trans reached')
    exact written gap.mem_chunks
  obtain ⟨m', reached', layout⟩ := layout_of_inOrder positive nulFree order
  obtain rfl := Option.some.inj (reached.symm.trans reached')
  exact ⟨order, layout⟩

theorem written_of_getString {m : Message} {k : Nat} {s : List UInt8}
    (read : m.getString k = .ok s) : none ∉ m.chunks := by
  obtain ⟨extent, defined, -⟩ := bind_eq_ok.mp read
  obtain ⟨items, cells⟩ := stringExtent_defined defined
  simp [cells]

theorem nulFree_of_getString {m : Message} {k : Nat} {s : List UInt8}
    (read : m.getString k = .ok s) : CString.NulFree s := by
  obtain ⟨extent, -, copied⟩ := bind_eq_ok.mp read
  exact readCString_nulFree (definedOr_eq_ok.mp copied)

theorem tally_of_empty {numChunks : Nat} (positive : 0 < numChunks) {ps : List Param}
    (nulFree : ∀ p ∈ ps, p.NulFree) {n : UInt8}
    (empty : ∀ k, ∀ h : k < ps.length, paramByte k = n → ps[k] = .string []) {m : Message}
    (reached : runSteps addStep (ofSize numChunks) ps = some m) : tally n m.mParams = 0 := by
  induction ps using List.reverseRecOn generalizing m with
  | nil =>
      obtain rfl := Option.some.inj reached
      exact tally_unwritten n numChunks
  | append_singleton ps p ih =>
      have free : ∀ q ∈ ps, q.NulFree := fun q member => nulFree q (by simp [member])
      rw [runSteps_snoc] at reached
      obtain ⟨m₀, before, added⟩ := Option.bind_eq_some_iff.mp reached
      obtain ⟨count, capacity⟩ := runSteps_counts positive free before
      have none_before := ih free (fun k hk same => by
        have := empty k (by simp; omega) same
        rwa [List.getElem_append_left hk] at this) before
      suffices kept : tally n m.mParams ≤ tally n m₀.mParams by omega
      by_cases same : paramByte ps.length = n
      · have := empty ps.length (by simp) same
        simp only [List.getElem_concat_length] at this
        subst this
        exact addString_nil_tally capacity added n
      · obtain ⟨m', value, step⟩ := add_added m₀ (nulFree p (by simp)) capacity
        obtain rfl := Option.some.inj (added.symm.trans value)
        exact step.kept n (by rwa [count])

end Ssuge.Message

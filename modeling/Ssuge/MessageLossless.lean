import Ssuge.MessageGetters
import Ssuge.GuardedRun
import Mathlib.Data.List.Induction

/-! Which sequences of at most 256 adds read back unchanged. Sufficient: no string
is empty, and no string with a full chunk comes after a parameter of several
chunks; then every add is in place. Necessary: an add never creates chunks with
another parameter's number, so chunks that are once missing stay missing. An
empty string has no chunk at all, and a full chunk placed too low overwrites
one of an earlier parameter. -/

namespace Ssuge.Message

open RecordedRun CString Param GuardedRun

theorem addAll_value (m : Message) (ps : List Param) :
    (m.addAll ps).value = runSteps addStep m ps := by
  induction ps generalizing m with
  | nil => rfl
  | cons p ps ih =>
      rw [addAll, bind_value, runSteps, addStep]
      exact congrArg _ (funext ih)

/-- After the calls `ps` on a new message every parameter reads back. -/
def Lossless (numChunks : Nat) (ps : List Param) : Prop :=
  ∃ m, ((ofSize numChunks).addAll ps).value = some m ∧
    ∀ k, ∀ h : k < ps.length, m.Retrieves k ps[k]

/-- No string is empty, and no string of four or more characters comes after one
of more than four. -/
structure InOrder (ps : List Param) : Prop where
  nonempty : ∀ p ∈ ps, p ≠ .string []
  ordered : ps.Pairwise fun p q => 1 < p.chunkCount → q.fullCount = 0

instance (ps : List Param) : Decidable (InOrder ps) :=
  decidable_of_iff ((∀ p ∈ ps, p ≠ .string []) ∧
      ps.Pairwise fun p q => 1 < p.chunkCount → q.fullCount = 0)
    ⟨fun ⟨nonempty, ordered⟩ => ⟨nonempty, ordered⟩,
      fun ⟨nonempty, ordered⟩ => ⟨nonempty, ordered⟩⟩

theorem chunkCount_pos {p : Param} (h : p ≠ .string []) : 0 < p.chunkCount := by
  cases p with
  | string s =>
      have : 0 < s.length := List.length_pos_of_ne_nil fun empty => h (by rw [empty])
      rw [chunkCount, wordCount]
      split <;> omega
  | _ => exact Nat.one_pos

theorem length_le_encodeAll {ps : List Param} (nonempty : ∀ p ∈ ps, p ≠ .string []) (k : Nat) :
    ps.length ≤ (encodeAll k ps).length := by
  induction ps generalizing k with
  | nil => simp
  | cons p ps ih =>
      have first := chunkCount_pos (nonempty p (by simp))
      have rest := ih (fun q member => nonempty q (by simp [member])) (k + 1)
      rw [encodeAll, List.length_append, encode_length, List.length_cons]
      omega

/-- With no empty string, chunks and parameters are counted alike exactly while
every parameter has one chunk. -/
theorem length_encodeAll_eq_iff {ps : List Param} (nonempty : ∀ p ∈ ps, p ≠ .string []) (k : Nat) :
    ps.length = (encodeAll k ps).length ↔ ∀ p ∈ ps, p.chunkCount ≤ 1 := by
  induction ps generalizing k with
  | nil => simp [encodeAll]
  | cons p ps ih =>
      have first := chunkCount_pos (nonempty p (by simp))
      have rest : ∀ q ∈ ps, q ≠ .string [] := fun q member => nonempty q (by simp [member])
      have least := length_le_encodeAll rest (k + 1)
      rw [encodeAll, List.length_append, encode_length, List.length_cons, List.forall_mem_cons,
        ← ih rest (k + 1)]
      omega

theorem Layout.inPlace_iff {m : Message} {ps : List Param} (h : Layout m ps)
    (nonempty : ∀ p ∈ ps, p ≠ .string []) (p : Param) :
    m.InPlace p ↔ ∀ q ∈ ps, 1 < q.chunkCount → p.fullCount = 0 := by
  rw [InPlace, h.numParam, h.numChunks, length_encodeAll_eq_iff nonempty]
  constructor
  · intro place q member several
    by_contra full
    have := place (Nat.pos_of_ne_zero full) q member
    omega
  · intro order full q member
    by_contra several
    have := order q member (by omega)
    omega

theorem inOrder_snoc {ps : List Param} {p : Param} :
    InOrder (ps ++ [p]) ↔ InOrder ps ∧ p ≠ .string [] ∧
      ∀ q ∈ ps, 1 < q.chunkCount → p.fullCount = 0 := by
  constructor
  · rintro ⟨nonempty, ordered⟩
    rw [List.pairwise_append] at ordered
    exact ⟨⟨fun q member => nonempty q (by simp [member]), ordered.1⟩,
      nonempty p (by simp), fun q member => ordered.2.2 q member p (by simp)⟩
  · rintro ⟨⟨nonempty, ordered⟩, last, order⟩
    refine ⟨?_, ?_⟩
    · intro q member
      rcases List.mem_append.mp member with earlier | final
      · exact nonempty q earlier
      · exact (List.mem_singleton.mp final) ▸ last
    · rw [List.pairwise_append]
      refine ⟨ordered, List.pairwise_singleton _ _, fun q member r final => ?_⟩
      rw [List.mem_singleton.mp final]
      exact order q member

theorem layout_of_inOrder {numChunks : Nat} (positive : 0 < numChunks) {ps : List Param}
    (nulFree : ∀ p ∈ ps, p.NulFree) (order : InOrder ps) :
    ∃ m, runSteps addStep (ofSize numChunks) ps = some m ∧ Layout m ps := by
  induction ps using List.reverseRecOn with
  | nil => exact ⟨_, rfl, layout_ofSize numChunks positive⟩
  | append_singleton ps p ih =>
      obtain ⟨earlier, -, last⟩ := inOrder_snoc.mp order
      obtain ⟨m, reached, layout⟩ := ih (fun q member => nulFree q (by simp [member])) earlier
      have place := (layout.inPlace_iff earlier.nonempty p).mpr last
      obtain ⟨m', returned, layout'⟩ := add_layout layout (nulFree p (by simp)) place
      refine ⟨m', ?_, layout'⟩
      rw [runSteps_snoc, reached]
      exact returned

theorem lossless_of_inOrder {numChunks : Nat} (positive : 0 < numChunks) {ps : List Param}
    (bound : ps.length ≤ 256) (nulFree : ∀ p ∈ ps, p.NulFree) (order : InOrder ps) :
    Lossless numChunks ps := by
  obtain ⟨m, reached, layout⟩ := layout_of_inOrder positive nulFree order
  refine ⟨m, by rw [addAll_value, reached], fun k length => ?_⟩
  exact retrieves_layout layout bound nulFree length
    (order.nonempty _ (List.getElem_mem length))

/-- What an add does in any state: it counts, and outside the new parameter's number
it creates no chunk. -/
structure Added (m : Message) (p : Param) (m' : Message) : Prop where
  numParam : m'.mNumParam = m.mNumParam + 1
  capacity : 0 < m'.mMaxChunks
  kept : ∀ n, paramByte m.mNumParam ≠ n → tally n m'.mParams ≤ tally n m.mParams

theorem Reserved.tally_le {m m' : Message} {k : Nat} (made : Reserved m k m') (n : UInt8) :
    tally n m'.mParams ≤ tally n m.mParams := by
  rcases made.cells with same | ⟨-, r, grown⟩
  · rw [same]
  · rw [grown, tally_append, tally_unwritten, Nat.add_zero]
    exact tally_prefixCells_le n _ _

theorem fullChunkLoop_tally_le {s : List (Option UInt8)} {mNumParam k : Nat}
    {mParams written : List (Option DataItem)} {n : UInt8} (different : paramByte mNumParam ≠ n)
    (looped : (fullChunkLoop s mNumParam k mParams).value = some written) :
    tally n written ≤ tally n mParams := by
  induction k generalizing written with
  | zero =>
      obtain rfl := Option.some.inj looped
      exact Nat.le_refl _
  | succ k ih =>
      obtain ⟨before, returned, -⟩ := fullChunkLoop_spec s mNumParam k mParams
      rw [fullChunkLoop, bind_value_of returned, bind_value_of (loadWord_value _ _),
        store_value] at looped
      obtain rfl := Option.some.inj looped
      exact (tally_set_le different before _).trans (ih returned)

/-- The first full chunk overwrites what is stored at its place. -/
theorem fullChunkLoop_tally_lt {s : List (Option UInt8)} {mNumParam k : Nat}
    {mParams written : List (Option DataItem)} {n : UInt8} (different : paramByte mNumParam ≠ n)
    {old : DataItem} (cell : mParams[mNumParam]? = some (some old)) (number : old.mParamNum = n)
    (looped : (fullChunkLoop s mNumParam (k + 1) mParams).value = some written) :
    tally n written < tally n mParams := by
  induction k generalizing written with
  | zero =>
      obtain rfl := Option.some.inj looped
      exact tally_set_lt different cell number
  | succ k ih =>
      obtain ⟨before, returned, -⟩ := fullChunkLoop_spec s mNumParam (k + 1) mParams
      rw [fullChunkLoop, bind_value_of returned, bind_value_of (loadWord_value _ _),
        store_value] at looped
      obtain rfl := Option.some.inj looped
      exact (tally_set_le different before _).trans_lt (ih returned)

theorem withTail_tally_le (m : Message) (s : List UInt8) {n : UInt8}
    (different : paramByte m.mNumParam ≠ n) (full : List (Option DataItem)) :
    tally n (m.withTail s full) ≤ tally n full := by
  rw [withTail]
  split
  · exact Nat.le_refl _
  · exact tally_set_le different full _

theorem withTail_length (m : Message) (s : List UInt8) (full : List (Option DataItem)) :
    (m.withTail s full).length = full.length := by
  rw [withTail]
  split <;> simp

theorem addItem_added (m : Message) (mType : Char) (mData : Word) (capacity : 0 < m.mMaxChunks)
    (p : Param) : ∃ m', (m.addItem mType mData).value = some m' ∧ Added m p m' := by
  obtain ⟨m₁, made, returned, -⟩ := addItem_spec m mType mData capacity
  refine ⟨_, returned, rfl, ?_, fun n different => ?_⟩
  · simpa only [mMaxChunks, List.length_set] using made.capacity capacity
  · exact (tally_set_le different m₁.mParams _).trans (made.tally_le n)

theorem addString_added (m : Message) {s : List UInt8} (nulFree : CString.NulFree s)
    (capacity : 0 < m.mMaxChunks) :
    ∃ m', (m.addString s).value = some m' ∧ Added m (.string s) m' := by
  obtain ⟨m₁, full, made, looped, returned, -⟩ := addString_spec m nulFree capacity
  obtain ⟨written, looped', length, -⟩ :=
    fullChunkLoop_spec (buffer s) m.mNumParam (s.length / 4) m₁.mParams
  obtain rfl := Option.some.inj (looped.symm.trans looped')
  refine ⟨_, returned, rfl, ?_, fun n different => ?_⟩
  · rw [mMaxChunks, withTail_length, length]
    exact made.capacity capacity
  · exact ((withTail_tally_le m s different full).trans
      (fullChunkLoop_tally_le different looped)).trans (made.tally_le n)

theorem add_added (m : Message) {p : Param} (nulFree : p.NulFree) (capacity : 0 < m.mMaxChunks) :
    ∃ m', addStep m p = some m' ∧ Added m p m' := by
  cases p with
  | string s => exact addString_added m nulFree capacity
  | _ => exact addItem_added m _ _ capacity _

theorem mem_of_lookup {number : UInt8} {cells : List (Option DataItem)} {item : DataItem}
    (found : lookup number cells = .ok (some item)) :
    some item ∈ cells ∧ item.mParamNum = number := by
  induction cells with
  | nil => simp [lookup] at found
  | cons cell cells ih =>
      cases cell with
      | none => simp [lookup] at found
      | some first =>
          rw [lookup] at found
          split at found
          next same =>
            obtain rfl := Option.some.inj (Except.ok.inj found)
            exact ⟨List.mem_cons_self, same⟩
          next other =>
            obtain ⟨member, number⟩ := ih found
            exact ⟨List.mem_cons_of_mem _ member, number⟩

theorem tally_of_lookup {n : UInt8} {cells : List (Option DataItem)} {item : DataItem}
    (found : lookup n cells = .ok (some item)) : 0 < tally n cells := by
  obtain ⟨member, number⟩ := mem_of_lookup found
  exact List.countP_pos_iff.mpr ⟨some item, member, by simpa using number⟩

theorem tally_of_getString {m : Message} {k : Nat} {s : List UInt8}
    (read : m.getString k = .ok s) : wordCount s.length ≤ tally (paramByte k) m.chunks := by
  cases extent : stringExtent (paramByte k) 0 m.chunks with
  | error fault => simp [getString, extent, bind, Except.bind] at read
  | ok value =>
      obtain ⟨items, written⟩ := stringExtent_defined extent
      obtain ⟨start, counted⟩ := stringExtent_count (paramByte k) 0 items
      rw [← written, extent] at counted
      obtain rfl := Except.ok.inj counted
      simp only [getString, extent, bind, Except.bind] at read
      have shorter := readCString_length (definedOr_eq_ok.mp read)
      simp only [List.length_append, List.length_flatMap, cellBytes_length, List.map_const',
        prefixCells_length, List.sum_replicate_nat, List.length_singleton] at shorter
      rw [wordCount]
      split <;> omega

theorem tally_of_retrieves {m : Message} {k : Nat} {p : Param} (read : m.Retrieves k p) :
    0 < tally (paramByte k) m.mParams ∧ p.chunkCount ≤ tally (paramByte k) m.mParams := by
  have stored : tally (paramByte k) m.chunks ≤ tally (paramByte k) m.mParams :=
    tally_prefixCells_le _ _ _
  have found : 0 < tally (paramByte k) m.chunks := by
    cases looked : lookup (paramByte k) m.chunks with
    | error fault => simp [Retrieves, getParamType, looked, bind, Except.bind] at read
    | ok answer =>
        cases answer with
        | some item => exact tally_of_lookup looked
        | none =>
            have type := read.1
            simp only [getParamType, looked, bind, Except.bind, pure, Except.pure,
              Except.ok.injEq] at type
            cases p <;> simp [typeCode] at type
  refine ⟨found.trans_le stored, ?_⟩
  cases p with
  | string s => exact (tally_of_getString read.2).trans stored
  | _ => exact found.trans_le stored

theorem Layout.tally_param {m : Message} {ps : List Param} (h : Layout m ps)
    (bound : ps.length ≤ 256) {k : Nat} (length : k < ps.length) :
    tally (paramByte k) m.mParams = (ps[k]).chunkCount := by
  obtain ⟨r, cells⟩ := h.cells
  have low : k < 256 := by omega
  rw [cells, encodeAll_split ps k length, tally_append, tally_unwritten, List.map_append,
    List.map_append, tally_append, tally_append, tally_zero (numbers_before low length.le),
    tally_zero (numbers_after length (by omega)),
    tally_full fun item member => (encode_mem member).2, encode_length]
  omega

theorem Layout.tally_next {m : Message} {ps : List Param} (h : Layout m ps)
    (bound : ps.length < 256) : tally (paramByte ps.length) m.mParams = 0 := by
  obtain ⟨r, cells⟩ := h.cells
  have others : ∀ item ∈ encodeAll 0 (ps.take ps.length), item.mParamNum ≠ paramByte ps.length :=
    numbers_before bound (Nat.le_refl _)
  rw [List.take_length] at others
  rw [cells, tally_append, tally_unwritten, tally_zero others]

theorem addString_nil_tally {m m' : Message} (capacity : 0 < m.mMaxChunks)
    (returned : (m.addString []).value = some m') (n : UInt8) :
    tally n m'.mParams ≤ tally n m.mParams := by
  obtain ⟨m₁, full, made, looped, value, -⟩ :=
    addString_spec m (s := []) List.not_mem_nil capacity
  obtain rfl := Option.some.inj (returned.symm.trans value)
  obtain rfl := Option.some.inj looped
  exact made.tally_le n

/-- A full chunk out of place takes a chunk from an earlier parameter. -/
theorem addString_overwrites {m m' : Message} {ps : List Param} (h : Layout m ps)
    (bound : ps.length < 256) {s : List UInt8} (nulFree : CString.NulFree s)
    (full : 0 < s.length / 4) (behind : m.mNumParam < m.mNumChunks)
    (returned : (m.addString s).value = some m') :
    ∃ j, ∃ hj : j < ps.length, tally (paramByte j) m'.mParams < (ps[j]).chunkCount := by
  obtain ⟨m₁, written, made, looped, value, -⟩ := addString_spec m nulFree h.capacity
  obtain rfl := Option.some.inj (returned.symm.trans value)
  obtain ⟨r, cells⟩ := h.reserved made
  obtain ⟨f, count⟩ := Nat.exists_eq_add_of_lt full
  rw [Nat.zero_add] at count
  have place : m.mNumParam < (encodeAll 0 ps).length := h.numChunks ▸ behind
  obtain ⟨j, hj, member⟩ := mem_encodeAll (List.getElem_mem place)
  rw [Nat.zero_add] at member
  have different : paramByte m.mNumParam ≠ paramByte j := by
    rw [h.numParam, ne_eq, paramByte_eq_iff]
    omega
  have cell : m₁.mParams[m.mNumParam]? = some (some (encodeAll 0 ps)[m.mNumParam]) := by
    rw [cells, List.getElem?_append_left (by simpa using place)]
    simp [place]
  rw [count] at looped
  refine ⟨j, hj, ?_⟩
  calc tally (paramByte j) (m.withTail s written)
      ≤ tally (paramByte j) written := withTail_tally_le m s different written
    _ < tally (paramByte j) m₁.mParams :=
        fullChunkLoop_tally_lt different cell (encode_mem member).2 looped
    _ ≤ tally (paramByte j) m.mParams := made.tally_le _
    _ = (ps[j]).chunkCount := h.tally_param bound.le hj

theorem runSteps_counts {numChunks : Nat} (positive : 0 < numChunks) {ps : List Param}
    (nulFree : ∀ p ∈ ps, p.NulFree) {m : Message}
    (reached : runSteps addStep (ofSize numChunks) ps = some m) :
    m.mNumParam = ps.length ∧ 0 < m.mMaxChunks := by
  induction ps using List.reverseRecOn generalizing m with
  | nil =>
      obtain rfl := Option.some.inj reached
      exact ⟨rfl, (layout_ofSize numChunks positive).capacity⟩
  | append_singleton ps p ih =>
      rw [runSteps_snoc] at reached
      obtain ⟨m₀, before, added⟩ := Option.bind_eq_some_iff.mp reached
      obtain ⟨count, capacity⟩ := ih (fun q member => nulFree q (by simp [member])) before
      obtain ⟨m', value, step⟩ := add_added m₀ (nulFree p (by simp)) capacity
      obtain rfl := Option.some.inj (added.symm.trans value)
      exact ⟨by rw [step.numParam, count]; simp, step.capacity⟩

/-- Chunks that are there at the end were there after every add, so the adds were
in order. -/
theorem inOrder_of_tally {numChunks : Nat} (positive : 0 < numChunks) {ps : List Param}
    (bound : ps.length ≤ 256) (nulFree : ∀ p ∈ ps, p.NulFree) {m : Message}
    (reached : runSteps addStep (ofSize numChunks) ps = some m)
    (stored : ∀ k, ∀ h : k < ps.length, 0 < tally (paramByte k) m.mParams ∧
      (ps[k]).chunkCount ≤ tally (paramByte k) m.mParams) : InOrder ps := by
  induction ps using List.reverseRecOn generalizing m with
  | nil => exact ⟨by simp, List.Pairwise.nil⟩
  | append_singleton ps p ih =>
      rw [List.length_append, List.length_singleton] at bound
      have free : ∀ q ∈ ps, q.NulFree := fun q member => nulFree q (by simp [member])
      have last : p.NulFree := nulFree p (by simp)
      rw [runSteps_snoc] at reached
      obtain ⟨m₀, before, added⟩ := Option.bind_eq_some_iff.mp reached
      obtain ⟨count, capacity⟩ := runSteps_counts positive free before
      obtain ⟨m', value, step⟩ := add_added m₀ last capacity
      obtain rfl := Option.some.inj (added.symm.trans value)
      have order : InOrder ps := by
        refine ih (by omega) free before fun k hk => ?_
        have different : paramByte m₀.mNumParam ≠ paramByte k := by
          rw [count, ne_eq, paramByte_eq_iff]
          omega
        have kept := step.kept _ different
        have later := stored k (by simp; omega)
        rw [List.getElem_append_left hk] at later
        exact ⟨later.1.trans_le kept, later.2.trans kept⟩
      obtain ⟨m₀', before', layout⟩ := layout_of_inOrder positive free order
      obtain rfl := Option.some.inj (before.symm.trans before')
      rw [inOrder_snoc]
      refine ⟨order, ?_, (layout.inPlace_iff order.nonempty p).mp ?_⟩
      · rintro rfl
        have none_stored := (addString_nil_tally capacity added _).trans
          (layout.tally_next (by omega)).le
        have := (stored ps.length (by simp)).1
        omega
      · intro full
        by_contra misplaced
        cases p with
        | string s =>
            have least := length_le_encodeAll order.nonempty 0
            rw [← layout.numChunks, ← layout.numParam] at least
            obtain ⟨j, hj, lost⟩ :=
              addString_overwrites layout (by omega) last full (by omega) added
            have kept := (stored j (by simp; omega)).2
            rw [List.getElem_append_left hj] at kept
            omega
        | _ => exact absurd full (Nat.lt_irrefl 0)

/-- At most 256 adds read back unchanged exactly when none is an empty string and no
string of four or more characters comes after one of more than four. -/
theorem lossless_iff (numChunks : Nat) (positive : 0 < numChunks) (ps : List Param)
    (bound : ps.length ≤ 256) (nulFree : ∀ p ∈ ps, p.NulFree) :
    Lossless numChunks ps ↔ InOrder ps := by
  constructor
  · rintro ⟨m, returned, retrieved⟩
    rw [addAll_value] at returned
    exact inOrder_of_tally positive bound nulFree returned fun k length =>
      tally_of_retrieves (retrieved k length)
  · exact lossless_of_inOrder positive bound nulFree

/-- Short strings and scalars around one long string. -/
theorem lossless_mixed :
    Lossless 1 [.string (chars "Fire"), .int (-5), .string (chars "abcdefgh"), .float ⟨7⟩,
      .string (chars "abc"), .gameObject 4096] :=
  (lossless_iff 1 (by decide) _ (by decide) (by decide)).mpr (by decide)

/-- The second string overwrites the end of the first one, and an empty string has no type. -/
theorem not_lossless :
    ¬ Lossless startChunkNum [.string (chars "abcdefgh"), .string (chars "ijkl")] ∧
    ¬ Lossless startChunkNum [.string []] := by
  constructor
  · rintro ⟨m, returned, retrieved⟩
    obtain rfl := Option.some.inj returned
    exact absurd (retrieved 0 (by decide)) (by decide)
  · rintro ⟨m, returned, retrieved⟩
    obtain rfl := Option.some.inj returned
    exact absurd (retrieved 0 (by decide)) (by decide)

end Ssuge.Message

import Ssuge.CreateMessage

/-! When the doubling loop of `increaseSize` ends. On its 32-bit counters it does from
every capacity but zero, as long as fewer than `2 ^ 31` chunks are wanted, since the
last doubling does not wrap. A capacity of zero stays zero. `Message(0)` and a
`createMessage` that counts no chunk start with it. -/

namespace Ssuge.Message

open RecordedRun CString GuardedRun CreateMessage

/-- The loop of `increaseSize` on the counters as they are declared. -/
def doubleLoop32 : (fuel : Nat) → (mNumChunks mMaxChunks : UInt32) → Option UInt32
  | 0, mNumChunks, mMaxChunks => if mNumChunks > mMaxChunks then none else some mMaxChunks
  | fuel + 1, mNumChunks, mMaxChunks =>
      if mNumChunks > mMaxChunks then doubleLoop32 fuel mNumChunks (2 * mMaxChunks)
      else some mMaxChunks

/-- The copy constructor, and `operator =`. -/
def copy (m : Message) : Message := ⟨prefixCells m.mParams m.mMaxChunks, m.mNumParam, m.mNumChunks⟩

/-- The messages that a program can have made. -/
inductive Obtained : Message → Prop
  | initialized : Obtained initialized
  | ofSize (numChunks : Nat) (int : numChunks < 2 ^ 31) : Obtained (ofSize numChunks)
  | copied {m : Message} : Obtained m → Obtained m.copy
  | created {mem : Memory} {initString : List UInt8} {counted : Pass Nat} {m : Message} :
      countingPass mem initString = some counted → counted.result < 2 ^ 31 →
      createMessage mem initString = some m → Obtained m
  | added {m m' : Message} {p : Param} : Obtained m → p.NulFree → addStep m p = some m' →
      Obtained m'

/-- The loop that an add enters, if it has to make room, ends with room enough. -/
def AddEnds (m : Message) (p : Param) : Prop :=
  ∃ fuel size, doubleLoop32 fuel (UInt32.ofNat (m.mNumChunks + p.chunkCount))
    (UInt32.ofNat m.mMaxChunks) = some size ∧ m.mNumChunks + p.chunkCount ≤ size.toNat

/-- Below `2 ^ 31` the loop on 32-bit counters is the loop on naturals. -/
theorem doubleLoop32_toNat (fuel : Nat) (mNumChunks mMaxChunks : UInt32)
    (small : mNumChunks.toNat < 2 ^ 31) :
    (doubleLoop32 fuel mNumChunks mMaxChunks).map UInt32.toNat =
      doubleLoop fuel mNumChunks.toNat mMaxChunks.toNat := by
  induction fuel generalizing mMaxChunks with
  | zero =>
      simp only [doubleLoop32, doubleLoop, gt_iff_lt, UInt32.lt_iff_toNat_lt]
      split <;> rfl
  | succ fuel ih =>
      simp only [doubleLoop32, doubleLoop, gt_iff_lt, UInt32.lt_iff_toNat_lt]
      split
      · have doubled : (2 * mMaxChunks).toNat = 2 * mMaxChunks.toNat := by
          rw [UInt32.toNat_mul, Nat.mod_eq_of_lt]
          · rfl
          · simp only [UInt32.reduceToNat]
            omega
        rw [ih, doubled]
      · rfl

theorem doubleLoop_result {fuel mNumChunks mMaxChunks size : Nat}
    (ended : doubleLoop fuel mNumChunks mMaxChunks = some size) :
    mNumChunks ≤ size ∧ (size = mMaxChunks ∨ size < 2 * mNumChunks) := by
  induction fuel generalizing mMaxChunks with
  | zero =>
      simp only [doubleLoop] at ended
      split at ended
      · exact absurd ended (by simp)
      · obtain rfl := Option.some.inj ended
        omega
  | succ fuel ih =>
      simp only [doubleLoop] at ended
      split at ended
      · have later := ih ended
        omega
      · obtain rfl := Option.some.inj ended
        omega

theorem doubleLoop_zero {fuel mNumChunks size : Nat}
    (ended : doubleLoop fuel mNumChunks 0 = some size) : mNumChunks = 0 ∧ size = 0 := by
  induction fuel with
  | zero =>
      simp only [doubleLoop] at ended
      split at ended
      · exact absurd ended (by simp)
      · obtain rfl := Option.some.inj ended
        omega
  | succ fuel ih =>
      simp only [doubleLoop] at ended
      split at ended
      · exact ih ended
      · obtain rfl := Option.some.inj ended
        omega

/-- The counters are in bounds: the chunks fit the array, which came from an `int` or
from doubling below them. -/
structure Sized (m : Message) : Prop where
  fits : m.mNumChunks ≤ m.mMaxChunks
  bound : m.mMaxChunks < 2 ^ 31 ∨ m.mMaxChunks < 2 * m.mNumChunks

theorem reserve_counts {m m₁ : Message} {n : Nat} (returned : (m.reserve n).value = some m₁) :
    m₁.mNumChunks = m.mNumChunks + n ∧ m₁.mNumChunks ≤ m₁.mMaxChunks ∧
      (m₁.mMaxChunks = m.mMaxChunks ∨
        0 < m.mMaxChunks ∧ m₁.mMaxChunks < 2 * m₁.mNumChunks) := by
  by_cases room : m.mNumChunks + n ≤ m.mMaxChunks
  · rw [reserve_room room, pure_value] at returned
    obtain rfl := Option.some.inj returned
    exact ⟨rfl, room, .inl rfl⟩
  · set counted : Message := { m with mNumChunks := m.mNumChunks + n } with counted_eq
    have shape : m.reserve n = counted.increaseSize := if_pos (Nat.not_le.mp room)
    rw [shape, increaseSize, bind_value] at returned
    obtain ⟨size, ended, returned⟩ := Option.bind_eq_some_iff.mp returned
    have ended' : doubleLoop (m.mNumChunks + n) (m.mNumChunks + n) m.mMaxChunks = some size := ended
    obtain ⟨enough, doubled⟩ := doubleLoop_result ended'
    have copied := copyLoop_value m.mParams (m.mNumChunks + n - 1)
      (List.replicate size none) (by rw [List.length_replicate]; omega)
    rw [bind_value_of copied, pure_value] at returned
    obtain rfl := Option.some.inj returned
    have capacity : (prefixCells m.mParams (m.mNumChunks + n - 1) ++
        (List.replicate size none).drop (m.mNumChunks + n - 1)).length = size := by
      simp only [List.length_append, prefixCells_length, List.length_drop, List.length_replicate]
      omega
    have some_cell : 0 < m.mMaxChunks := by
      by_contra none
      rw [Nat.le_zero.mp (Nat.not_lt.mp none)] at ended'
      have := doubleLoop_zero ended'
      omega
    refine ⟨rfl, ?_, .inr ⟨some_cell, ?_⟩⟩
    · rw [mMaxChunks, capacity]
      exact enough
    · rw [mMaxChunks, capacity]
      change size < 2 * (m.mNumChunks + n)
      omega

theorem add_returns {m m' : Message} {p : Param} (nulFree : p.NulFree)
    (returned : addStep m p = some m') :
    ∃ m₁, (m.reserve p.chunkCount).value = some m₁ ∧ m'.mNumChunks = m₁.mNumChunks ∧
      m'.mMaxChunks = m₁.mMaxChunks := by
  cases reserved : (m.reserve p.chunkCount).value with
  | some m₁ =>
      obtain ⟨m'', added, counters⟩ := add_value nulFree reserved
      obtain rfl := Option.some.inj (returned.symm.trans added)
      exact ⟨m₁, rfl, counters⟩
  | none =>
      -- the first thing every add does is to make room
      have stuck : addStep m p = none := by
        cases p with
        | string s =>
            have reserved' : (m.reserve (wordCount s.length)).value = none := reserved
            change (m.addString s).value = none
            unfold addString
            rw [strlen_of_nulFree nulFree, bind_value, reserved', Option.bind_none]
        | _ =>
            have reserved' : (m.reserve 1).value = none := reserved
            simp only [addStep, add, addInt, addFloat, addGameObject, addItem]
            rw [bind_value, reserved', Option.bind_none]
      exact absurd (returned.symm.trans stuck) (by simp)

theorem add_counts {m m' : Message} {p : Param} (nulFree : p.NulFree)
    (returned : addStep m p = some m') :
    m'.mNumChunks = m.mNumChunks + p.chunkCount ∧ m'.mNumChunks ≤ m'.mMaxChunks ∧
      (m'.mMaxChunks = m.mMaxChunks ∨
        0 < m.mMaxChunks ∧ m'.mMaxChunks < 2 * m'.mNumChunks) := by
  obtain ⟨m₁, reserved, chunks, capacity⟩ := add_returns nulFree returned
  rw [chunks, capacity]
  exact reserve_counts reserved

theorem Sized.add {m m' : Message} {p : Param} (sized : Sized m) (nulFree : p.NulFree)
    (returned : addStep m p = some m') : Sized m' := by
  obtain ⟨chunks, fits, same | ⟨-, doubled⟩⟩ := add_counts nulFree returned
  · refine ⟨fits, ?_⟩
    have bound := sized.bound
    omega
  · exact ⟨fits, .inr doubled⟩

theorem sized_ofSize {numChunks : Nat} (int : numChunks < 2 ^ 31) : Sized (ofSize numChunks) where
  fits := Nat.zero_le _
  bound := .inl (by simpa [mMaxChunks, ofSize] using int)

theorem storeArgument_adds {mem : Memory} {p p' : Pass Message} {c : UInt8}
    (returned : storeArgument mem p c = some p') :
    p' = p ∨ ∃ q : Param, q.NulFree ∧ addStep p.result q = some p'.result := by
  have single : ∀ {size : Nat} {q : Param}, q.NulFree →
      ((addStep p.result q).bind fun m => some (p.read size m)) = some p' →
      ∃ q : Param, q.NulFree ∧ addStep p.result q = some p'.result := by
    intro size q nulFree round
    obtain ⟨m, added, read⟩ := Option.bind_eq_some_iff.mp round
    obtain rfl := Option.some.inj read
    exact ⟨q, nulFree, added⟩
  unfold storeArgument at returned
  cases kind : conversion c with
  | none =>
      simp only [kind] at returned
      exact .inl (Option.some.inj returned).symm
  | some k =>
      right
      cases k with
      | s =>
          simp only [kind] at returned
          obtain ⟨valS, -, round⟩ := Option.bind_eq_some_iff.mp returned
          exact single (q := .string valS.1) valS.2 round
      | i =>
          simp only [kind] at returned
          exact single (q := .int (mem.stack p.argumentList).toInt32) trivial returned
      | f =>
          simp only [kind] at returned
          exact single (q := .float (.ofDouble (mem.double p.argumentList))) trivial returned
      | g =>
          simp only [kind] at returned
          exact single (q := .gameObject (mem.stack p.argumentList)) trivial returned

theorem Sized.stored {mem : Memory} {p p' : Pass Message} {c : UInt8} (sized : Sized p.result)
    (returned : storeArgument mem p c = some p') : Sized p'.result := by
  rcases storeArgument_adds returned with rfl | ⟨q, nulFree, added⟩
  · exact sized
  · exact sized.add nulFree added

theorem Obtained.sized {m : Message} (obtained : Obtained m) : Sized m := by
  induction obtained with
  | initialized => exact sized_ofSize (by decide)
  | ofSize numChunks int => exact sized_ofSize int
  | copied _ sized =>
      refine ⟨?_, ?_⟩
      · simpa [copy, mMaxChunks] using sized.fits
      · simpa [copy, mMaxChunks] using sized.bound
  | @created mem initString counted m counting int created =>
      obtain ⟨counted', counting', second⟩ := Option.bind_eq_some_iff.mp created
      obtain rfl := Option.some.inj (counting.symm.trans counting')
      obtain ⟨stored, storing, result⟩ := Option.bind_eq_some_iff.mp second
      obtain rfl := Option.some.inj result
      exact @runSteps_induct _ _ _ (fun p => Sized p.result)
        (fun _ _ _ sized returned => sized.stored returned) _ _ (sized_ofSize int) _ storing
  | added _ nulFree returned sized => exact sized.add nulFree returned

theorem addEnds_of_capacity {m : Message} {p : Param} (sized : Sized m)
    (bound : m.mNumChunks + p.chunkCount < 2 ^ 31)
    (room : 0 < m.mMaxChunks ∨ p.chunkCount = 0) : AddEnds m p := by
  set wanted := m.mNumChunks + p.chunkCount with wanted_eq
  have enough : wanted ≤ 2 ^ wanted * m.mMaxChunks := by
    rcases room with capacity | nothing
    · exact Nat.le_trans Nat.lt_two_pow_self.le (Nat.le_mul_of_pos_right _ capacity)
    · rw [wanted_eq, nothing, Nat.add_zero]
      exact sized.fits.trans (Nat.le_mul_of_pos_left _ (Nat.two_pow_pos _))
  obtain ⟨size, ended, fits⟩ := doubleLoop_returns _ _ _ enough
  have wide : m.mMaxChunks < 2 ^ 32 := by
    have := sized.bound
    omega
  have exact_wanted : (UInt32.ofNat wanted).toNat = wanted := by
    rw [UInt32.toNat_ofNat']
    omega
  have exact_capacity : (UInt32.ofNat m.mMaxChunks).toNat = m.mMaxChunks := by
    rw [UInt32.toNat_ofNat']
    omega
  have loop := doubleLoop32_toNat wanted (UInt32.ofNat wanted) (UInt32.ofNat m.mMaxChunks)
    (by rw [exact_wanted]; exact bound)
  rw [exact_wanted, exact_capacity, ended] at loop
  obtain ⟨size', ended', value⟩ := Option.map_eq_some_iff.mp loop
  exact ⟨wanted, size', ended', by rw [value]; exact fits⟩

theorem no_chunks_of_addEnds {m : Message} {p : Param} (empty : m.mMaxChunks = 0)
    (bound : m.mNumChunks + p.chunkCount < 2 ^ 31) (ends : AddEnds m p) : p.chunkCount = 0 := by
  obtain ⟨fuel, size, ended, -⟩ := ends
  have exact_wanted : (UInt32.ofNat (m.mNumChunks + p.chunkCount)).toNat =
      m.mNumChunks + p.chunkCount := by
    rw [UInt32.toNat_ofNat']
    omega
  have loop := doubleLoop32_toNat fuel (UInt32.ofNat (m.mNumChunks + p.chunkCount))
    (UInt32.ofNat m.mMaxChunks) (by rw [exact_wanted]; exact bound)
  rw [ended, exact_wanted, empty] at loop
  have := doubleLoop_zero loop.symm
  omega

def chunkSum (ps : List Param) : Nat := (ps.map Param.chunkCount).sum

/-- Below `2 ^ 31` chunks every add of a sequence ends exactly when the message has a
capacity to double, or nothing that is added takes a chunk. -/
theorem adds_end_iff {m : Message} (obtained : Obtained m) {ps : List Param}
    (nulFree : ∀ p ∈ ps, p.NulFree) (bound : m.mNumChunks + chunkSum ps < 2 ^ 31) :
    Along addStep AddEnds m ps ↔ 0 < m.mMaxChunks ∨ ∀ p ∈ ps, p.chunkCount = 0 := by
  induction ps generalizing m with
  | nil => simp [Along]
  | cons p ps ih =>
      have sum : chunkSum (p :: ps) = p.chunkCount + chunkSum ps := by simp [chunkSum]
      have first : p.NulFree := nulFree p (by simp)
      have rest : ∀ q ∈ ps, q.NulFree := fun q member => nulFree q (by simp [member])
      rw [List.forall_mem_cons]
      constructor
      · rintro ⟨ends, later⟩
        rcases Nat.eq_zero_or_pos m.mMaxChunks with empty | capacity
        · have none_first := no_chunks_of_addEnds empty (by omega) ends
          have fits := obtained.sized.fits
          obtain ⟨m', returned, -, size⟩ := add_room (m := m) first (by omega)
          have chunks := (add_counts first returned).1
          have later' := (ih (obtained.added first returned) rest (by omega)).mp
            (later m' returned)
          exact .inr ⟨none_first, later'.resolve_left (by omega)⟩
        · exact .inl capacity
      · intro enough
        refine ⟨addEnds_of_capacity obtained.sized (by omega) (enough.imp_right And.left), ?_⟩
        intro m' returned
        obtain ⟨chunks, fits, size⟩ := add_counts first returned
        refine (ih (obtained.added first returned) rest (by omega)).mpr ?_
        rcases enough with capacity | ⟨-, nothing⟩
        · left
          omega
        · exact .inr nothing

/-- The reply to a query grows from the three chunks that a message starts with. -/
theorem adds_end_reply :
    Along addStep AddEnds initialized
      [.string (chars "door"), .gameObject 1, .gameObject 2, .gameObject 3] :=
  (adds_end_iff .initialized (by decide) (by decide)).mpr (.inl (by decide))

/-- A call `createMessage("")`. -/
def emptyCall : Memory := ⟨fun _ => 0, fun _ => none⟩

/-- To the message of an empty format nothing can be added. -/
theorem adds_hang_emptyCall :
    createMessage emptyCall [] = some (ofSize 0) ∧ Obtained (ofSize 0) ∧
      ¬ Along addStep AddEnds (ofSize 0) [.int 5] := by
  refine ⟨rfl, .ofSize 0 (by decide), ?_⟩
  rintro ⟨ends, -⟩
  have nothing := no_chunks_of_addEnds (m := ofSize 0) rfl (by decide) ends
  exact absurd nothing (by decide)

end Ssuge.Message

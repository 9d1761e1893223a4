import Ssuge.Doubling
import Ssuge.MessageGrowth

/-! What the growth of a message costs. The capacity that many adds leave is the one that a
single growth to the same number of chunks would have left. All the accesses of the adds, with
the cells that are copied whenever the array grows, are linear in the number of chunks. -/

namespace Ssuge.Message

open RecordedRun CString GuardedRun CreateMessage Doubling

section growth

variable {m m' : Message} {p : Param} {ps : List Param}

theorem doubleLoop_fits {fuel mNumChunks mMaxChunks size : Nat}
    (ended : doubleLoop fuel mNumChunks mMaxChunks = some size) :
    Fits mMaxChunks mNumChunks size := by
  induction fuel generalizing mMaxChunks with
  | zero =>
      simp only [doubleLoop] at ended
      split at ended
      · cases ended
      · next enough =>
          obtain rfl := Option.some.inj ended
          exact fits_self (Nat.not_lt.mp enough)
  | succ fuel ih =>
      simp only [doubleLoop] at ended
      split at ended
      · next small => exact (ih ended).of_double small
      · next enough =>
          obtain rfl := Option.some.inj ended
          exact fits_self (Nat.not_lt.mp enough)

theorem reserve_grows {n : Nat} (returned : (m.reserve n).value = some m') :
    Fits m.mMaxChunks (m.mNumChunks + n) m'.mMaxChunks ∧
      (m.reserve n).accesses.length =
        if m.mMaxChunks < m.mNumChunks + n then 2 * (m.mNumChunks + n - 1) else 0 := by
  by_cases room : m.mNumChunks + n ≤ m.mMaxChunks
  · rw [reserve_room room] at returned ⊢
    obtain rfl := Option.some.inj returned
    exact ⟨fits_self room, by rw [if_neg (Nat.not_lt.mpr room)]; rfl⟩
  · have grows := Nat.not_le.mp room
    set counted : Message := { m with mNumChunks := m.mNumChunks + n } with counted_eq
    have shape : m.reserve n = counted.increaseSize := if_pos grows
    rw [shape, increaseSize, bind_value] at returned
    obtain ⟨size, ended, returned⟩ := Option.bind_eq_some_iff.mp returned
    have fits : Fits m.mMaxChunks (m.mNumChunks + n) size := doubleLoop_fits ended
    have enough := fits.1.1
    have space : m.mNumChunks + n - 1 ≤ (List.replicate size (none : Option DataItem)).length := by
      rw [List.length_replicate]
      omega
    have copied := copyLoop_value m.mParams (m.mNumChunks + n - 1) _ space
    have cost := copyLoop_accesses m.mParams (m.mNumChunks + n - 1) _ space
    rw [bind_value_of copied, pure_value] at returned
    obtain rfl := Option.some.inj returned
    constructor
    · have length : (prefixCells m.mParams (m.mNumChunks + n - 1) ++
          (List.replicate size none).drop (m.mNumChunks + n - 1)).length = size := by
        rw [List.length_append, prefixCells_length, List.length_drop, List.length_replicate]
        omega
      rw [← length] at fits
      exact fits
    · rw [shape, increaseSize, bind_accesses_of ended, bind_accesses_of copied, if_pos grows]
      change ([] ++ ((copyLoop m.mParams (m.mNumChunks + n - 1) _).accesses ++ [])).length = _
      rw [List.nil_append, List.append_nil, cost]

theorem loadWord_accesses (s : List (Option UInt8)) (offset : Nat) :
    (loadWord s offset).accesses.length = 4 := rfl

theorem fullChunkLoop_accesses (s : List (Option UInt8)) (mNumParam n : Nat)
    (mParams : List (Option DataItem)) :
    ∃ cells, (fullChunkLoop s mNumParam n mParams).value = some cells ∧
      (fullChunkLoop s mNumParam n mParams).accesses.length = 5 * n := by
  induction n with
  | zero => exact ⟨mParams, rfl, rfl⟩
  | succ n ih =>
      obtain ⟨cells, returned, cost⟩ := ih
      refine ⟨_, by rw [fullChunkLoop, bind_value_of returned, bind_value_of (loadWord_value ..),
        store_value], ?_⟩
      rw [fullChunkLoop, bind_accesses_of returned, bind_accesses_of (loadWord_value ..),
        List.length_append, List.length_append, cost, loadWord_accesses]
      rfl

theorem tailChunk_accesses (s : List (Option UInt8)) (length : Nat) (m : Message) :
    (tailChunk s length m).accesses.length = if length % 4 ≠ 0 then 5 else 0 := by
  rw [tailChunk]
  split
  · rw [bind_accesses_of (loadWord_value ..), List.length_append, loadWord_accesses]
    rfl
  · rfl

theorem add_accesses_le {m₁ : Message} (nulFree : p.NulFree)
    (reserved : (m.reserve p.chunkCount).value = some m₁) :
    (m.add p).accesses.length ≤ (m.reserve p.chunkCount).accesses.length + 5 * p.chunkCount := by
  cases p with
  | string s =>
      have reserved' : (m.reserve (wordCount s.length)).value = some m₁ := reserved
      obtain ⟨cells, looped, cost⟩ :=
        fullChunkLoop_accesses (buffer s) m₁.mNumParam (s.length / 4) m₁.mParams
      obtain ⟨last, tail, -⟩ :=
        tailChunk_value (buffer s) s.length { m₁ with mParams := cells }
      change (m.addString s).accesses.length ≤
        (m.reserve (wordCount s.length)).accesses.length + 5 * wordCount s.length
      rw [addString, strlen_of_nulFree nulFree, bind_accesses_of reserved',
        bind_accesses_of looped, bind_accesses_of tail, List.length_append, List.length_append,
        List.length_append, cost, tailChunk_accesses, wordCount]
      change _ + (5 * (s.length / 4) + (_ + 0)) ≤ _
      by_cases whole : s.length % 4 = 0
      · rw [if_neg (not_not.mpr whole), if_pos whole]
        omega
      · rw [if_pos whole, if_neg whole]
        omega
  | _ =>
      have reserved' : (m.reserve 1).value = some m₁ := reserved
      simp only [add, addInt, addFloat, addGameObject, addItem, Param.chunkCount]
      rw [bind_accesses_of reserved', List.length_append]
      exact Nat.add_le_add_left (show 1 ≤ 5 by decide) _

theorem add_ends (capacity : 0 < m.mMaxChunks) (nulFree : p.NulFree) :
    ∃ m', addStep m p = some m' ∧ 0 < m'.mMaxChunks := by
  obtain ⟨⟨m₁, reserved, made⟩, -⟩ := reserve_spec m p.chunkCount capacity
  obtain ⟨m', added, -, size⟩ := add_value nulFree reserved
  exact ⟨m', added, size ▸ made.capacity capacity⟩

/-- One add, in terms of the counters. -/
theorem add_grows (nulFree : p.NulFree) (added : addStep m p = some m') :
    m'.mNumChunks = m.mNumChunks + p.chunkCount ∧
      Fits m.mMaxChunks m'.mNumChunks m'.mMaxChunks ∧
      (m.add p).accesses.length ≤ 5 * p.chunkCount +
        if m.mMaxChunks < m'.mNumChunks then 2 * (m'.mNumChunks - 1) else 0 := by
  obtain ⟨m₁, reserved, chunks, size⟩ := add_returns nulFree added
  obtain ⟨counted, -⟩ := reserve_counts reserved
  obtain ⟨fits, cost⟩ := reserve_grows reserved
  have accesses := add_accesses_le nulFree reserved
  rw [cost] at accesses
  rw [size, chunks, counted]
  exact ⟨rfl, fits, by omega⟩

theorem chunkSum_cons (p : Param) (ps : List Param) :
    chunkSum (p :: ps) = p.chunkCount + chunkSum ps := by
  rw [chunkSum, List.map_cons, List.sum_cons, chunkSum]

/-- What adds have cost besides their chunks is paid by the growth of the array. -/
theorem addAll_paid {spent : Nat} (capacity : 0 < m.mMaxChunks)
    (paid : Paid m.mMaxChunks m.mNumChunks spent) (nulFree : ∀ p ∈ ps, p.NulFree) :
    ∃ m' total, runSteps addStep m ps = some m' ∧
      m'.mNumChunks = m.mNumChunks + chunkSum ps ∧
      (m.mNumChunks ≤ m.mMaxChunks → Fits m.mMaxChunks m'.mNumChunks m'.mMaxChunks) ∧
      Paid m'.mMaxChunks m'.mNumChunks total ∧
      (m.addAll ps).accesses.length + 2 * spent ≤ 5 * chunkSum ps + 2 * total := by
  induction ps generalizing m spent with
  | nil => exact ⟨m, spent, rfl, rfl, fits_self, paid, by simp [addAll, chunkSum, pure, Run.pure]⟩
  | cons p ps ih =>
      have first : p.NulFree := nulFree p List.mem_cons_self
      obtain ⟨m₁, added, capacity₁⟩ := add_ends capacity first
      obtain ⟨chunks, fits, cost⟩ := add_grows first added
      have more : m.mNumChunks ≤ m₁.mNumChunks := chunks ▸ Nat.le_add_right _ _
      obtain ⟨spent₁, paid₁, own⟩ : ∃ spent₁, Paid m₁.mMaxChunks m₁.mNumChunks spent₁ ∧
          (m.add p).accesses.length + 2 * spent ≤ 5 * p.chunkCount + 2 * spent₁ := by
        by_cases small : m.mMaxChunks < m₁.mNumChunks
        · rw [if_pos small] at cost
          exact ⟨_, paid.grow small fits (Nat.sub_le m₁.mNumChunks 1), by omega⟩
        · have same : m₁.mMaxChunks = m.mMaxChunks :=
            IsLeast.unique fits (fits_self (Nat.not_lt.mp small))
          rw [if_neg small] at cost
          exact ⟨spent, same ▸ paid.keep more, by omega⟩
      obtain ⟨m', total, reached, chunks', fits', paid', rest⟩ :=
        ih capacity₁ paid₁ fun q member => nulFree q (List.mem_cons_of_mem _ member)
      refine ⟨m', total, by rw [runSteps, added]; exact reached, ?_, fun _ => ?_, paid', ?_⟩
      · rw [chunks', chunks, chunkSum_cons, Nat.add_assoc]
      · exact fits.trans (chunks' ▸ Nat.le_add_right _ _) (fits' fits.1.1)
      · rw [addAll, bind_accesses_of added, List.length_append, chunkSum_cons]
        omega

end growth

/-- After any adds the capacity is the least of the doublings of the one before that holds all
chunks, whatever the parameters and in whatever order they come. -/
theorem capacity_isLeast {m : Message} (obtained : Obtained m) (capacity : 0 < m.mMaxChunks)
    {ps : List Param} (nulFree : ∀ p ∈ ps, p.NulFree) :
    ∃ m', runSteps addStep m ps = some m' ∧ IsLeast {size | m.mNumChunks + chunkSum ps ≤ size ∧
      ∃ j, size = m.mMaxChunks * 2 ^ j} m'.mMaxChunks := by
  obtain ⟨m', -, reached, chunks, fits, -⟩ :=
    addAll_paid capacity ⟨Nat.zero_le _, Nat.zero_le _⟩ nulFree
  have least := fits obtained.sized.fits
  rw [chunks] at least
  exact ⟨m', reached, least⟩

theorem capacity_reply : ∃ m', runSteps addStep initialized
    [.string (chars "door"), .gameObject 1, .gameObject 2, .gameObject 3] = some m' ∧
      IsLeast {size | 4 ≤ size ∧ ∃ j, size = 3 * 2 ^ j} m'.mMaxChunks :=
  capacity_isLeast .initialized (by decide) (by decide)

/-- All that adds access, with every copy of the array, is linear in the chunks. -/
theorem accesses_linear {m : Message} (capacity : 0 < m.mMaxChunks) {ps : List Param}
    (nulFree : ∀ p ∈ ps, p.NulFree) :
    (m.addAll ps).accesses.length ≤ 5 * chunkSum ps + 6 * (m.mNumChunks + chunkSum ps) := by
  obtain ⟨m', total, -, chunks, -, paid, cost⟩ :=
    addAll_paid capacity ⟨Nat.zero_le _, Nat.zero_le _⟩ nulFree
  have bound := paid.byNeed
  rw [chunks] at bound
  omega

theorem accesses_reply : (initialized.addAll
    [.string (chars "door"), .gameObject 1, .gameObject 2, .gameObject 3]).accesses.length ≤
      5 * 4 + 6 * (0 + 4) :=
  accesses_linear (by decide) (by decide)

end Ssuge.Message

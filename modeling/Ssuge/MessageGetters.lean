import Ssuge.MessageLayout

/-! What the getters return on a layout, and what a successful getter tells about
any chunk array. A lookup stops at the first chunk with the wanted number, so on
a layout it answers for the first 256 parameters; a string also takes one chunk
more for every later chunk that carries its number. -/

namespace Ssuge.Message

open RecordedRun CString Param

theorem paramByte_eq_iff (j k : Nat) : paramByte j = paramByte k ↔ j % 256 = k % 256 := by
  rw [paramByte, paramByte, ← UInt8.toNat_inj, UInt8.toNat_ofNat', UInt8.toNat_ofNat']

theorem paramByte_mod (k : Nat) : paramByte (k % 256) = paramByte k := by
  rw [paramByte_eq_iff, Nat.mod_mod]

theorem lookup_skip {n : UInt8} {items : List DataItem} (h : ∀ item ∈ items, item.mParamNum ≠ n)
    (rest : List (Option DataItem)) : lookup n (items.map some ++ rest) = lookup n rest := by
  induction items with
  | nil => rfl
  | cons item items ih =>
      have different := h item (by simp)
      simp only [List.map_cons, List.cons_append, lookup, different, if_false]
      exact ih fun other member => h other (by simp [member])

/-- The number of chunks that carry a parameter number. -/
def tally (n : UInt8) (cells : List (Option DataItem)) : Nat :=
  cells.countP fun cell => cell.any fun item => item.mParamNum = n

@[simp] theorem tally_append (n : UInt8) (xs ys : List (Option DataItem)) :
    tally n (xs ++ ys) = tally n xs + tally n ys := List.countP_append

@[simp] theorem tally_unwritten (n : UInt8) (r : Nat) : tally n (List.replicate r none) = 0 := by
  simp [tally, List.countP_replicate]

theorem tally_prefixCells_le (n : UInt8) (cells : List (Option DataItem)) (k : Nat) :
    tally n (prefixCells cells k) ≤ tally n cells :=
  countP_prefixCells_le _ rfl cells k

theorem tally_zero {n : UInt8} {items : List DataItem} (h : ∀ item ∈ items, item.mParamNum ≠ n) :
    tally n (items.map some) = 0 := by
  rw [tally, List.countP_eq_zero]
  intro cell member
  obtain ⟨item, inside, rfl⟩ := List.mem_map.mp member
  simpa using h item inside

theorem tally_full {n : UInt8} {items : List DataItem} (h : ∀ item ∈ items, item.mParamNum = n) :
    tally n (items.map some) = items.length := by
  rw [tally, List.countP_eq_length.mpr, List.length_map]
  intro cell member
  obtain ⟨item, inside, rfl⟩ := List.mem_map.mp member
  simpa using h item inside

theorem tally_set_le {n : UInt8} {item : DataItem} (different : item.mParamNum ≠ n)
    (cells : List (Option DataItem)) (i : Nat) :
    tally n (cells.set i (some item)) ≤ tally n cells := by
  by_cases inside : i < cells.length
  · rw [tally, List.countP_set inside]
    simp only [Option.any_some, different, decide_false, Bool.false_eq_true, if_false]
    exact Nat.sub_le _ _
  · rw [List.set_eq_of_length_le (Nat.not_lt.mp inside)]

theorem tally_set_lt {n : UInt8} {item old : DataItem} (different : item.mParamNum ≠ n)
    {cells : List (Option DataItem)} {i : Nat} (cell : cells[i]? = some (some old))
    (number : old.mParamNum = n) : tally n (cells.set i (some item)) < tally n cells := by
  obtain ⟨inside, value⟩ := List.getElem?_eq_some_iff.mp cell
  have counted : 0 < tally n cells := by
    rw [tally, List.countP_pos_iff]
    exact ⟨some old, value ▸ List.getElem_mem inside, by simpa using number⟩
  rw [tally, List.countP_set inside, ← tally]
  simp only [value, Option.any_some, number, different, decide_true, decide_false,
    Bool.false_eq_true, if_true, if_false]
  omega

theorem stringExtent_skip {n : UInt8} {items : List DataItem}
    (h : ∀ item ∈ items, item.mParamNum ≠ n) (i : Nat) (rest : List (Option DataItem)) :
    stringExtent n i (items.map some ++ rest) = stringExtent n (i + items.length) rest := by
  induction items generalizing i with
  | nil => rfl
  | cons item items ih =>
      have different := h item (by simp)
      have shift : i + 1 + items.length = i + (item :: items).length := by
        rw [List.length_cons]
        omega
      simp only [List.map_cons, List.cons_append, stringExtent, different, if_false]
      rw [ih (fun other member => h other (by simp [member])), shift]
      cases stringExtent n (i + (item :: items).length) rest <;> rfl

theorem stringExtent_count (n : UInt8) (i : Nat) (items : List DataItem) :
    ∃ start, stringExtent n i (items.map some) = .ok (start, tally n (items.map some)) := by
  induction items generalizing i with
  | nil => exact ⟨none, rfl⟩
  | cons item items ih =>
      obtain ⟨start, rest⟩ := ih (i + 1)
      by_cases same : item.mParamNum = n
      · refine ⟨some i, ?_⟩
        simp only [List.map_cons, stringExtent, rest, tally, List.countP_cons, Option.any_some,
          same, decide_true, if_true]
        rfl
      · refine ⟨start, ?_⟩
        simp only [List.map_cons, stringExtent, rest, tally, List.countP_cons, Option.any_some,
          same, decide_false, if_false]
        rfl

theorem stringExtent_defined {n : UInt8} {i : Nat} {cells : List (Option DataItem)}
    {extent : Option Nat × Nat} (h : stringExtent n i cells = .ok extent) :
    ∃ items : List DataItem, cells = items.map some := by
  induction cells generalizing i extent with
  | nil => exact ⟨[], rfl⟩
  | cons cell cells ih =>
      cases cell with
      | none => simp [stringExtent] at h
      | some item =>
          cases rest : stringExtent n (i + 1) cells with
          | error fault => simp [stringExtent, rest, bind, Except.bind] at h
          | ok value =>
              obtain ⟨items, rfl⟩ := ih rest
              exact ⟨item :: items, rfl⟩

/-- Parameter `k` reads back as `p`: its type code, and its value through the
getter of that type. -/
def Retrieves (m : Message) (k : Nat) (p : Param) : Prop :=
  m.getParamType k = .ok p.typeCode ∧
    match p with
    | .int i => m.getInt k = .ok i
    | .float f => m.getFloat k = .ok f
    | .gameObject g => m.getGameObject k = .ok g
    | .string s => m.getString k = .ok s

instance (m : Message) (k : Nat) : (p : Param) → Decidable (m.Retrieves k p)
  | .int i => inferInstanceAs (Decidable (_ = _ ∧ m.getInt k = .ok i))
  | .float f => inferInstanceAs (Decidable (_ = _ ∧ m.getFloat k = .ok f))
  | .gameObject g => inferInstanceAs (Decidable (_ = _ ∧ m.getGameObject k = .ok g))
  | .string s => inferInstanceAs (Decidable (_ = _ ∧ m.getString k = .ok s))

section layout

variable {m : Message} {ps : List Param}

theorem numbers_before {k : Nat} (low : k < 256) (length : k ≤ ps.length) :
    ∀ item ∈ encodeAll 0 (ps.take k), item.mParamNum ≠ paramByte k := by
  intro item member
  obtain ⟨j, hj, inside⟩ := mem_encodeAll member
  rw [(encode_mem inside).2, ne_eq, paramByte_eq_iff]
  rw [List.length_take] at hj
  omega

theorem numbers_after {k : Nat} (length : k < ps.length) (bound : ps.length ≤ k + 256) :
    ∀ item ∈ encodeAll (k + 1) (ps.drop (k + 1)), item.mParamNum ≠ paramByte k := by
  intro item member
  obtain ⟨j, hj, inside⟩ := mem_encodeAll member
  rw [(encode_mem inside).2, ne_eq, paramByte_eq_iff]
  rw [List.length_drop] at hj
  omega

theorem lookup_layout (h : Layout m ps) {k : Nat} (low : k < 256) (length : k < ps.length)
    {item : DataItem} {rest : List DataItem} (block : (ps[k]).encode k = item :: rest) :
    lookup (paramByte k) m.chunks = .ok (some item) := by
  have number : item.mParamNum = paramByte k :=
    (encode_mem (p := ps[k]) (k := k) (by rw [block]; simp)).2
  rw [h.chunks_eq, encodeAll_split ps k length, List.map_append,
    lookup_skip (numbers_before low length.le), block]
  simp [lookup, number]

theorem getParamType_layout (h : Layout m ps) {k : Nat} (low : k < 256) (length : k < ps.length)
    (stored : 0 < (ps[k]).chunkCount) : m.getParamType k = .ok (ps[k]).typeCode := by
  cases block : (ps[k]).encode k with
  | nil => simp [← encode_length k, block] at stored
  | cons item rest =>
      have type : item.mType = (ps[k]).typeCode :=
        (encode_mem (p := ps[k]) (k := k) (by rw [block]; simp)).1
      simp only [getParamType, lookup_layout h low length block, bind, Except.bind, type]
      rfl

/-- What `getString` copies after the chunks of parameter `k`: one chunk for every
later chunk with the same number. -/
def spill (ps : List Param) (k : Nat) : List (Option UInt8) :=
  let after := encodeAll (k + 1) (ps.drop (k + 1))
  (after.take (tally (paramByte k) (after.map some))).flatMap (·.mData.bytes)

/-- The first loop of `getString` finds the chunks of parameter `k`, and counts the later
chunks with the same number to them. -/
theorem stringExtent_layout (h : Layout m ps) {k : Nat} (low : k < 256) (length : k < ps.length)
    (stored : 0 < (ps[k]).chunkCount) :
    stringExtent (paramByte k) 0 m.chunks = .ok (some (encodeAll 0 (ps.take k)).length,
      ((ps[k]).encode k).length +
        tally (paramByte k) ((encodeAll (k + 1) (ps.drop (k + 1))).map some)) := by
  set block := (ps[k]).encode k with block_eq
  have numbers : ∀ item ∈ block, item.mParamNum = paramByte k := fun item member =>
    (encode_mem member).2
  have filled : block ≠ [] := by
    intro empty
    have count := encode_length k ps[k]
    rw [← block_eq, empty, List.length_nil] at count
    omega
  obtain ⟨first, others, shape⟩ := List.exists_cons_of_ne_nil filled
  have first_number := numbers first (by simp [shape])
  have others_count : tally (paramByte k) (others.map some) = others.length :=
    tally_full fun item member => numbers item (by simp [shape, member])
  obtain ⟨start, counted⟩ := stringExtent_count (paramByte k)
    ((encodeAll 0 (ps.take k)).length + 1) (others ++ encodeAll (k + 1) (ps.drop (k + 1)))
  rw [h.chunks_eq, encodeAll_split ps k length, ← block_eq, List.map_append,
    stringExtent_skip (numbers_before low length.le), Nat.zero_add, shape, List.cons_append,
    List.map_cons, stringExtent, counted, List.map_append, tally_append, others_count]
  simp only [bind, Except.bind, first_number, if_true, List.length_cons]
  exact congrArg (fun n => Except.ok (some (encodeAll 0 (ps.take k)).length, n)) (by omega)

theorem prefixCells_layout (h : Layout m ps) {k : Nat} (length : k < ps.length) {c : Nat}
    (short : c ≤ (encodeAll (k + 1) (ps.drop (k + 1))).length) :
    prefixCells (m.mParams.drop (encodeAll 0 (ps.take k)).length) (((ps[k]).encode k).length + c) =
      ((ps[k]).encode k ++ (encodeAll (k + 1) (ps.drop (k + 1))).take c).map some := by
  obtain ⟨r, cells⟩ := h.cells
  have dropped : m.mParams.drop (encodeAll 0 (ps.take k)).length =
      ((ps[k]).encode k ++ encodeAll (k + 1) (ps.drop (k + 1))).map some ++
        List.replicate r none := by
    rw [cells, encodeAll_split ps k length]
    simp
  have bound : ((ps[k]).encode k).length + c ≤
      (m.mParams.drop (encodeAll 0 (ps.take k)).length).length := by
    rw [dropped]
    simp only [List.length_append, List.length_map, List.length_replicate]
    omega
  rw [prefixCells_of_le _ _ bound, dropped, List.take_append_of_le_length (by simp; omega),
    ← List.map_take, List.take_length_add_append]

theorem getString_layout (h : Layout m ps) {k : Nat} (low : k < 256) (length : k < ps.length)
    {s : List UInt8} (isString : ps[k] = .string s) (nulFree : CString.NulFree s)
    (nonempty : s ≠ []) :
    m.getString k = definedOr (if s.length % 4 = 0
      then (readCString (spill ps k ++ [some 0])).map (s ++ ·) else some s) := by
  set after := encodeAll (k + 1) (ps.drop (k + 1)) with after_eq
  set c := tally (paramByte k) (after.map some) with c_eq
  have bytes : ((ps[k]).encode k).flatMap (·.mData.bytes) = (words s).flatMap Word.bytes := by
    rw [isString, encode, List.flatMap_map]
  have stored : 0 < (ps[k]).chunkCount := by
    have characters := List.length_pos_of_ne_nil nonempty
    rw [isString, chunkCount, wordCount]
    split <;> omega
  have short : c ≤ after.length := by
    have counted := List.countP_le_length (l := after.map some)
      (p := fun cell => cell.any fun item => item.mParamNum = paramByte k)
    simpa [c_eq, tally] using counted
  have copied := prefixCells_layout h length short
  have spilled : spill ps k = (after.take c).flatMap (·.mData.bytes) := rfl
  simp only [getString, stringExtent_layout h low length stored, bind, Except.bind,
    Option.getD_some, ← after_eq, ← c_eq, copied]
  rw [List.flatMap_map]
  change definedOr (readCString
    (((ps[k]).encode k ++ after.take c).flatMap (·.mData.bytes) ++ _)) = _
  rw [List.flatMap_append, bytes, List.append_assoc,
    readCString_words nulFree, spilled]

theorem getScalar_layout (h : Layout m ps) {k : Nat} (low : k < 256) (length : k < ps.length)
    (scalar : (ps[k]).typeCode ≠ 's') : m.Retrieves k ps[k] := by
  have type := getParamType_layout h low length
  have found := @lookup_layout m ps h k low length
  refine ⟨type (by cases hp : ps[k] <;> simp_all [chunkCount, typeCode]), ?_⟩
  cases hp : ps[k] with
  | int i =>
      rw [hp, encode] at found
      simp [getInt, found rfl, bind, Except.bind, definedOr, pure, Except.pure]
  | float f =>
      rw [hp, encode] at found
      simp [getFloat, found rfl, bind, Except.bind, definedOr, pure, Except.pure]
  | gameObject g =>
      rw [hp, encode] at found
      simp [getGameObject, found rfl, bind, Except.bind, definedOr]
  | string s => simp [hp, typeCode] at scalar

theorem retrieves_layout (h : Layout m ps) (bound : ps.length ≤ 256)
    (nulFree : ∀ p ∈ ps, p.NulFree) {k : Nat} (length : k < ps.length)
    (nonempty : ps[k] ≠ .string []) : m.Retrieves k ps[k] := by
  have low : k < 256 := by omega
  by_cases scalar : (ps[k]).typeCode = 's'
  · cases hp : ps[k] with
    | string s =>
        have free : CString.NulFree s := by
          have := nulFree ps[k] (List.getElem_mem length)
          rwa [hp] at this
        have some_character : s ≠ [] := fun empty => nonempty (by rw [hp, empty])
        have type := getParamType_layout h low length (by
          have := List.length_pos_of_ne_nil some_character
          rw [hp, chunkCount, wordCount]
          split <;> omega)
        have none_after : spill ps k = [] := by
          rw [spill, tally_zero (numbers_after length (by omega))]
          rfl
        refine ⟨hp ▸ type, ?_⟩
        change m.getString k = .ok s
        rw [getString_layout h low length hp free some_character, none_after]
        simp [readCString, definedOr]
    | _ => simp [hp, typeCode] at scalar
  · exact getScalar_layout h low length scalar

end layout

end Ssuge.Message

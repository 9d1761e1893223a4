import Ssuge.MessageGaps

/-! A message crosses into Lua and back: `__lua_push_Message` and `__lua_pop_Message`
add the parameters, as the getters report them, to a new message one by one. What
comes back is the same message exactly when its parameters could be added in order,
none of them is a game object, which the way back skips, and, beyond 256 parameters,
no string without terminator runs on into the parameter after it. -/

namespace Ssuge

open RecordedRun CString GuardedRun

namespace Message

/-- One pass of the loop of `__lua_push_Message`. -/
def pushParam (m mptr : Message) (i : Nat) : Eval Message := do
  let ptype ← m.getParamType i
  if ptype = 'i' then definedOr (mptr.addInt (← m.getInt i)).value
  else if ptype = 'f' then definedOr (mptr.addFloat (← m.getFloat i)).value
  else if ptype = 's' then definedOr (mptr.addString (← m.getString i)).value
  else if ptype = 'g' then definedOr (mptr.addGameObject (← m.getGameObject i)).value
  else pure mptr

/-- The message that `__lua_push_Message` leaves in the new userdata. -/
def luaPushMessage (m : Message) : Eval Message :=
  (List.range m.getNumParams).foldlM (pushParam m) initialized

/-- One pass of the loop of `__lua_pop_Message`. -/
def popParam (mptr m : Message) (i : Nat) : Eval Message := do
  let ptype ← mptr.getParamType i
  if ptype = 'i' then definedOr (m.addInt (← mptr.getInt i)).value
  else if ptype = 'f' then definedOr (m.addFloat (← mptr.getFloat i)).value
  else if ptype = 's' then definedOr (m.addString (← mptr.getString i)).value
  else pure m

/-- The message that `__lua_pop_Message` makes of a userdata's. -/
def luaPopMessage (mptr : Message) : Eval Message :=
  (List.range mptr.getNumParams).foldlM (popParam mptr) initialized

end Message

namespace Param

def firstByte (p : Param) : Option UInt8 := (p.encode 0).head?.bind fun item => item.mData.b0

/-- Reading on from the last chunk of the first parameter into the second ends at once. -/
def Parted : Param → Param → Prop
  | string s, q => s.length % 4 = 0 → q.firstByte = some 0
  | _, _ => True

instance : (p q : Param) → Decidable (Parted p q)
  | string s, q => inferInstanceAs (Decidable (s.length % 4 = 0 → q.firstByte = some 0))
  | int _, _ | float _, _ | gameObject _, _ => isTrue trivial

end Param

namespace Message

open Param

/-- Parameter `k` as the getters tell it: an empty string may also have no type. -/
def ReadsAs (m : Message) (k : Nat) (p : Param) : Prop :=
  m.Retrieves k p ∨ p = .string [] ∧ m.getParamType k = .ok '?' ∧ m.getString k = .ok []

instance (m : Message) (k : Nat) (p : Param) : Decidable (m.ReadsAs k p) :=
  inferInstanceAs (Decidable (_ ∨ _))

/-- The parameters of a message as its getters tell them. -/
structure Reads (m : Message) (ps : List Param) : Prop where
  count : m.getNumParams = ps.length
  params : ∀ k, ∀ h : k < ps.length, m.ReadsAs k ps[k]

structure Same (m m' : Message) (ps : List Param) : Prop where
  count : m'.getNumParams = m.getNumParams
  types : ∀ k < m.getNumParams, m'.getParamType k = m.getParamType k
  values : ∀ k, ∀ h : k < ps.length, m'.ReadsAs k ps[k]

/-- Pushed and popped again, the message is the same. -/
def Crosses (m : Message) (ps : List Param) : Prop :=
  ∃ mptr m', luaPushMessage m = .ok mptr ∧ luaPopMessage mptr = .ok m' ∧ Same m m' ps

section reading

variable {m : Message} {k : Nat} {p q : Param}

theorem retrieves_congr {j : Nat} (same : paramByte j = paramByte k) :
    m.Retrieves j p ↔ m.Retrieves k p := by
  cases p <;>
    simp only [Retrieves, getParamType, getInt, getFloat, getGameObject, getString, same]

theorem readsAs_congr {j : Nat} (same : paramByte j = paramByte k) :
    m.ReadsAs j p ↔ m.ReadsAs k p := by
  rw [ReadsAs, ReadsAs, retrieves_congr same]
  simp only [getParamType, getString, same]

theorem typeCode_ne_unknown (p : Param) : p.typeCode ≠ '?' := by
  cases p <;> simp [typeCode]

theorem readsAs_unique (first : m.ReadsAs k p) (second : m.ReadsAs k q) : p = q := by
  rcases first with first | ⟨rfl, first, -⟩ <;> rcases second with second | ⟨rfl, second, -⟩
  · have types := Except.ok.inj (first.1.symm.trans second.1)
    cases p <;> cases q <;> simp [typeCode] at types <;>
      exact congrArg _ (Except.ok.inj (first.2.symm.trans second.2))
  · exact absurd (Except.ok.inj (first.1.symm.trans second)) (typeCode_ne_unknown p)
  · exact absurd (Except.ok.inj (second.1.symm.trans first)) (typeCode_ne_unknown q)
  · rfl

theorem Reads.getElem_eq {ps : List Param} (reads : m.Reads ps) {j : Nat} (hj : j < ps.length)
    (hk : k < ps.length) (same : paramByte j = paramByte k) : ps[j] = ps[k] :=
  readsAs_unique (reads.params j hj) ((readsAs_congr same).mpr (reads.params k hk))

end reading

section layout

variable {m : Message} {ps : List Param} {k : Nat}

theorem firstByte_eq (p : Param) (k : Nat) :
    p.firstByte = (p.encode k).head?.bind fun item => item.mData.b0 := by
  cases p with
  | string s => simp only [firstByte, encode, List.head?_map, Option.bind_map]; rfl
  | _ => rfl

/-- When the number comes again, what follows a string begins with the first byte of
the next parameter. -/
theorem spill_again (again : k + 256 < ps.length) (nonempty : ∀ p ∈ ps, p ≠ .string []) :
    ∃ rest, spill ps k = (ps[k + 1]).firstByte :: rest := by
  have next := chunkCount_pos (nonempty ps[k + 1] (List.getElem_mem _))
  have last := chunkCount_pos (nonempty ps[k + 256] (List.getElem_mem _))
  obtain ⟨item, items, block⟩ := List.exists_cons_of_length_pos
    (l := (ps[k + 1]).encode (k + 1)) (by rwa [encode_length])
  obtain ⟨repeated, member⟩ := List.exists_mem_of_length_pos
    (l := (ps[k + 256]).encode (k + 256)) (by rwa [encode_length])
  have number : repeated.mParamNum = paramByte k := by
    rw [(encode_mem member).2, paramByte_eq_iff]
    omega
  have inside : repeated ∈ encodeAll (k + 1) (ps.drop (k + 1)) := by
    refine encodeAll_mem (j := 255) (by simp; omega) ?_
    simpa [Nat.add_assoc] using member
  have counted : 0 < tally (paramByte k) ((encodeAll (k + 1) (ps.drop (k + 1))).map some) := by
    rw [tally, List.countP_pos_iff]
    exact ⟨some repeated, List.mem_map_of_mem inside, by simpa using number⟩
  obtain ⟨c, count⟩ := Nat.exists_eq_add_of_lt counted
  rw [Nat.zero_add] at count
  rw [spill, count, List.drop_eq_getElem_cons (by omega : k + 1 < ps.length), encodeAll, block,
    firstByte_eq _ (k + 1), block]
  exact ⟨_, rfl⟩

section low

variable (h : Layout m ps) (low : k < 256) (length : k < ps.length) {s : List UInt8}
  (isString : ps[k] = .string s) (nulFree : CString.NulFree s) (nonempty : s ≠ [])
include h low isString nulFree nonempty

theorem getString_extends {t : List UInt8} (read : m.getString k = .ok t) : ∃ x, t = s ++ x := by
  rw [getString_layout h low length isString nulFree nonempty, definedOr_eq_ok] at read
  split at read
  · obtain ⟨x, -, rfl⟩ := Option.map_eq_some_iff.mp read
    exact ⟨x, rfl⟩
  · exact ⟨[], by rw [List.append_nil, Option.some.inj read]⟩

theorem getString_exact (others : ∀ p ∈ ps, p ≠ .string []) : m.getString k = .ok s ↔
    ∀ again : k + 256 < ps.length, Parted ps[k] ps[k + 1] := by
  rw [getString_layout h low length isString nulFree nonempty, definedOr_eq_ok]
  simp only [isString, Parted]
  by_cases whole : s.length % 4 = 0
  · simp only [whole, if_true, true_imp_iff]
    rw [Option.map_eq_some_iff]
    simp only [List.append_right_eq_self, exists_eq_right]
    by_cases again : k + 256 < ps.length
    · obtain ⟨rest, first⟩ := spill_again again others
      simp only [first, List.cons_append, readCString_cons_nil, again, forall_true_left]
    · have none_after : spill ps k = [] := by
        rw [spill, tally_zero (numbers_after length (by omega))]
        rfl
      simp [none_after, again, readCString]
  · simp [whole]

end low

end layout

section loop

/-- What one pass of a loop adds, with or without game objects. -/
def taken (objects : Bool) (m : Message) (k : Nat) : Eval (Option Param) := do
  let ptype ← m.getParamType k
  if ptype = 'i' then return some (.int (← m.getInt k))
  else if ptype = 'f' then return some (.float (← m.getFloat k))
  else if ptype = 's' then return some (.string (← m.getString k))
  else if ptype = 'g' ∧ objects then return some (.gameObject (← m.getGameObject k))
  else return none

def addTaken (m : Message) : Option Param → Eval Message
  | some p => definedOr (m.addStep p)
  | none => pure m

theorem some_bind_addTaken {α : Type} (x : Eval α) (f : α → Param) (mptr : Message) :
    ((do return some (f (← x))) >>= addTaken mptr) =
      (do definedOr (mptr.addStep (f (← x)))) := by
  cases x <;> rfl

theorem bind_taken (objects : Bool) (m mptr : Message) (k : Nat) :
    (taken objects m k >>= addTaken mptr) = (do
      let ptype ← m.getParamType k
      if ptype = 'i' then definedOr (mptr.addInt (← m.getInt k)).value
      else if ptype = 'f' then definedOr (mptr.addFloat (← m.getFloat k)).value
      else if ptype = 's' then definedOr (mptr.addString (← m.getString k)).value
      else if ptype = 'g' ∧ objects then
        definedOr (mptr.addGameObject (← m.getGameObject k)).value
      else pure mptr) := by
  rw [taken, bind_assoc]
  congr 1
  funext ptype
  split_ifs
  · exact some_bind_addTaken _ .int mptr
  · exact some_bind_addTaken _ .float mptr
  · exact some_bind_addTaken _ .string mptr
  · exact some_bind_addTaken _ .gameObject mptr
  · rfl

theorem pushParam_eq (m mptr : Message) (k : Nat) :
    pushParam m mptr k = taken true m k >>= addTaken mptr := by
  simp only [bind_taken, pushParam, and_true]

theorem popParam_eq (mptr m : Message) (k : Nat) :
    popParam mptr m k = taken false mptr k >>= addTaken m := by
  simp [bind_taken, popParam]

variable {objects : Bool} {m : Message} {k : Nat}

theorem taken_some {p : Param} : taken objects m k = .ok (some p) ↔
    m.Retrieves k p ∧ (objects = false → p.typeCode ≠ 'g') := by
  cases type : m.getParamType k with
  | error fault => simp [taken, Retrieves, type, bind, Except.bind]
  | ok ptype =>
      simp only [taken, Retrieves, type, bind, Except.bind, Except.ok.injEq]
      split_ifs with int float string object
      · cases p <;> cases m.getInt k <;> simp [typeCode, int, pure, Except.pure]
      · cases p <;> cases m.getFloat k <;> simp [typeCode, float, pure, Except.pure]
      · cases p <;> cases m.getString k <;> simp [typeCode, string, pure, Except.pure]
      · cases p <;> cases m.getGameObject k <;> simp [typeCode, object, pure, Except.pure]
      · cases p <;> simp_all [typeCode, pure, Except.pure]

theorem addTaken_ok {m m' : Message} {t : Option Param} :
    addTaken m t = .ok m' ↔ runSteps addStep m t.toList = some m' := by
  cases t with
  | none => simp [addTaken, runSteps, pure, Except.pure]
  | some p =>
      cases added : m.addStep p <;> simp [addTaken, runSteps, added, definedOr]

theorem nulFree_of_retrieves {p : Param} (read : m.Retrieves k p) : p.NulFree := by
  cases p with
  | string s => exact nulFree_of_getString read.2
  | _ => trivial

/-- A message that was made by adding all parameters of another. -/
structure Copied (objects : Bool) (m : Message) (ps : List Param) (m' : Message) : Prop where
  count : m.getNumParams = ps.length
  read : ∀ k, ∀ h : k < ps.length, taken objects m k = .ok (some ps[k])
  made : runSteps addStep initialized ps = some m'

theorem Copied.retrieves {ps : List Param} {m' : Message} (copied : Copied objects m ps m')
    (k : Nat) (h : k < ps.length) : m.Retrieves k ps[k] := (taken_some.mp (copied.read k h)).1

theorem Copied.reads {ps : List Param} {m' : Message} (copied : Copied objects m ps m') :
    m.Reads ps :=
  ⟨copied.count, fun k h => .inl (copied.retrieves k h)⟩

theorem Copied.nulFree {ps : List Param} {m' : Message} (copied : Copied objects m ps m') :
    ∀ p ∈ ps, p.NulFree := by
  intro p member
  obtain ⟨k, h, rfl⟩ := List.mem_iff_getElem.mp member
  exact nulFree_of_retrieves (copied.retrieves k h)

def takenAt (objects : Bool) (m : Message) (k : Nat) : Option Param :=
  (taken objects m k).toOption.join

variable {pass : Message → Nat → Eval Message}

theorem loop_ok (each : ∀ mptr k, pass mptr k = taken objects m k >>= addTaken mptr) (n : Nat)
    {start m' : Message} : (List.range n).foldlM pass start = .ok m' ↔
      (∀ k < n, ∃ t, taken objects m k = .ok t) ∧
        runSteps addStep start ((List.range n).filterMap (takenAt objects m)) = some m' := by
  induction n generalizing m' with
  | zero => simp [runSteps, pure, Except.pure]
  | succ n ih =>
      have last : ∀ s, List.foldlM pass s [n] = .ok m' ↔
          ∃ t, taken objects m n = .ok t ∧ runSteps addStep s t.toList = some m' := by
        intro s
        simp only [List.foldlM_cons, List.foldlM_nil, bind_pure, each, bind_eq_ok, addTaken_ok]
      rw [List.range_succ, List.foldlM_append, List.filterMap_append, runSteps_append, bind_eq_ok,
        Option.bind_eq_some_iff]
      simp only [ih, last, Nat.forall_lt_succ_right]
      constructor
      · rintro ⟨s, ⟨earlier, made⟩, t, ok, added⟩
        refine ⟨⟨earlier, t, ok⟩, s, made, ?_⟩
        rw [List.filterMap_cons, List.filterMap_nil, takenAt, ok]
        cases t <;> exact added
      · rintro ⟨⟨earlier, t, ok⟩, s, made, added⟩
        refine ⟨s, ⟨earlier, made⟩, t, ok, ?_⟩
        rw [List.filterMap_cons, List.filterMap_nil, takenAt, ok] at added
        cases t <;> exact added

theorem filterMap_range {f : Nat → Option Param} {ps : List Param}
    (found : ∀ k, ∀ h : k < ps.length, f k = some ps[k]) :
    (List.range ps.length).filterMap f = ps := by
  induction ps using List.reverseRecOn with
  | nil => rfl
  | append_singleton ps p ih =>
      have earlier := ih fun k h => by
        rw [found k (by simp; omega), List.getElem_append_left h]
      have last := found ps.length (by simp)
      rw [List.length_append, List.length_singleton, List.range_succ, List.filterMap_append,
        earlier, List.filterMap_cons, last, List.getElem_concat_length rfl]
      rfl

theorem loop_count {n : Nat} {m' : Message}
    (returned : ∀ k < n, ∃ t, taken objects m k = .ok t)
    (made : runSteps addStep initialized ((List.range n).filterMap (takenAt objects m)) = some m') :
    m'.getNumParams = ((List.range n).filterMap (takenAt objects m)).length := by
  have free : ∀ p ∈ (List.range n).filterMap (takenAt objects m), p.NulFree := by
    intro p member
    obtain ⟨k, inside, found⟩ := List.mem_filterMap.mp member
    obtain ⟨t, ok⟩ := returned k (List.mem_range.mp inside)
    rw [takenAt, ok] at found
    obtain rfl : t = some p := found
    exact nulFree_of_retrieves (taken_some.mp ok).1
  exact (runSteps_counts startChunkNum_pos free made).1

theorem loop_short (each : ∀ mptr k, pass mptr k = taken objects m k >>= addTaken mptr)
    {m' : Message} (returned : (List.range m.getNumParams).foldlM pass initialized = .ok m') :
    m'.getNumParams ≤ m.getNumParams := by
  obtain ⟨all, made⟩ := (loop_ok each _).mp returned
  rw [loop_count all made]
  exact (List.length_filterMap_le _ _).trans List.length_range.le

theorem loop_iff (each : ∀ mptr k, pass mptr k = taken objects m k >>= addTaken mptr)
    {m' : Message} :
    (List.range m.getNumParams).foldlM pass initialized = .ok m' ∧
      m.getNumParams ≤ m'.getNumParams ↔ ∃ ps, Copied objects m ps m' := by
  rw [loop_ok each]
  constructor
  · rintro ⟨⟨returned, made⟩, long⟩
    have all : ∀ k < m.getNumParams, (takenAt objects m k).isSome := by
      rw [loop_count returned made, List.length_filterMap_eq_countP] at long
      have full := Nat.le_antisymm List.countP_le_length (List.length_range.trans_le long)
      exact fun k h => List.countP_eq_length.mp full k (List.mem_range.mpr h)
    set ps := (List.range m.getNumParams).map fun k => (takenAt objects m k).getD (.int 0)
      with ps_eq
    have count : ps.length = m.getNumParams := by simp [ps_eq]
    have found : ∀ k, ∀ h : k < ps.length, takenAt objects m k = some ps[k] := by
      intro k h
      obtain ⟨p, some_p⟩ := Option.isSome_iff_exists.mp (all k (count ▸ h))
      simp [ps_eq, some_p]
    refine ⟨ps, count.symm, fun k h => ?_, ?_⟩
    · obtain ⟨t, ok⟩ := returned k (count ▸ h)
      have same := found k h
      rw [takenAt, ok] at same
      rw [ok, show t = some ps[k] from same]
    · rw [← count, filterMap_range found] at made
      exact made
  · rintro ⟨ps, copied⟩
    have found : ∀ k, ∀ h : k < ps.length, takenAt objects m k = some ps[k] := fun k h => by
      rw [takenAt, copied.read k h]
      rfl
    have count := (runSteps_counts startChunkNum_pos copied.nulFree copied.made).1
    refine ⟨⟨fun k h => ⟨_, copied.read k (copied.count ▸ h)⟩, ?_⟩, ?_⟩
    · rw [copied.count, filterMap_range found]
      exact copied.made
    · exact (copied.count.trans count.symm).le

end loop

section crossing

variable {m m' mptr : Message} {ps : List Param}

theorem luaPushMessage_iff : luaPushMessage m = .ok mptr ∧ m.getNumParams ≤ mptr.getNumParams ↔
    ∃ ps, Copied true m ps mptr := loop_iff (pushParam_eq m)

theorem luaPopMessage_iff : luaPopMessage mptr = .ok m' ∧ mptr.getNumParams ≤ m'.getNumParams ↔
    ∃ ps, Copied false mptr ps m' := loop_iff (popParam_eq mptr)

theorem nonempty_of_copied {objects : Bool} (copied : Copied objects m ps m')
    (retrieved : ∀ k < ps.length, ∃ p, m'.Retrieves k p) : ∀ p ∈ ps, p ≠ .string [] := by
  rintro p member rfl
  obtain ⟨k, h, empty⟩ := List.mem_iff_getElem.mp member
  have none_stored := tally_of_empty startChunkNum_pos copied.nulFree (n := paramByte k)
    (fun j hj same => (copied.reads.getElem_eq hj h same).trans empty) copied.made
  obtain ⟨q, read⟩ := retrieved k h
  have := (tally_of_retrieves read).1
  omega

theorem type_of_layout (layout : Layout m' ps) (reads : m.Reads ps)
    (nonempty : ∀ p ∈ ps, p ≠ .string []) {k : Nat} (length : k < ps.length) :
    m'.getParamType k = .ok (ps[k]).typeCode := by
  have low : k % 256 < 256 := Nat.mod_lt _ (by decide)
  have inside : k % 256 < ps.length := (Nat.mod_le k 256).trans_lt length
  have type := getParamType_layout layout low inside
    (chunkCount_pos (nonempty _ (List.getElem_mem inside)))
  rw [getParamType, paramByte_mod, reads.getElem_eq inside length (paramByte_mod k)] at type
  exact type

theorem retrieves_of_layout (layout : Layout m' ps) (reads : m.Reads ps)
    (nulFree : ∀ p ∈ ps, p.NulFree) (nonempty : ∀ p ∈ ps, p ≠ .string [])
    (parted : ∀ k, ∀ again : k + 256 < ps.length, Parted ps[k] ps[k + 1]) {k : Nat}
    (length : k < ps.length) : m'.Retrieves k ps[k] := by
  have low : k % 256 < 256 := Nat.mod_lt _ (by decide)
  have inside : k % 256 < ps.length := (Nat.mod_le k 256).trans_lt length
  rw [← retrieves_congr (paramByte_mod k), ← reads.getElem_eq inside length (paramByte_mod k)]
  by_cases scalar : (ps[k % 256]).typeCode = 's'
  · have type := type_of_layout layout reads nonempty inside
    have member := List.getElem_mem inside
    cases hp : ps[k % 256] with
    | string s =>
        rw [hp] at member type
        refine ⟨type, (getString_exact layout low inside hp (nulFree _ member) ?_ nonempty).mpr
          (parted _)⟩
        exact fun empty => nonempty _ member (by rw [empty])
    | _ => simp [hp, typeCode] at scalar
  · exact getScalar_layout layout low inside scalar

theorem inOrder_of_scalars (scalars : ∀ p ∈ ps, p.typeCode ≠ 's') : InOrder ps where
  nonempty := by
    rintro p member rfl
    exact scalars _ member rfl
  ordered := by
    refine List.pairwise_of_forall_mem_list fun p _ q member _ => ?_
    cases q with
    | string s => exact absurd rfl (scalars _ member)
    | _ => rfl

theorem Copied.eq_of_reads {objects : Bool} {qs : List Param} (copied : Copied objects m qs m')
    (reads : m.Reads ps) : qs = ps := by
  refine List.ext_getElem (copied.count.symm.trans reads.count) fun k hq hp => ?_
  exact readsAs_unique (.inl (copied.retrieves k hq)) (reads.params k hp)

theorem Same.retrieves (same : Same m m' ps) (count : m.getNumParams = ps.length)
    (read : ∀ k, ∀ h : k < ps.length, m.Retrieves k ps[k]) (k : Nat) (h : k < ps.length) :
    m'.Retrieves k ps[k] := by
  refine (same.values k h).resolve_right ?_
  rintro ⟨-, unknown, -⟩
  rw [same.types k (count ▸ h), (read k h).1] at unknown
  exact typeCode_ne_unknown _ (Except.ok.inj unknown)

/-- The way through a rebuilt message: both copies take every parameter. -/
structure Through (m mptr m' : Message) (ps qs : List Param) : Prop where
  push : Copied true m ps mptr
  pop : Copied false mptr qs m'
  back : ∀ k, ∀ h : k < ps.length, m'.Retrieves k ps[k]

namespace Through

variable {qs : List Param} (h : Through m mptr m' ps qs)
include h

theorem length_eq : qs.length = ps.length := by
  rw [← h.pop.count, getNumParams, (runSteps_counts startChunkNum_pos h.push.nulFree h.push.made).1]

theorem nonempty : ∀ p ∈ ps, p ≠ .string [] :=
  nonempty_of_copied h.push fun k hk =>
    ⟨_, h.pop.retrieves k (h.length_eq ▸ hk)⟩

theorem nonempty_popped : ∀ q ∈ qs, q ≠ .string [] :=
  nonempty_of_copied h.pop fun k hk => ⟨_, h.back k (h.length_eq ▸ hk)⟩

theorem layout : InOrder ps ∧ Layout mptr ps := by
  by_cases scalars : ∀ p ∈ ps, p.typeCode ≠ 's'
  · have order := inOrder_of_scalars scalars
    obtain ⟨m₁, reached, layout⟩ := layout_of_inOrder startChunkNum_pos h.push.nulFree order
    obtain rfl := Option.some.inj (h.push.made.symm.trans reached)
    exact ⟨order, layout⟩
  · refine layout_of_written startChunkNum_pos h.push.nulFree h.nonempty h.push.made ?_
    by_cases popped : ∀ q ∈ qs, q.typeCode ≠ 's'
    · have order := inOrder_of_scalars popped
      obtain ⟨m₁, reached, layout⟩ := layout_of_inOrder startChunkNum_pos h.pop.nulFree order
      obtain rfl := Option.some.inj (h.pop.made.symm.trans reached)
      refine absurd (fun p member => ?_) scalars
      obtain ⟨k, hk, rfl⟩ := List.mem_iff_getElem.mp member
      have type := type_of_layout layout h.pop.reads h.nonempty_popped (h.length_eq ▸ hk)
      rw [(h.back k hk).1, Except.ok.injEq] at type
      rw [type]
      exact popped _ (List.getElem_mem _)
    · obtain ⟨q, member, text⟩ : ∃ q ∈ qs, q.typeCode = 's' := by simpa using popped
      obtain ⟨k, hk, rfl⟩ := List.mem_iff_getElem.mp member
      have read := h.pop.retrieves k hk
      cases hq : qs[k] with
      | string s =>
          rw [hq] at read
          exact written_of_getString read.2
      | _ => simp [hq, typeCode] at text

theorem no_objects : ∀ p ∈ ps, p.typeCode ≠ 'g' := by
  intro p member
  obtain ⟨k, hk, rfl⟩ := List.mem_iff_getElem.mp member
  obtain ⟨read, allowed⟩ := taken_some.mp (h.pop.read k (h.length_eq ▸ hk))
  have type := type_of_layout h.layout.2 h.push.reads h.nonempty hk
  rw [read.1, Except.ok.injEq] at type
  exact type ▸ allowed rfl

theorem popped_string {k : Nat} (low : k < 256) (hk : k < ps.length) {s : List UInt8}
    (isString : ps[k] = .string s) : mptr.getString k = .ok s := by
  have member := List.getElem_mem hk
  have free := h.push.nulFree _ member
  have filled := h.nonempty _ member
  have back := h.back k hk
  rw [isString] at free filled back
  have hk' : k < qs.length := h.length_eq ▸ hk
  have member' := List.getElem_mem hk'
  have free' := h.pop.nulFree _ member'
  have filled' := h.nonempty_popped _ member'
  have read := h.pop.retrieves k hk'
  have type := type_of_layout h.layout.2 h.push.reads h.nonempty hk
  cases popped : qs[k] with
  | string t =>
      rw [popped] at free' filled' read
      obtain ⟨x, longer⟩ := getString_extends h.layout.2 low hk isString free
        (fun empty => filled (by rw [empty])) read.2
      have layout' := (layout_of_written startChunkNum_pos h.pop.nulFree h.nonempty_popped
        h.pop.made (written_of_getString back.2)).2
      obtain ⟨y, again⟩ := getString_extends layout' low hk' popped free'
        (fun empty => filled' (by rw [empty])) back.2
      have lengths := congrArg List.length again
      rw [longer, List.append_assoc, List.length_append, List.length_append] at lengths
      have nothing : x = [] := List.length_eq_zero_iff.mp (by omega)
      rw [nothing, List.append_nil] at longer
      exact longer ▸ read.2
  | _ =>
      rw [popped] at read
      rw [read.1, isString] at type
      simp [typeCode] at type

theorem parted (k : Nat) (again : k + 256 < ps.length) : Parted ps[k] ps[k + 1] := by
  have low : k % 256 < 256 := Nat.mod_lt _ (by decide)
  have least := Nat.mod_le k 256
  have first := h.push.reads.getElem_eq (by omega) (by omega) (paramByte_mod k)
  have second := h.push.reads.getElem_eq (j := k % 256 + 1) (k := k + 1) (by omega) (by omega)
    ((paramByte_eq_iff _ _).mpr (by omega))
  rw [← first, ← second]
  cases hp : ps[k % 256] with
  | string s =>
      have member : .string s ∈ ps := hp ▸ List.getElem_mem _
      rw [← hp]
      refine (getString_exact h.layout.2 low _ hp (h.push.nulFree _ member) ?_ h.nonempty).mp
        (h.popped_string low _ hp) (by omega)
      exact fun empty => h.nonempty _ member (by rw [empty])
  | _ => trivial

end Through

end crossing

/-- No string runs on into the parameter whose number comes again. -/
def PartedAgain (ps : List Param) : Prop :=
  ∀ k, ∀ again : k + 256 < ps.length, Parted ps[k] ps[k + 1]

/-- A message whose parameters can be added in order arrives in Lua with all of them. -/
theorem luaPushMessage_inOrder {m : Message} {ps : List Param} (reads : m.Reads ps)
    (nulFree : ∀ p ∈ ps, p.NulFree) (order : InOrder ps)
    (parted : PartedAgain ps) :
    ∃ mptr, luaPushMessage m = .ok mptr ∧ runSteps addStep initialized ps = some mptr ∧
      Layout mptr ps ∧ ∀ k, ∀ h : k < ps.length, m.Retrieves k ps[k] ∧ mptr.Retrieves k ps[k] := by
  obtain ⟨mptr, made, layout⟩ := layout_of_inOrder startChunkNum_pos nulFree order
  have read : ∀ k, ∀ h : k < ps.length, m.Retrieves k ps[k] := fun k h =>
    (reads.params k h).resolve_right fun empty =>
      order.nonempty _ (List.getElem_mem h) empty.1
  have push : Copied true m ps mptr :=
    ⟨reads.count, fun k h => taken_some.mpr ⟨read k h, by simp⟩, made⟩
  exact ⟨mptr, (luaPushMessage_iff.mpr ⟨ps, push⟩).1, made, layout, fun k h =>
    ⟨read k h, retrieves_of_layout layout reads nulFree order.nonempty parted h⟩⟩

/-- A message comes back the same exactly when none of its parameters is a game object
or an empty string, the strings could be added in order, and no string that ends
with its last chunk has its number again unless what follows begins with a zero byte. -/
theorem crosses_iff (m : Message) (ps : List Param) (reads : m.Reads ps)
    (nulFree : ∀ p ∈ ps, p.NulFree) :
    Crosses m ps ↔ InOrder ps ∧ (∀ p ∈ ps, p.typeCode ≠ 'g') ∧
      ∀ k, ∀ again : k + 256 < ps.length, Parted ps[k] ps[k + 1] := by
  constructor
  · rintro ⟨mptr, m', pushed, popped, same⟩
    have pushShort := loop_short (pushParam_eq m) pushed
    have popShort := loop_short (popParam_eq mptr) popped
    have count := same.count
    obtain ⟨ps', push⟩ := luaPushMessage_iff.mp ⟨pushed, by omega⟩
    obtain ⟨qs, pop⟩ := luaPopMessage_iff.mp ⟨popped, by omega⟩
    obtain rfl := push.eq_of_reads reads
    have through : Through m mptr m' ps' qs :=
      ⟨push, pop, same.retrieves push.count push.retrieves⟩
    exact ⟨through.layout.1, through.no_objects, through.parted⟩
  · rintro ⟨order, objects, parted⟩
    obtain ⟨mptr, pushed, made, layout, read⟩ :=
      luaPushMessage_inOrder reads nulFree order parted
    have pop : Copied false mptr ps mptr :=
      ⟨layout.numParam, fun k h => taken_some.mpr
        ⟨(read k h).2, fun _ => objects _ (List.getElem_mem h)⟩, made⟩
    refine ⟨mptr, mptr, pushed, (luaPopMessage_iff.mpr ⟨ps, pop⟩).1,
      layout.numParam.trans reads.count.symm, fun k h => ?_, fun k h => .inl (read k h).2⟩
    rw [reads.count] at h
    rw [(read k h).2.1, (read k h).1.1]

/-- A name and a number cross. -/
theorem crosses_named : ∃ m,
    (initialized.addAll [.string (chars "Bob"), .int 7]).value = some m ∧
      Crosses m [.string (chars "Bob"), .int 7] :=
  ⟨.mk [some ⟨'s', ⟨some 66, some 111, some 98, some 0⟩, 0⟩,
    some ⟨'i', ⟨some 7, some 0, some 0, some 0⟩, 1⟩, none] 2 2, by decide,
    (crosses_iff _ _ ⟨rfl, by decide⟩ (by decide)).mpr
      ⟨by decide, by decide, fun k again => absurd again (by simp)⟩⟩

/-- The way back skips a game object, and an empty string does not even get in. -/
theorem not_crosses :
    (∃ m, (initialized.addAll [.gameObject 4096, .int 7]).value = some m ∧
      m.Reads [.gameObject 4096, .int 7] ∧ ¬ Crosses m [.gameObject 4096, .int 7]) ∧
    ∃ m, (initialized.addAll [.string [], .int 7]).value = some m ∧
      m.Reads [.string [], .int 7] ∧ ¬ Crosses m [.string [], .int 7] := by
  constructor
  · refine ⟨.mk [some ⟨'g', ⟨some 0, some 16, some 0, some 0⟩, 0⟩,
      some ⟨'i', ⟨some 7, some 0, some 0, some 0⟩, 1⟩, none] 2 2, by decide, ⟨rfl, by decide⟩, ?_⟩
    rintro ⟨mptr, m', pushed, popped, same⟩
    obtain rfl := Except.ok.inj pushed
    obtain rfl := Except.ok.inj popped
    exact absurd same.count (by decide)
  · refine ⟨.mk [some ⟨'i', ⟨some 7, some 0, some 0, some 0⟩, 1⟩, none, none] 2 1, by decide,
      ⟨rfl, by decide⟩, ?_⟩
    rintro ⟨mptr, m', pushed, popped, same⟩
    obtain rfl := Except.ok.inj pushed
    obtain rfl := Except.ok.inj popped
    exact absurd same.count (by decide)

end Message

end Ssuge

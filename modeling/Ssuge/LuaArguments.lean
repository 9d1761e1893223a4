import Ssuge.Scripting

/-! Lua values on their way into a message. `__lua_Message_new` takes them from the stack of
its call and `__lua_get_Message` from the end of a longer one; both let the same chain of
tests decide what a value adds. A string that Lua can convert passes for a number, other
values are skipped, and what follows a skipped value moves up. -/

namespace Ssuge

open RecordedRun CString Procedure Lua Ssuge.Frame GuardedRun Message Param

/-- `lua_replace(L, n)`; the index `n` is counted from the bottom. -/
def Frame.replace (n : Nat) : LuaProc Unit := do
  let v ← fromTop 1
  pop 1
  modify fun f => { f with stack := f.stack.set (f.stack.length - n) v }

/-- The loop of `__lua_Message_new`: for `i` from 1 on, the value at the index `i + 1`. -/
def newLoop (host : Host) (stack : List Value) : Eval Message :=
  (List.range' 1 (stack.length - 1)).foldlM
    (fun mptr i => stack[i]?.elim (pure mptr) (getParam host mptr)) .initialized

/-- `__lua_Message_new` -/
def messageNew (host : Host) : LuaProc (Option Value) := do
  let stack := (← get).stack.reverse
  newuserdata (.message (newLoop host stack))
  getmetatable (chars "ssuge.Message")
  setmetatable
  replace 1
  settop 1
  returnTop

namespace Message

section cells

variable {m m' : Message} {ps : List Param} {item : DataItem} {n k : Nat}

theorem mem_prefixCells {cells : List (Option DataItem)}
    (member : some item ∈ prefixCells cells n) : some item ∈ cells := by
  obtain ⟨i, -, cell⟩ := List.mem_map.mp member
  exact List.mem_of_getElem? (Option.join_eq_some_iff.mp cell)

theorem Reserved.mem (made : Reserved m n m') (member : some item ∈ m'.mParams) :
    some item ∈ m.mParams := by
  rcases made.cells with same | ⟨-, r, grown⟩
  · exact same ▸ member
  · rw [grown] at member
    rcases List.mem_append.mp member with copied | unwritten
    · exact mem_prefixCells copied
    · simp [List.mem_replicate] at unwritten

theorem fullChunkLoop_mem {s : List (Option UInt8)} {mParams written : List (Option DataItem)}
    (looped : (fullChunkLoop s n k mParams).value = some written)
    (member : some item ∈ written) :
    some item ∈ mParams ∨ 0 < k ∧ item.mParamNum = paramByte n ∧ item.mType = 's' := by
  induction k generalizing written with
  | zero =>
      obtain rfl := Option.some.inj looped
      exact .inl member
  | succ k ih =>
      obtain ⟨before, returned, -⟩ := fullChunkLoop_spec s n k mParams
      rw [fullChunkLoop, bind_value_of returned, bind_value_of (loadWord_value _ _),
        store_value] at looped
      obtain rfl := Option.some.inj looped
      rcases List.mem_or_eq_of_mem_set member with old | new
      · exact (ih returned old).imp_right fun wrote => ⟨Nat.succ_pos k, wrote.2⟩
      · obtain rfl := Option.some.inj new
        exact .inr ⟨Nat.succ_pos k, rfl, rfl⟩

theorem add_mem {p : Param} (nulFree : p.NulFree) (capacity : 0 < m.mMaxChunks)
    (added : addStep m p = some m') (member : some item ∈ m'.mParams) :
    some item ∈ m.mParams ∨ item.mParamNum = paramByte m.mNumParam ∧
      item.mType = p.typeCode ∧ p ≠ .string [] := by
  have scalar : ∀ mData, (m.addItem p.typeCode mData).value = some m' → p ≠ .string [] →
      some item ∈ m.mParams ∨ item.mParamNum = paramByte m.mNumParam ∧
        item.mType = p.typeCode ∧ p ≠ .string [] := by
    intro mData value filled
    obtain ⟨m₁, made, returned, -⟩ := addItem_spec m p.typeCode mData capacity
    obtain rfl := Option.some.inj (value.symm.trans returned)
    rcases List.mem_or_eq_of_mem_set member with old | new
    · exact .inl (made.mem old)
    · obtain rfl := Option.some.inj new
      exact .inr ⟨rfl, rfl, filled⟩
  cases p with
  | string s =>
      obtain ⟨m₁, full, made, looped, returned, -⟩ := addString_spec m nulFree capacity
      obtain rfl := Option.some.inj (added.symm.trans returned)
      have through : some item ∈ full → some item ∈ m.mParams ∨
          item.mParamNum = paramByte m.mNumParam ∧ item.mType = 's' ∧ Param.string s ≠ .string [] :=
        fun inside => (fullChunkLoop_mem looped inside).imp made.mem fun ⟨positive, number, type⟩ =>
          ⟨number, type, by rintro ⟨⟩; simp at positive⟩
      have last : some item ∈ m.withTail s full := member
      rw [withTail] at last
      split at last
      · exact through last
      next partial_ =>
        rcases List.mem_or_eq_of_mem_set last with old | new
        · exact through old
        · obtain rfl := Option.some.inj new
          exact .inr ⟨rfl, rfl, by rintro ⟨⟩; simp at partial_⟩
  | _ => exact scalar _ added (by simp)

theorem runSteps_mem {numChunks : Nat} (positive : 0 < numChunks)
    (nulFree : ∀ p ∈ ps, p.NulFree) (reached : runSteps addStep (ofSize numChunks) ps = some m)
    (member : some item ∈ m.mParams) : ∃ j, ∃ h : j < ps.length,
      paramByte j = item.mParamNum ∧ (ps[j]).typeCode = item.mType ∧ ps[j] ≠ .string [] := by
  induction ps using List.reverseRecOn generalizing m with
  | nil =>
      obtain rfl := Option.some.inj reached
      simp [ofSize, List.mem_replicate] at member
  | append_singleton ps p ih =>
      have free : ∀ q ∈ ps, q.NulFree := fun q inside => nulFree q (by simp [inside])
      rw [runSteps_snoc] at reached
      obtain ⟨m₀, before, added⟩ := Option.bind_eq_some_iff.mp reached
      obtain ⟨count, capacity⟩ := runSteps_counts positive free before
      rcases add_mem (nulFree p (by simp)) capacity added member with old | ⟨number, type, filled⟩
      · obtain ⟨j, hj, number, rest⟩ := ih free before old
        refine ⟨j, by simp; omega, number, ?_⟩
        rwa [List.getElem_append_left hj]
      · refine ⟨ps.length, by simp, by rw [number, count], ?_⟩
        simpa using ⟨type.symm, filled⟩

theorem mem_of_getParamType {c : Char} (type : m.getParamType k = .ok c) (known : c ≠ '?') :
    ∃ item, some item ∈ m.mParams ∧ item.mParamNum = paramByte k ∧ item.mType = c := by
  obtain ⟨found, looked, value⟩ := bind_eq_ok.mp type
  cases found with
  | none => exact absurd (Except.ok.inj value).symm known
  | some item =>
      obtain ⟨member, number⟩ := mem_of_lookup looked
      exact ⟨item, mem_prefixCells member, number, Except.ok.inj value⟩

end cells

end Message

namespace Marshalling

def Scalar : Value → Prop
  | .number _ => True
  | .string _ => True
  | _ => False

instance : DecidablePred Scalar := fun v => by
  cases v <;> unfold Scalar <;> infer_instance

def made (host : Host) (values : List Value) (k : Nat) : Eval Message :=
  (values.take k).foldlM (getParam host) .initialized

/-- Numbers are numeric parameters and strings without NUL are strings with their text, at
their position; when a number or a string is added, its number is that position. -/
structure Carried (host : Host) (values : List Value) (m : Message) : Prop where
  numbers : ∀ k bits, values[k]? = some (.number bits) →
    m.getParamType k = .ok 'i' ∨ m.getParamType k = .ok 'f'
  strings : ∀ k s, values[k]? = some (.string s) → CString.NulFree s →
    m.getParamType k = .ok 's' ∧ m.getString k = .ok s
  unshifted : ∀ k v, values[k]? = some v → Scalar v →
    ∃ m', made host values k = .ok m' ∧ m'.getNumParams = k

/-- Called with `cls` and the values, `__lua_Message_new` returns a userdata with the
message, and `__lua_get_Message` makes the same one of the values above `below`. -/
structure Built (host : Host) (w : World) (cls : Value) (below : List Value)
    (removeFromStack : Bool) (values : List Value) (m : Message) : Prop where
  new : ∃ u w', (messageNew host).run ⟨w, values.reverse ++ [cls]⟩ =
      .returned (some (.userdata u)) ⟨w', [.userdata u]⟩ ∧
    w'.lua.userdata[u]?.map Userdata.payload = some (.message (.ok m))
  get : ∃ f, (getMessage host (below.length + 1) removeFromStack).run
    ⟨w, values.reverse ++ below⟩ = .returned (.ok m) f

/-- The parameter of a number that fits an `int`, and of a string that is none. -/
def plainParam (host : Host) : Value → Option Param
  | .number bits =>
      let f := host.toFloat bits
      f.toInt.map fun i => if f.isInteger then .int i else .float f
  | .string s => if (host.scan s).isNone then some (.string (cString s)) else none
  | _ => none

def SameKind (p q : Param) : Prop := p = q ∨ p.typeCode ≠ 's' ∧ q.typeCode ≠ 's'

instance (p q : Param) : Decidable (SameKind p q) := inferInstanceAs (Decidable (_ ∨ _))

/-- The condition on the parameters: they can be added in order, and those whose numbers
have the same low eight bits agree. -/
structure Readable (ps : List Param) : Prop where
  inOrder : InOrder ps
  parted : ∀ k < 256, k + 256 < ps.length →
    ∀ (_ : k < ps.length) (_ : k + 1 < ps.length), Parted ps[k] ps[k + 1]
  again : ∀ k, ∀ h : k < ps.length,
    SameKind (getElem ps (k % 256) (Nat.lt_of_le_of_lt (Nat.mod_le k 256) h)) ps[k]

/-- The condition on the values: up to the last number or string all are plain, and
their parameters readable. -/
def Plain (host : Host) (values : List Value) : Prop :=
  ∃ front others ps, values = front ++ others ∧ (∀ v ∈ others, ¬ Scalar v) ∧
    front.map (plainParam host) = ps.map some ∧ Readable ps

section loops

variable {host : Host}

theorem newLoop_cons (cls : Value) (values : List Value) :
    newLoop host (cls :: values) = values.foldlM (getParam host) .initialized := by
  suffices from_any : ∀ (below values : List Value) (m : Message),
      (List.range' below.length values.length).foldlM (fun mptr i =>
        (below ++ values)[i]?.elim (pure mptr) (getParam host mptr)) m =
        values.foldlM (getParam host) m by
    simpa [newLoop] using from_any [cls] values .initialized
  intro below values
  induction values generalizing below with
  | nil => intro m; rfl
  | cons v values ih =>
      intro m
      have first : (below ++ v :: values)[below.length]? = some v := by simp
      rw [List.length_cons, List.range'_succ, List.foldlM_cons, List.foldlM_cons, first]
      refine bind_congr fun m' => ?_
      have rest := ih (below ++ [v]) m'
      simpa using rest

theorem replace_run (w : World) (v u : Value) (st : List Value) :
    (replace 1).run ⟨w, v :: (st ++ [u])⟩ = .returned () ⟨w, st ++ [v]⟩ := by
  unfold replace
  rw [bind_fromTop rfl, bind_of_returned (pop_run (by simp)), modify_run]
  simp

theorem settop_one_run (w : World) (v : Value) (st : List Value) :
    (settop 1).run ⟨w, st ++ [v]⟩ = .returned () ⟨w, [v]⟩ := by
  rw [settop, modify_run]
  simp

theorem messageNew_run (w : World) (cls : Value) (values : List Value) :
    ∃ u w', (messageNew host).run ⟨w, values.reverse ++ [cls]⟩ =
        .returned (some (.userdata u)) ⟨w', [.userdata u]⟩ ∧
      w'.lua.userdata[u]?.map Userdata.payload =
        some (.message (values.foldlM (getParam host) .initialized)) := by
  set payload := Payload.message (newLoop host (values.reverse ++ [cls]).reverse) with built
  refine ⟨w.lua.userdata.length, w.withLua ((w.lua.newUserdata payload).setMetatable
    (.userdata w.lua.userdata.length) (w.lua.registry (chars "ssuge.Message"))), ?_, ?_⟩
  · unfold messageNew
    rw [bind_get_run, bind_of_returned (newuserdata_run _), bind_of_returned (getmetatable_run _),
      bind_of_returned (setmetatable_run (asMetatable_metatableValue _)),
      bind_of_returned (replace_run _ _ _ _), bind_of_returned (settop_one_run _ _ _)]
    rfl
  · have arguments : (values.reverse ++ [cls]).reverse = cls :: values := by simp
    rw [arguments, newLoop_cons] at built
    simp [World.withLua, State.setMetatable, State.newUserdata, built]

theorem getMessage_run (w : World) (below values : List Value) (removeFromStack : Bool) :
    ∃ f, (getMessage host (below.length + 1) removeFromStack).run ⟨w, values.reverse ++ below⟩ =
      .returned (values.foldlM (getParam host) .initialized) f := by
  have taken : (values.reverse ++ below).reverse.drop (below.length + 1 - 1) = values := by
    rw [List.reverse_append, List.reverse_reverse, Nat.add_sub_cancel]
    exact List.drop_left' (by simp)
  unfold getMessage
  rw [bind_get_run]
  simp only [taken]
  cases removeFromStack with
  | false => exact ⟨_, rfl⟩
  | true => exact ⟨_, rfl⟩

/-- Both build a message, and the same one, exactly when the tests and adds return. -/
theorem built_iff {w : World} {cls : Value} {below values : List Value} {removeFromStack : Bool}
    {m : Message} : Built host w cls below removeFromStack values m ↔
      values.foldlM (getParam host) .initialized = .ok m := by
  obtain ⟨u, w', new, payload⟩ := @messageNew_run host w cls values
  obtain ⟨f, get⟩ := @getMessage_run host w below values removeFromStack
  constructor
  · rintro ⟨-, f', returned⟩
    exact (Ending.returned.inj (get.symm.trans returned)).1
  · intro all
    rw [all] at payload get
    exact ⟨⟨u, w', new, payload⟩, f, get⟩

end loops

section adds

variable {host : Host} {values : List Value} {v : Value} {m m' : Message}

/-- What a value adds, if it adds anything and is no number that does not fit an `int`. -/
def recorded (host : Host) (v : Value) : Option Param :=
  match host.number? v, v with
  | some bits, _ => plainParam host (.number bits)
  | none, .string s => some (.string (cString s))
  | none, _ => none

theorem getParam_recorded {p : Param} (records : recorded host v = some p) :
    getParam host m v = definedOr (addStep m p) := by
  cases number : host.number? v with
  | some bits =>
      simp only [recorded, number] at records
      obtain ⟨i, fits, rfl⟩ := Option.map_eq_some_iff.mp records
      simp only [getParam, number, fits, definedOr, bind, Except.bind]
      split <;> rfl
  | none =>
      cases v with
      | string s =>
          simp only [recorded, number] at records
          obtain rfl := Option.some.inj records
          simp only [getParam, number]
          rfl
      | _ => simp [recorded, number] at records

theorem scalar_of_recorded {p : Param} (records : recorded host v = some p) : Scalar v := by
  cases v <;> trivial

theorem getParam_other (other : ¬ Scalar v) : getParam host m v = .ok m := by
  cases v <;> first | exact absurd trivial other | rfl

theorem getParam_ok (returned : getParam host m v = .ok m') :
    (∃ p, recorded host v = some p ∧ addStep m p = some m') ∨
      recorded host v = none ∧ ¬ Scalar v ∧ m' = m := by
  cases records : recorded host v with
  | some p =>
      rw [getParam_recorded records] at returned
      exact .inl ⟨p, rfl, definedOr_eq_ok.mp returned⟩
  | none =>
      by_cases scalar : Scalar v
      · unfold recorded at records
        unfold getParam at returned
        cases number : host.number? v with
        | some bits =>
            simp only [number, plainParam, Option.map_eq_none_iff] at records returned
            simp [records, definedOr, bind, Except.bind] at returned
        | none => cases v <;> simp_all [Scalar, Host.number?]
      · rw [getParam_other scalar] at returned
        exact .inr ⟨rfl, scalar, (Except.ok.inj returned).symm⟩

theorem recorded_nulFree {p : Param} (records : recorded host v = some p) : p.NulFree := by
  unfold recorded at records
  split at records
  · obtain ⟨i, -, rfl⟩ := Option.map_eq_some_iff.mp records
    split <;> trivial
  next s number =>
    obtain rfl := Option.some.inj records
    intro member
    simpa using List.mem_takeWhile_imp member
  · simp at records

theorem foldlM_ok (returned : values.foldlM (getParam host) m = .ok m') :
    runSteps addStep m (values.filterMap (recorded host)) = some m' := by
  induction values generalizing m with
  | nil => exact congrArg some (Except.ok.inj returned)
  | cons v values ih =>
      rw [List.foldlM_cons] at returned
      obtain ⟨m₁, first, rest⟩ := bind_eq_ok.mp returned
      rcases getParam_ok first with ⟨p, records, added⟩ | ⟨skips, -, rfl⟩
      · rw [List.filterMap_cons_some records, runSteps, added]
        exact ih rest
      · rw [List.filterMap_cons_none skips]
        exact ih rest

theorem foldlM_recorded {ps : List Param} (records : values.map (recorded host) = ps.map some) :
    values.foldlM (getParam host) m = definedOr (runSteps addStep m ps) := by
  induction values generalizing m ps with
  | nil =>
      obtain rfl : ps = [] := by simpa using records.symm
      rfl
  | cons v values ih =>
      rcases ps with _ | ⟨p, ps⟩
      · simp at records
      · obtain ⟨first, rest⟩ := List.cons.inj records
        rw [List.foldlM_cons, getParam_recorded first, runSteps]
        cases addStep m p with
        | none => rfl
        | some m₁ => exact ih rest

theorem foldlM_others (others : ∀ v ∈ values, ¬ Scalar v) :
    values.foldlM (getParam host) m = .ok m := by
  induction values with
  | nil => rfl
  | cons v values ih =>
      rw [List.foldlM_cons, getParam_other (others v (by simp))]
      exact ih fun u member => others u (by simp [member])

theorem map_of_length {f : Value → Option Param}
    (all : (values.filterMap f).length = values.length) :
    values.map f = (values.filterMap f).map some := by
  induction values with
  | nil => rfl
  | cons v values ih =>
      cases found : f v with
      | none =>
          rw [List.filterMap_cons_none found, List.length_cons] at all
          have := List.length_filterMap_le f values
          omega
      | some p =>
          rw [List.filterMap_cons_some found, List.length_cons, List.length_cons] at all
          rw [List.filterMap_cons_some found, List.map_cons, List.map_cons, found,
            ih (Nat.succ.inj all)]

theorem filterMap_nulFree : ∀ p ∈ values.filterMap (recorded host), p.NulFree := by
  intro p member
  obtain ⟨v, -, records⟩ := List.mem_filterMap.mp member
  exact recorded_nulFree records

theorem made_count (returned : values.foldlM (getParam host) .initialized = .ok m) :
    m.getNumParams = (values.filterMap (recorded host)).length :=
  (runSteps_counts startChunkNum_pos filterMap_nulFree (foldlM_ok returned)).1

theorem split_of_unshifted (returned : values.foldlM (getParam host) .initialized = .ok m)
    (unshifted : ∀ k v, values[k]? = some v → Scalar v →
      ∃ m', made host values k = .ok m' ∧ m'.getNumParams = k) :
    ∃ (front others : List Value) (ps : List Param), values = front ++ others ∧
      (∀ v ∈ others, ¬ Scalar v) ∧ front.map (recorded host) = ps.map some := by
  induction values using List.reverseRecOn generalizing m with
  | nil => exact ⟨[], [], [], rfl, by simp, rfl⟩
  | append_singleton values v ih =>
      rw [List.foldlM_append] at returned
      obtain ⟨m₀, before, last⟩ := bind_eq_ok.mp returned
      rw [List.foldlM_cons] at last
      obtain ⟨m₁, added, -⟩ := bind_eq_ok.mp last
      rcases getParam_ok added with ⟨p, records, -⟩ | ⟨-, other, -⟩
      · obtain ⟨m', prefixMade, count⟩ :=
          unshifted values.length v (by simp) (scalar_of_recorded records)
        rw [made, List.take_left' rfl] at prefixMade
        rw [made_count prefixMade] at count
        refine ⟨values ++ [v], [], values.filterMap (recorded host) ++ [p], by simp, by simp, ?_⟩
        rw [List.map_append, List.map_append, map_of_length count, List.map_singleton,
          List.map_singleton, records]
      · obtain ⟨front, others, ps, rfl, skipped, records⟩ := ih before fun k u found scalar => by
          have inside := (List.getElem?_eq_some_iff.mp found).1
          obtain ⟨m', prefixMade, count⟩ := unshifted k u
            ((List.getElem?_append_left inside).trans found) scalar
          rw [made, List.take_append_of_le_length inside.le] at prefixMade
          exact ⟨m', prefixMade, count⟩
        refine ⟨front, others ++ [v], ps, by simp, fun u member => ?_, records⟩
        rcases List.mem_append.mp member with old | new
        · exact skipped u old
        · exact List.mem_singleton.mp new ▸ other

end adds

section plain

variable {host : Host} {front others values : List Value} {ps : List Param} {v : Value} {p : Param}
  {m : Message}

theorem cString_of_nulFree {s : List UInt8} (free : CString.NulFree s) : cString s = s :=
  List.takeWhile_eq_self_iff.mpr fun c member => by
    simpa using fun zero : c = 0 => free (zero ▸ member)

theorem recorded_of_plain (plain : plainParam host v = some p) : recorded host v = some p := by
  cases v with
  | number bits => exact plain
  | string s =>
      simp only [plainParam, Option.isNone_iff_eq_none] at plain
      split at plain
      next unread =>
        simp only [recorded, Host.number?, unread]
        exact plain
      · simp at plain
  | _ => simp [plainParam] at plain

theorem plain_number {bits : UInt64} (plain : plainParam host (.number bits) = some p) :
    p.typeCode = 'i' ∨ p.typeCode = 'f' := by
  obtain ⟨i, -, rfl⟩ := Option.map_eq_some_iff.mp plain
  split
  · exact .inl rfl
  · exact .inr rfl

theorem recorded_string (records : recorded host v = some p) (text : p.typeCode = 's') :
    ∃ s, v = .string s ∧ host.scan s = none ∧ p = .string (cString s) := by
  unfold recorded at records
  split at records
  · rcases plain_number records with type | type <;> simp [type] at text
  next s number => exact ⟨s, rfl, number, (Option.some.inj records).symm⟩
  · simp at records

theorem recorded_scalar (records : recorded host v = some p) (scalar : p.typeCode ≠ 's') :
    p.typeCode = 'i' ∨ p.typeCode = 'f' := by
  unfold recorded at records
  split at records
  · exact plain_number records
  · exact absurd (congrArg typeCode (Option.some.inj records).symm) scalar
  · simp at records

theorem records_at {f : Value → Option Param} (records : front.map f = ps.map some) {k : Nat}
    (found : front[k]? = some v) : ∃ h : k < ps.length, f v = some ps[k] := by
  have cell := congrArg (·[k]?) records
  simp only [List.getElem?_map, found, Option.map_some] at cell
  obtain ⟨q, stored, value⟩ := Option.map_eq_some_iff.mp cell.symm
  obtain ⟨inside, rfl⟩ := List.getElem?_eq_some_iff.mp stored
  exact ⟨inside, value.symm⟩

theorem value_at {f : Value → Option Param} (records : front.map f = ps.map some) {k : Nat}
    (inside : k < ps.length) : ∃ v, front[k]? = some v ∧ f v = some ps[k] := by
  have length := congrArg List.length records
  rw [List.length_map, List.length_map] at length
  have found : front[k]? = some (getElem front k (length ▸ inside)) := List.getElem?_eq_getElem _
  obtain ⟨_, value⟩ := records_at records found
  exact ⟨_, found, value⟩

theorem filterMap_of_map {f : Value → Option Param} (records : front.map f = ps.map some) :
    front.filterMap f = ps := by
  have all : front.filterMap f = (front.map f).filterMap id := by
    rw [List.filterMap_map]
    rfl
  rw [all, records, List.filterMap_map]
  exact List.filterMap_some

theorem map_recorded (plain : front.map (plainParam host) = ps.map some) :
    front.map (recorded host) = ps.map some := by
  refine List.ext_getElem? fun k => ?_
  by_cases inside : k < ps.length
  · obtain ⟨v, found, value⟩ := value_at plain inside
    simp [found, recorded_of_plain value, inside]
  · have length := congrArg List.length plain
    rw [List.length_map, List.length_map] at length
    simp [inside, length]

theorem scalar_in_front (skipped : ∀ v ∈ others, ¬ Scalar v) {k : Nat}
    (found : (front ++ others)[k]? = some v) (scalar : Scalar v) : front[k]? = some v := by
  by_cases inside : k < front.length
  · rwa [List.getElem?_append_left inside] at found
  · rw [List.getElem?_append_right (Nat.not_lt.mp inside)] at found
    exact absurd scalar (skipped v (List.mem_of_getElem? found))

theorem foldlM_split (skipped : ∀ v ∈ others, ¬ Scalar v)
    (records : front.map (recorded host) = ps.map some) :
    (front ++ others).foldlM (getParam host) .initialized =
      definedOr (runSteps addStep initialized ps) := by
  rw [List.foldlM_append, foldlM_recorded records]
  cases runSteps addStep initialized ps with
  | none => rfl
  | some m => exact foldlM_others skipped

theorem recorded_nulFrees (records : front.map (recorded host) = ps.map some) :
    ∀ p ∈ ps, p.NulFree := by
  intro p member
  obtain ⟨k, inside, rfl⟩ := List.mem_iff_getElem.mp member
  obtain ⟨v, -, value⟩ := value_at records inside
  exact recorded_nulFree value

theorem getParamType_mod (m : Message) (k : Nat) : m.getParamType (k % 256) = m.getParamType k := by
  simp only [getParamType, paramByte_mod]

theorem getString_mod (m : Message) (k : Nat) : m.getString (k % 256) = m.getString k := by
  simp only [getString, paramByte_mod]

theorem type_at (layout : Layout m ps) (nonempty : ∀ p ∈ ps, p ≠ .string []) {k : Nat}
    (inside : k < ps.length) : m.getParamType k =
      .ok (getElem ps (k % 256) ((Nat.mod_le k 256).trans_lt inside)).typeCode := by
  have first := (Nat.mod_le k 256).trans_lt inside
  rw [← getParamType_mod]
  exact getParamType_layout layout (Nat.mod_lt _ (by decide)) first
    (chunkCount_pos (nonempty _ (List.getElem_mem first)))

theorem scalar_again (plain : front.map (plainParam host) = ps.map some) (readable : Readable ps)
    {k : Nat} (inside : k < ps.length)
    (numeric : (ps[k]).typeCode = 'i' ∨ (ps[k]).typeCode = 'f') :
    (ps[k % 256]).typeCode = 'i' ∨ (ps[k % 256]).typeCode = 'f' := by
  rcases readable.again k inside with same | ⟨scalar, -⟩
  · rwa [same]
  · obtain ⟨u, -, value⟩ := value_at (map_recorded plain) ((Nat.mod_le k 256).trans_lt inside)
    exact recorded_scalar value scalar

theorem string_arrives (layout : Layout m ps) (readable : Readable ps) {k : Nat}
    (inside : k < ps.length) {s : List UInt8} (text : ps[k] = .string s)
    (free : CString.NulFree s) : m.getParamType k = .ok 's' ∧ m.getString k = .ok s := by
  have first := (Nat.mod_le k 256).trans_lt inside
  have same : ps[k % 256] = .string s := by
    rcases readable.again k inside with same | ⟨-, scalar⟩
    · exact same.trans text
    · exact absurd (text ▸ rfl) scalar
  have nonempty := readable.inOrder.nonempty
  refine ⟨by rw [type_at layout nonempty inside, same]; rfl, ?_⟩
  rw [← getString_mod]
  refine (getString_exact layout (Nat.mod_lt _ (by decide)) first same free ?_ nonempty).mpr
    (fun again => readable.parted _ (Nat.mod_lt _ (by decide)) again _ _)
  exact fun empty => nonempty _ (List.getElem_mem first) (by rw [same, empty])

theorem carried_of_plain (plain : Plain host values) :
    ∃ m, values.foldlM (getParam host) .initialized = .ok m ∧ Carried host values m := by
  obtain ⟨front, others, ps, rfl, skipped, plain, readable⟩ := plain
  have records := map_recorded plain
  have nulFree := recorded_nulFrees records
  obtain ⟨m, reached, layout⟩ := layout_of_inOrder startChunkNum_pos nulFree readable.inOrder
  have returned : (front ++ others).foldlM (getParam host) .initialized = .ok m := by
    rw [foldlM_split skipped records, initialized, reached]
    rfl
  refine ⟨m, returned, fun k bits found => ?_, fun k s found free => ?_,
    fun k v found scalar => ?_⟩
  · obtain ⟨inside, value⟩ := records_at plain (scalar_in_front skipped found trivial)
    rw [type_at layout readable.inOrder.nonempty inside]
    rcases scalar_again plain readable inside (plain_number value) with type | type <;> simp [type]
  · obtain ⟨inside, value⟩ := records_at plain (scalar_in_front skipped found trivial)
    have text : ps[k] = .string (cString s) := by
      simp only [plainParam, Option.isNone_iff_eq_none] at value
      split at value
      · exact (Option.some.inj value).symm
      · simp at value
    rw [cString_of_nulFree free] at text
    exact string_arrives layout readable inside text free
  · obtain ⟨inside, -⟩ := records_at plain (scalar_in_front skipped found scalar)
    have split := returned
    rw [← List.take_append_drop k (front ++ others), List.foldlM_append] at split
    obtain ⟨m', prefixMade, -⟩ := bind_eq_ok.mp split
    refine ⟨m', prefixMade, ?_⟩
    have length := congrArg List.length plain
    rw [List.length_map, List.length_map] at length
    rw [made_count prefixMade, List.take_append_of_le_length (by omega)]
    have taken := congrArg (List.take k) records
    rw [← List.map_take, ← List.map_take] at taken
    rw [filterMap_of_map taken, List.length_take, Nat.min_eq_left inside.le]

structure Arrived (host : Host) (front : List Value) (ps : List Param) (m : Message) : Prop where
  records : front.map (recorded host) = ps.map some
  reached : runSteps addStep initialized ps = some m
  free : ∀ s, .string s ∈ front → CString.NulFree s
  numbers : ∀ k bits, front[k]? = some (.number bits) →
    m.getParamType k = .ok 'i' ∨ m.getParamType k = .ok 'f'
  strings : ∀ k s, front[k]? = some (.string s) →
    m.getParamType k = .ok 's' ∧ m.getString k = .ok s

namespace Arrived

variable (h : Arrived host front ps m)
include h

theorem string_plain {k : Nat} {s : List UInt8} (found : front[k]? = some (.string s)) :
    host.scan s = none ∧ s ≠ [] := by
  obtain ⟨type, read⟩ := h.strings k s found
  obtain ⟨item, member, number, text⟩ := mem_of_getParamType type (by decide)
  obtain ⟨j, inside, same, typed, filled⟩ :=
    runSteps_mem startChunkNum_pos (recorded_nulFrees h.records) h.reached member
  obtain ⟨v, found', value⟩ := value_at h.records inside
  obtain ⟨t, rfl, unread, stored⟩ := recorded_string value (typed.trans text)
  have read' := (h.strings j t found').2
  have numbers : paramByte j = paramByte k := same.trans number
  rw [getString, numbers, ← getString, read, Except.ok.injEq] at read'
  obtain rfl := read'
  refine ⟨unread, ?_⟩
  rintro rfl
  exact filled stored

theorem plain : front.map (plainParam host) = ps.map some := by
  rw [← h.records]
  refine List.map_congr_left fun v member => ?_
  obtain ⟨k, found⟩ := List.mem_iff_getElem?.mp member
  cases v with
  | string s =>
      have unread := (h.string_plain found).1
      simp [plainParam, recorded, Host.number?, unread]
  | _ => rfl

theorem nonempty : ∀ p ∈ ps, p ≠ .string [] := by
  rintro p member rfl
  obtain ⟨k, inside, stored⟩ := List.mem_iff_getElem.mp member
  obtain ⟨v, found, value⟩ := value_at h.records inside
  obtain ⟨s, rfl, -, text⟩ := recorded_string value (by rw [stored]; rfl)
  have whole := cString_of_nulFree (h.free s (List.mem_of_getElem? found))
  rw [stored, whole, Param.string.injEq] at text
  exact (h.string_plain found).2 text.symm

theorem layout : InOrder ps ∧ Layout m ps := by
  have nulFree := recorded_nulFrees h.records
  by_cases scalars : ∀ p ∈ ps, p.typeCode ≠ 's'
  · have order := inOrder_of_scalars scalars
    obtain ⟨m', reached, layout⟩ := layout_of_inOrder startChunkNum_pos nulFree order
    obtain rfl := Option.some.inj (h.reached.symm.trans reached)
    exact ⟨order, layout⟩
  · obtain ⟨p, member, text⟩ : ∃ p ∈ ps, p.typeCode = 's' := by simpa using scalars
    obtain ⟨k, inside, rfl⟩ := List.mem_iff_getElem.mp member
    obtain ⟨v, found, value⟩ := value_at h.records inside
    obtain ⟨s, rfl, -, -⟩ := recorded_string value text
    exact layout_of_written startChunkNum_pos nulFree h.nonempty h.reached
      (written_of_getString (h.strings k s found).2)

theorem text_at {k : Nat} (inside : k < ps.length) {t : List UInt8} (text : ps[k] = .string t) :
    front[k]? = some (.string t) := by
  obtain ⟨v, found, value⟩ := value_at h.records inside
  obtain ⟨s, rfl, -, stored⟩ := recorded_string value (by rw [text]; rfl)
  have whole := cString_of_nulFree (h.free s (List.mem_of_getElem? found))
  rw [text, whole, Param.string.injEq] at stored
  rw [found, stored]

theorem readable : Readable ps := by
  obtain ⟨order, layout⟩ := h.layout
  refine ⟨order, fun k low again _ _ => ?_, fun k inside => ?_⟩
  · cases text : ps[k] with
    | string s =>
        have found := h.text_at (by omega) text
        have free := h.free s (List.mem_of_getElem? found)
        rw [← text]
        exact (getString_exact layout low (by omega) text free (h.string_plain found).2
          order.nonempty).mp (h.strings k s found).2 again
    | _ => trivial
  · have first := (Nat.mod_le k 256).trans_lt inside
    have type := type_at layout order.nonempty inside
    obtain ⟨v, found, value⟩ := value_at h.records inside
    by_cases text : (ps[k]).typeCode = 's'
    · obtain ⟨s, rfl, -, stored⟩ := recorded_string value text
      rw [cString_of_nulFree (h.free s (List.mem_of_getElem? found))] at stored
      obtain ⟨typed, read⟩ := h.strings k s found
      rw [type, Except.ok.injEq] at typed
      cases other : ps[k % 256] with
      | string t =>
          have read' := (h.strings _ t (h.text_at first other)).2
          rw [getString_mod, read, Except.ok.injEq] at read'
          exact .inl (stored.trans (congrArg Param.string read')).symm
      | _ => simp [other, typeCode] at typed
    · refine .inr ⟨fun typed => ?_, text⟩
      rw [typed] at type
      cases v with
      | number bits =>
          rcases h.numbers k bits found with numeric | numeric <;> simp [type] at numeric
      | string s =>
          have unread := (h.string_plain found).1
          simp only [recorded, Host.number?, unread, Option.some.injEq] at value
          exact text (value ▸ rfl)
      | _ => simp [recorded, Host.number?] at value

end Arrived

theorem plain_of_carried (free : ∀ s, .string s ∈ values → CString.NulFree s)
    (returned : values.foldlM (getParam host) .initialized = .ok m)
    (carried : Carried host values m) : Plain host values := by
  obtain ⟨front, others, ps, rfl, skipped, records⟩ :=
    split_of_unshifted returned carried.unshifted
  rw [foldlM_split skipped records, definedOr_eq_ok] at returned
  have inside : ∀ {k u}, front[k]? = some u → (front ++ others)[k]? = some u := fun found =>
    (List.getElem?_append_left (List.getElem?_eq_some_iff.mp found).1).trans found
  have arrived : Arrived host front ps m := by
    refine ⟨records, returned, fun s member => free s (List.mem_append_left _ member),
      fun k bits found => carried.numbers k bits (inside found), fun k s found => ?_⟩
    exact carried.strings k s (inside found)
      (free s (List.mem_append_left _ (List.mem_of_getElem? found)))
  exact ⟨front, others, ps, rfl, skipped, arrived.plain, arrived.readable⟩

end plain

/-- For any values: plain ones arrive in both messages, which are the same; and when no string
has a NUL, only plain ones do. -/
theorem carried_iff (host : Host) (w : World) (cls : Value) (below : List Value)
    (removeFromStack : Bool) (values : List Value) :
    (Plain host values →
      ∃ m, Built host w cls below removeFromStack values m ∧ Carried host values m) ∧
    ((∀ s, .string s ∈ values → CString.NulFree s) →
      ((∃ m, Built host w cls below removeFromStack values m ∧ Carried host values m) ↔
        Plain host values)) := by
  have sufficient : Plain host values →
      ∃ m, Built host w cls below removeFromStack values m ∧ Carried host values m := by
    intro plain
    obtain ⟨m, returned, carried⟩ := carried_of_plain plain
    exact ⟨m, built_iff.mpr returned, carried⟩
  refine ⟨sufficient, fun free => ⟨?_, sufficient⟩⟩
  rintro ⟨m, built, carried⟩
  exact plain_of_carried free (built_iff.mp built) carried

/-- A host whose only string that is a number is "7". -/
def plainHost : Host where
  call _ _ := pure (.ok .nil)
  scan s := if s = chars "7" then some 0x401C000000000000 else none
  print _ := []
  toInteger _ := 0
  toFloat := Binary32.ofDouble

def emptyWorld : World := ⟨Engine.start [] [], .empty⟩

/-- A name, the number 7, the number 0.5 and a nil. -/
theorem carried_named : ∃ m, Built plainHost emptyWorld .nil [.nil] true
    [.string (chars "Bob"), .number 0x401C000000000000, .number 0x3FE0000000000000, .nil] m ∧
      Carried plainHost
        [.string (chars "Bob"), .number 0x401C000000000000, .number 0x3FE0000000000000, .nil] m :=
  ((carried_iff plainHost emptyWorld .nil [.nil] true _).2 (by
    simp only [List.mem_cons, List.not_mem_nil, or_false, reduceCtorEq, Value.string.injEq,
      forall_eq]
    decide)).mpr
    ⟨[.string (chars "Bob"), .number 0x401C000000000000, .number 0x3FE0000000000000], [.nil],
      [.string (chars "Bob"), .int 7, .float ⟨0x3F000000⟩], rfl, by simp [Scalar], by decide,
      by decide, fun k _ again _ _ => absurd again (by simp), by decide⟩

/-- The string "7" arrives as a number, and a nil moves what follows it up. -/
theorem not_carried :
    (¬ ∃ m, Built plainHost emptyWorld .nil [.nil] true [.string (chars "7")] m ∧
      Carried plainHost [.string (chars "7")] m) ∧
    ¬ ∃ m, Built plainHost emptyWorld .nil [.nil] true [.nil, .number 0x401C000000000000] m ∧
      Carried plainHost [.nil, .number 0x401C000000000000] m := by
  constructor
  · rintro ⟨m, built, carried⟩
    obtain rfl := Except.ok.inj (built_iff.mp built)
    exact absurd (carried.strings 0 (chars "7") rfl (by decide)).1 (by decide)
  · rintro ⟨m, built, carried⟩
    obtain rfl := Except.ok.inj (built_iff.mp built)
    exact absurd (carried.numbers 1 _ rfl) (by decide)

end Marshalling

end Ssuge

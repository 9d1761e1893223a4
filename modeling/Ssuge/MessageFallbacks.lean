import Ssuge.MessageNumbers

/-! What the four getters do with a parameter of another type. `getInt` and `getFloat`
convert into each other and throw on strings and objects, where their header
promises zero. `getGameObject` and `getString` look at no type: they take the
bytes as they are, and give their fallback only where these happen to be zero. -/

namespace Ssuge

open CString

inductive Getter
  | int
  | float
  | gameObject
  | string
deriving DecidableEq, Repr

namespace Getter

def get (m : Message) (k : Nat) : Getter → Eval Param
  | int => .int <$> m.getInt k
  | float => .float <$> m.getFloat k
  | gameObject => .gameObject <$> m.getGameObject k
  | string => .string <$> m.getString k

/-- What the header names for a parameter that cannot be converted. -/
def fallback : Getter → Param
  | int => .int 0
  | float => .float ⟨0⟩
  | gameObject => .gameObject 0
  | string => .string []

def promised : Getter → Param → Param
  | int, .int i => .int i
  | int, .float f => .int (f.toInt.getD 0)
  | float, .float f => .float f
  | float, .int i => .float (.ofInt i)
  | gameObject, .gameObject g => .gameObject g
  | string, .string s => .string s
  | getter, _ => getter.fallback

/-- The parameter is of a type that the getter handles, or its bytes are those of the
fallback. -/
def Handles : Getter → Param → Prop
  | _, .string [] => True
  | int, .int _ => True
  | int, .float f => f.toInt.isSome
  | float, .int _ => True
  | float, .float _ => True
  | gameObject, .gameObject _ => True
  | gameObject, .int i => i = 0
  | gameObject, .float f => f = ⟨0⟩
  | string, .string _ => True
  | string, p => p.firstByte = some 0
  | _, _ => False

instance : (getter : Getter) → (p : Param) → Decidable (getter.Handles p) := by
  intro getter p
  unfold Handles
  split <;> infer_instance

end Getter

namespace Message

open RecordedRun Param GuardedRun

/-- The answer that the header promises for a number: that for the parameter with it, or
the fallback. -/
def Meets (m : Message) (ps : List Param) (k : Nat) (getter : Getter) : Prop :=
  getter.get m k = .ok ((ps[k]?.map getter.promised).getD getter.fallback)

instance (m : Message) (ps : List Param) (k : Nat) (getter : Getter) :
    Decidable (m.Meets ps k getter) := inferInstanceAs (Decidable (_ = _))

section single

variable {m : Message} {ps : List Param} {k : Nat}

theorem get_ok {α : Type} {x : Eval α} {f : α → Param} (injective : ∀ a b, f a = f b → a = b)
    (a : α) : f <$> x = .ok (f a) ↔ x = .ok a := by
  cases x with
  | error fault => exact ⟨nofun, nofun⟩
  | ok b =>
      constructor
      · exact fun same => congrArg _ (injective b a (Except.ok.inj same))
      · rintro ⟨⟩
        rfl

theorem get_of_no_chunk {items : List DataItem} (cells : m.chunks = items.map some)
    (others : ∀ item ∈ items, item.mParamNum ≠ paramByte k) (getter : Getter) :
    getter.get m k = .ok getter.fallback := by
  have none_found : lookup (paramByte k) m.chunks = .ok none := by
    rw [cells, ← List.append_nil (items.map some), lookup_skip others]
    rfl
  have absent := absent_of_lookup none_found
  cases getter with
  | int => exact (get_ok (fun a b => Param.int.inj) 0).mpr absent.int
  | float => exact (get_ok (fun a b => Param.float.inj) ⟨0⟩).mpr absent.float
  | gameObject => exact (get_ok (fun a b => Param.gameObject.inj) 0).mpr absent.gameObject
  | string =>
      refine (get_ok (fun a b => Param.string.inj) []).mpr ?_
      obtain ⟨start, counted⟩ := stringExtent_count (paramByte k) 0 items
      rw [getString, cells, counted, tally_zero others]
      rfl

theorem toUInt32_zero {w : Word} (zero : w.toUInt32 = some 0) : w.b0 = some 0 := by
  obtain ⟨b0, first, rest⟩ := Option.bind_eq_some_iff.mp zero
  obtain ⟨b1, -, rest⟩ := Option.bind_eq_some_iff.mp rest
  obtain ⟨b2, -, rest⟩ := Option.bind_eq_some_iff.mp rest
  obtain ⟨b3, -, value⟩ := Option.bind_eq_some_iff.mp rest
  have bounds := And.intro b0.toNat_lt (And.intro b1.toNat_lt (And.intro b2.toNat_lt b3.toNat_lt))
  have number := congrArg UInt32.toNat (Option.some.inj value)
  simp only [UInt32.toNat_ofNat', UInt32.toNat_zero] at number
  rw [first]
  congr 1
  apply UInt8.toNat_inj.mp
  simp only [UInt8.toNat_zero]
  omega

theorem firstByte_string {s : List UInt8} (nulFree : CString.NulFree s) (nonempty : s ≠ []) :
    ∃ c, c ≠ 0 ∧ (Param.string s).firstByte = some c := by
  obtain ⟨c, rest, rfl⟩ := List.exists_cons_of_ne_nil nonempty
  refine ⟨c, fun zero => nulFree (by simp [zero]), ?_⟩
  rcases rest with _ | ⟨c1, _ | ⟨c2, _ | ⟨c3, rest⟩⟩⟩ <;> rfl

section found

variable {item : DataItem} (found : lookup (paramByte k) m.chunks = .ok (some item))
include found

theorem getInt_refused (type : item.mType = 'g' ∨ item.mType = 's') (i : Int32) :
    m.getInt k ≠ .ok i := by
  have refused : m.getInt k =
      .error (.thrown "Message Parameter can't be converted to an int") := by
    rcases type with type | type <;> simp [getInt, found, bind, Except.bind, type] <;> rfl
  simp [refused]

theorem getFloat_refused (type : item.mType = 'g' ∨ item.mType = 's') (f : Binary32) :
    m.getFloat k ≠ .ok f := by
  have refused : m.getFloat k =
      .error (.thrown "Message parameter can't be converted to float") := by
    rcases type with type | type <;> simp [getFloat, found, bind, Except.bind, type] <;> rfl
  simp [refused]

theorem getGameObject_found : m.getGameObject k = definedOr item.mData.toUInt32 := by
  simp [getGameObject, found, bind, Except.bind]

end found

section layout

variable (h : Layout m ps) (low : k < 256) (length : k < ps.length)
include h low length

theorem getString_scalar (alone : ∀ item ∈ encodeAll (k + 1) (ps.drop (k + 1)),
    item.mParamNum ≠ paramByte k) {item : DataItem} (block : (ps[k]).encode k = [item]) :
    m.getString k = .ok [] ↔ item.mData.b0 = some 0 := by
  have stored : 0 < (ps[k]).chunkCount := by
    rw [← encode_length k, block]
    exact Nat.one_pos
  have copied := prefixCells_layout h length (Nat.zero_le _)
  rw [block] at copied
  have read : m.getString k = definedOr (readCString (item.mData.bytes ++ [some 0])) := by
    simp only [getString, stringExtent_layout h low length stored, tally_zero alone, block, bind,
      Except.bind, Option.getD_some, copied, List.take_zero, List.append_nil]
    rfl
  rw [read, definedOr_eq_ok]
  exact readCString_cons_nil

variable (alone : ∀ item ∈ encodeAll (k + 1) (ps.drop (k + 1)), item.mParamNum ≠ paramByte k)
include alone

theorem get_int_iff {i : Int32} (isInt : ps[k] = .int i) (getter : Getter) :
    getter.get m k = .ok (getter.promised (.int i)) ↔ getter.Handles (.int i) := by
  have block : (ps[k]).encode k = [⟨'i', .ofUInt32 i.toUInt32, paramByte k⟩] := by
    rw [isInt, encode]
  have found := lookup_layout h low length block
  cases getter with
  | int =>
      have read : m.getInt k = .ok i := by
        simp [getInt, found, bind, Except.bind, definedOr, pure, Except.pure]
      exact iff_of_true ((get_ok (fun a b => Param.int.inj) i).mpr read) trivial
  | float =>
      have read : m.getFloat k = .ok (.ofInt i) := by
        simp [getFloat, found, bind, Except.bind, definedOr, pure, Except.pure]
      exact iff_of_true ((get_ok (fun a b => Param.float.inj) _).mpr read) trivial
  | gameObject =>
      have read : m.getGameObject k = .ok i.toUInt32 := by
        simp [getGameObject_found found, definedOr]
      refine (get_ok (fun a b => Param.gameObject.inj) 0).trans ?_
      rw [read, Except.ok.injEq]
      exact ⟨fun zero => congrArg UInt32.toInt32 zero, fun zero => congrArg Int32.toUInt32 zero⟩
  | string =>
      refine (get_ok (fun a b => Param.string.inj) []).trans ?_
      exact (getString_scalar h low length alone block).trans Iff.rfl

theorem get_float_iff {f : Binary32} (isFloat : ps[k] = .float f) (getter : Getter) :
    getter.get m k = .ok (getter.promised (.float f)) ↔ getter.Handles (.float f) := by
  have block : (ps[k]).encode k = [⟨'f', .ofUInt32 f.bits, paramByte k⟩] := by
    rw [isFloat, encode]
  have found := lookup_layout h low length block
  cases getter with
  | int =>
      have read : m.getInt k = definedOr f.toInt := by
        simp [getInt, found, bind, Except.bind, definedOr]
      refine (get_ok (fun a b => Param.int.inj) _).trans ?_
      rw [read, definedOr_eq_ok]
      change _ ↔ f.toInt.isSome
      cases f.toInt <;> simp
  | float =>
      have read : m.getFloat k = .ok f := by
        simp [getFloat, found, bind, Except.bind, definedOr, pure, Except.pure]
      exact iff_of_true ((get_ok (fun a b => Param.float.inj) f).mpr read) trivial
  | gameObject =>
      have read : m.getGameObject k = .ok f.bits := by
        simp [getGameObject_found found, definedOr]
      refine (get_ok (fun a b => Param.gameObject.inj) 0).trans ?_
      rw [read, Except.ok.injEq]
      exact ⟨fun zero => congrArg Binary32.mk zero, fun zero => congrArg Binary32.bits zero⟩
  | string =>
      refine (get_ok (fun a b => Param.string.inj) []).trans ?_
      exact (getString_scalar h low length alone block).trans Iff.rfl

theorem get_gameObject_iff {g : Ptr} (isObject : ps[k] = .gameObject g) (getter : Getter) :
    getter.get m k = .ok (getter.promised (.gameObject g)) ↔ getter.Handles (.gameObject g) := by
  have block : (ps[k]).encode k = [⟨'g', .ofUInt32 g, paramByte k⟩] := by
    rw [isObject, encode]
  have found := lookup_layout h low length block
  cases getter with
  | int =>
      refine (get_ok (fun a b => Param.int.inj) _).trans ?_
      exact iff_of_false (getInt_refused found (.inl rfl) _) id
  | float =>
      refine (get_ok (fun a b => Param.float.inj) _).trans ?_
      exact iff_of_false (getFloat_refused found (.inl rfl) _) id
  | gameObject =>
      have read : m.getGameObject k = .ok g := by
        simp [getGameObject_found found, definedOr]
      exact iff_of_true ((get_ok (fun a b => Param.gameObject.inj) g).mpr read) trivial
  | string =>
      refine (get_ok (fun a b => Param.string.inj) []).trans ?_
      exact (getString_scalar h low length alone block).trans Iff.rfl

theorem get_string_iff {s : List UInt8} (isString : ps[k] = .string s)
    (nulFree : CString.NulFree s) (nonempty : s ≠ []) (getter : Getter) :
    getter.get m k = .ok (getter.promised (.string s)) ↔ getter.Handles (.string s) := by
  obtain ⟨c, nonzero, first⟩ := firstByte_string nulFree nonempty
  obtain ⟨item, items, block⟩ := List.exists_cons_of_length_pos (l := (ps[k]).encode k) (by
    rw [encode_length]
    exact chunkCount_pos (by simp [isString, nonempty]))
  have found := lookup_layout h low length block
  have type : item.mType = 's' := by
    have member : item ∈ (ps[k]).encode k := by simp [block]
    rw [(encode_mem member).1, isString, typeCode]
  have unhandled : ∀ getter ≠ Getter.string, ¬ getter.Handles (.string s) := by
    obtain ⟨c', s', rfl⟩ := List.exists_cons_of_ne_nil nonempty
    intro getter other
    cases getter with
    | string => exact absurd rfl other
    | _ => exact id
  cases getter with
  | int =>
      refine (get_ok (fun a b => Param.int.inj) _).trans ?_
      exact iff_of_false (getInt_refused found (.inr type) _) (unhandled .int (by decide))
  | float =>
      refine (get_ok (fun a b => Param.float.inj) _).trans ?_
      exact iff_of_false (getFloat_refused found (.inr type) _) (unhandled .float (by decide))
  | gameObject =>
      have characters : item.mData.b0 = some c := by
        rw [isString] at block
        rw [firstByte_eq _ k, block] at first
        exact first
      refine (get_ok (fun a b => Param.gameObject.inj) _).trans ?_
      refine iff_of_false (fun zero => ?_) (unhandled .gameObject (by decide))
      rw [getGameObject_found found, definedOr_eq_ok] at zero
      exact nonzero (Option.some.inj (characters.symm.trans (toUInt32_zero zero)))
  | string =>
      have read : m.getString k = .ok s := by
        have ends : spill ps k = [] := by
          rw [spill, tally_zero alone]
          rfl
        rw [getString_layout h low length isString nulFree nonempty, ends]
        simp [readCString, definedOr]
      have handled : Getter.string.Handles (.string s) := by
        obtain ⟨c', s', rfl⟩ := List.exists_cons_of_ne_nil nonempty
        trivial
      exact iff_of_true ((get_ok (fun a b => Param.string.inj) s).mpr read) handled

end layout

section own

variable (own : ∀ j < ps.length, j % 256 = k % 256 → j = k)
include own

theorem mem_encode_of_number {item : DataItem} (member : item ∈ encodeAll 0 ps)
    (number : item.mParamNum = paramByte k) :
    ∃ _ : k < ps.length, item ∈ (ps[k]).encode k := by
  obtain ⟨j, hj, inside⟩ := mem_encodeAll member
  rw [Nat.zero_add] at inside
  rw [(encode_mem inside).2, paramByte_eq_iff] at number
  obtain rfl := own j hj number
  exact ⟨hj, inside⟩

theorem number_ne_after (item : DataItem) (member : item ∈ encodeAll (k + 1) (ps.drop (k + 1))) :
    item.mParamNum ≠ paramByte k := by
  obtain ⟨j, hj, inside⟩ := mem_encodeAll member
  rw [List.length_drop] at hj
  rw [(encode_mem inside).2, ne_eq, paramByte_eq_iff]
  intro same
  have := own (k + 1 + j) (by omega) same
  omega

end own

theorem meets_layout (h : Layout m ps) (nulFree : ∀ p ∈ ps, p.NulFree)
    (own : ∀ j < ps.length, j % 256 = k % 256 → j = k) (getter : Getter) :
    m.Meets ps k getter ↔ ∀ p, ps[k]? = some p → getter.Handles p := by
  rw [Meets]
  by_cases length : k < ps.length
  · have low : k < 256 := by
      by_contra high
      have := own (k % 256) (by omega) (Nat.mod_mod k 256)
      omega
    have alone := number_ne_after own
    simp only [List.getElem?_eq_getElem length, Option.map_some, Option.getD_some,
      Option.some.injEq, forall_eq']
    cases stored : ps[k] with
    | int i => exact get_int_iff h low length alone stored getter
    | float f => exact get_float_iff h low length alone stored getter
    | gameObject g => exact get_gameObject_iff h low length alone stored getter
    | string s =>
        have free : CString.NulFree s := by
          have := nulFree ps[k] (List.getElem_mem length)
          rwa [stored] at this
        by_cases empty : s = []
        · subst empty
          have promised : getter.promised (.string []) = getter.fallback := by cases getter <;> rfl
          have handled : getter.Handles (.string []) := by cases getter <;> trivial
          rw [promised]
          refine iff_of_true (get_of_no_chunk h.chunks_eq (fun item member number => ?_) getter)
            handled
          obtain ⟨_, inside⟩ := mem_encode_of_number own member number
          rw [stored] at inside
          simp [encode, words] at inside
        · exact get_string_iff h low length alone stored free empty getter
  · have none_there : ps[k]? = none := List.getElem?_eq_none (Nat.not_lt.mp length)
    simp only [none_there, Option.map_none, Option.getD_none]
    refine iff_of_true (get_of_no_chunk h.chunks_eq (fun item member number => ?_) getter) ?_
    · exact length (mem_encode_of_number own member number).1
    · exact fun p there => absurd there (by simp)

end single

theorem layout_of_placed {m : Message} {ps : List Param} (h : Layout m ps) {qs : List Param}
    (nulFree : ∀ q ∈ qs, q.NulFree) (placed : Along addStep InPlace m qs) :
    ∃ m', runSteps addStep m qs = some m' ∧ Layout m' (ps ++ qs) := by
  induction qs generalizing m ps with
  | nil => exact ⟨m, rfl, by rwa [List.append_nil]⟩
  | cons q qs ih =>
      obtain ⟨m₁, returned, layout⟩ := add_layout h (nulFree q (by simp)) placed.1
      obtain ⟨m', run, layout'⟩ := ih layout (fun p member => nulFree p (by simp [member]))
        (placed.2 m₁ returned)
      rw [List.append_assoc, List.singleton_append] at layout'
      exact ⟨m', by rw [runSteps, addStep, returned, Option.bind_some, run], layout'⟩

theorem empty_of_no_capacity {m m' : Message} {ps : List Param} (empty : m.mMaxChunks = 0)
    (none_yet : m.mNumChunks = 0) (nulFree : ∀ p ∈ ps, p.NulFree)
    (reached : runSteps addStep m ps = some m') :
    m'.mNumChunks = 0 ∧ ∀ p ∈ ps, p = .string [] := by
  induction ps generalizing m with
  | nil =>
      obtain rfl := Option.some.inj reached
      exact ⟨none_yet, by simp⟩
  | cons p ps ih =>
      obtain ⟨m₁, returned, later⟩ := Option.bind_eq_some_iff.mp reached
      obtain ⟨chunks, fits, same | ⟨capacity, -⟩⟩ := add_counts (nulFree p (by simp)) returned
      · have first : p = .string [] := by
          by_contra stored
          have := chunkCount_pos stored
          omega
        obtain ⟨final, rest⟩ := ih (same.trans empty) (by omega)
          (fun q member => nulFree q (by simp [member])) later
        exact ⟨final, by simpa [first] using rest⟩
      · omega

/-- After adds in place, the answers for a number that no other parameter shares are those
that the header promises exactly from the getters that handle its parameter. -/
theorem meets_iff {numChunks : Nat} {ps : List Param} {m : Message} {k : Nat}
    (nulFree : ∀ p ∈ ps, p.NulFree) (added : ((ofSize numChunks).addAll ps).value = some m)
    (placed : Along addStep InPlace (ofSize numChunks) ps)
    (own : ∀ j < ps.length, j % 256 = k % 256 → j = k) (getter : Getter) :
    m.Meets ps k getter ↔ ∀ p, ps[k]? = some p → getter.Handles p := by
  rw [addAll_value] at added
  rcases Nat.eq_zero_or_pos numChunks with rfl | positive
  · obtain ⟨no_chunks, strings⟩ := empty_of_no_capacity rfl rfl nulFree added
    have cells : m.chunks = ([] : List DataItem).map some := by
      rw [chunks, no_chunks]
      rfl
    have answer : getter.get m k = .ok getter.fallback := get_of_no_chunk cells (by simp) getter
    have promised : (ps[k]?.map getter.promised).getD getter.fallback = getter.fallback := by
      cases wanted : ps[k]? with
      | none => rfl
      | some p =>
          obtain rfl := strings p (List.mem_of_getElem? wanted)
          cases getter <;> rfl
    refine iff_of_true (by rw [Meets, promised, answer]) fun p wanted => ?_
    obtain rfl := strings p (List.mem_of_getElem? wanted)
    cases getter <;> trivial
  · obtain ⟨m', reached, layout⟩ :=
      layout_of_placed (layout_ofSize numChunks positive) nulFree placed
    obtain rfl := Option.some.inj (added.symm.trans reached)
    rw [List.nil_append] at layout
    exact meets_layout layout nulFree own getter

/-- A number is also answered for as a float. -/
theorem meets_number : ∃ m, ((ofSize 3).addAll [.string (chars "door"), .int 7]).value = some m ∧
    m.Meets [.string (chars "door"), .int 7] 1 .float := by
  have added : ∃ m, ((ofSize 3).addAll [.string (chars "door"), .int 7]).value = some m := by
    refine ⟨_, rfl⟩
  obtain ⟨m, returned⟩ := added
  refine ⟨m, returned, (meets_iff (by decide) returned (by decide) (by decide) .float).mpr ?_⟩
  rintro p ⟨⟩
  trivial

def mixed : Message where
  mParams := [some ⟨'i', .ofUInt32 7, 0⟩, some ⟨'g', .ofUInt32 0x1000, 1⟩, none]
  mNumParam := 2
  mNumChunks := 2

/-- The integer is taken for the address of an object, and asking for the object's integer
throws. -/
theorem not_meets_mixed :
    ((ofSize 3).addAll [.int 7, .gameObject 0x1000]).value = some mixed ∧
      ¬ mixed.Meets [.int 7, .gameObject 0x1000] 0 .gameObject ∧
      ¬ mixed.Meets [.int 7, .gameObject 0x1000] 1 .int :=
  ⟨rfl, by decide, by decide⟩

end Message

end Ssuge

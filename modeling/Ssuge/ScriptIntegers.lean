import Ssuge.LuaArguments
import Ssuge.ObjectArrival
import Ssuge.Rounding

/-! Integers on their way through Lua. A number of Lua is narrowed to a single-precision
number before it becomes an integer parameter, so what arrives is the integer rounded to 24
binary digits, if that is an `int` still. -/

namespace Ssuge

open CString Procedure Lua Ssuge.Frame RecordedRun GuardedRun Rounding Message Param

/-- The double with this pattern is equal to the integer. Two patterns are equal to zero. -/
structure EqualsInt (bits : UInt64) (z : Int) : Prop where
  value : Stands 52 1075 (bits.toNat % 2 ^ 63) z.natAbs
  negative : z < 0 → 2 ^ 63 ≤ bits.toNat
  positive : 0 < z → bits.toNat < 2 ^ 63

namespace Binary32

/-- The integer with the leading 24 digits. -/
def rounded (z : Int) : Int := z.sign * roundTo 24 z.natAbs

theorem roundShift_eq (s k : Nat) : roundShift s k = halfEven s k := rfl

theorem encodeNat_eq {n : Nat} (positive : 0 < n) : encodeNat n = (n.log2 + 126) * 2 ^ 23 +
    (if n.log2 ≤ 23 then n * 2 ^ (23 - n.log2) else halfEven n (n.log2 - 23)) := by
  rw [encodeNat, if_neg positive.ne']
  dsimp only
  split <;> rfl

theorem digits_bounds {n : Nat} (positive : 0 < n) :
    2 ^ 23 ≤ (if n.log2 ≤ 23 then n * 2 ^ (23 - n.log2) else halfEven n (n.log2 - 23)) ∧
      (if n.log2 ≤ 23 then n * 2 ^ (23 - n.log2) else halfEven n (n.log2 - 23)) ≤ 2 ^ 24 := by
  split
  next few => exact mul_pow_bounds positive.ne' few
  next many =>
    have cut : n.log2 - 23 = excess (23 + 1) n := by
      rw [excess]
      omega
    rw [cut]
    exact halfEven_excess_bounds (Nat.not_le.mp many)

theorem encodeNat_lt {n : Nat} (small : n < 2 ^ 32) : encodeNat n < 255 * 2 ^ 23 := by
  rcases Nat.eq_zero_or_pos n with rfl | positive
  · decide
  have digits := (digits_bounds positive).2
  have size : n.log2 < 32 := (Nat.log2_lt positive.ne').mpr small
  rw [encodeNat_eq positive]
  omega

theorem encodeNat_stands {n : Nat} : Stands 23 150 (encodeNat n) (roundTo 24 n) := by
  rcases Nat.eq_zero_or_pos n with rfl | positive
  · exact ⟨rfl, rfl⟩
  rw [encodeNat_eq positive]
  obtain ⟨lower, upper⟩ := digits_bounds positive
  refine stands_of_digits (e := n.log2 + 127) (Nat.succ_pos _) lower upper ?_
  split
  next few =>
    rw [roundTo_of_log2_lt (Nat.lt_succ_of_le few), show n.log2 + 127 - 150 = 0 by omega,
      show 150 - (n.log2 + 127) = 23 - n.log2 by omega, pow_zero, Nat.mul_one]
  next many =>
    rw [roundTo, show excess 24 n = n.log2 - 23 by rw [excess]; omega,
      show 150 - (n.log2 + 127) = 0 by omega, show n.log2 + 127 - 150 = n.log2 - 23 by omega,
      pow_zero, Nat.mul_one]

theorem magnitude_of_stands {x : Binary32} {n : Nat}
    (finite : x.bits.toNat % 2 ^ 31 < 255 * 2 ^ 23)
    (stands : Stands 23 150 (x.bits.toNat % 2 ^ 31) n) :
    x.magnitude = some n ∧ x.isInteger := by
  have exponent : x.bits.toNat % 2 ^ 31 / 2 ^ 23 = x.exponent := by
    rw [Binary32.exponent]
    omega
  have fraction : x.bits.toNat % 2 ^ 31 % 2 ^ 23 = x.fraction := by
    rw [Binary32.fraction]
    omega
  have bound : x.exponent ≠ 255 := by omega
  rw [Stands, exponent, fraction] at stands
  rw [magnitude, isInteger, if_neg bound]
  split at stands
  next zero =>
    obtain ⟨none, rfl⟩ := stands
    simp [zero, none]
  next nonzero =>
    rw [if_neg nonzero, if_neg nonzero, Nat.add_comm x.fraction]
    dsimp only
    rcases Nat.lt_or_ge x.exponent 150 with scaled | whole
    · rw [Nat.sub_eq_zero_of_le scaled.le, pow_zero, Nat.mul_one] at stands
      rw [if_neg (Nat.not_le.mpr scaled), stands, Nat.mul_div_cancel _ (Nat.two_pow_pos _),
        Nat.mul_mod_left]
      exact ⟨rfl, by simp⟩
    · rw [Nat.sub_eq_zero_of_le whole, pow_zero, Nat.mul_one] at stands
      rw [if_pos whole, stands]
      exact ⟨rfl, by simp [whole]⟩

theorem halfEven_double {n : Nat} (room : n.log2 ≤ 52) :
    halfEven (n * 2 ^ (52 - n.log2)) 29 =
      if n.log2 ≤ 23 then n * 2 ^ (23 - n.log2) else halfEven n (n.log2 - 23) := by
  split
  next few =>
    have split : 52 - n.log2 = 23 - n.log2 + 29 := by omega
    rw [split, pow_add, ← Nat.mul_assoc]
    exact (halfEven_mul_pow _ 29 0).trans (halfEven_zero _)
  next many =>
    have split : 29 = n.log2 - 23 + (52 - n.log2) := by omega
    rw [← halfEven_mul_pow n (52 - n.log2) (n.log2 - 23), ← split]

/-- Narrowed, a natural number is the one that an integer conversion makes. -/
theorem ofDouble_bits {bits : UInt64} {n : Nat}
    (stands : Stands 52 1075 (bits.toNat % 2 ^ 63) n) (small : n < 2 ^ 32) :
    (ofDouble bits).bits.toNat = bits.toNat / 2 ^ 63 * 2 ^ 31 + encodeNat n := by
  have exponent : bits.toNat / 2 ^ 52 % 2 ^ 11 = bits.toNat % 2 ^ 63 / 2 ^ 52 := by omega
  have fraction : bits.toNat % 2 ^ 52 = bits.toNat % 2 ^ 63 % 2 ^ 52 := by omega
  have sign : bits.toNat / 2 ^ 63 < 2 := by
    have := bits.toNat_lt
    omega
  have finite := encodeNat_lt small
  suffices narrowed : (ofDouble bits).bits =
      UInt32.ofNat (bits.toNat / 2 ^ 63 * 2 ^ 31 + encodeNat n) by
    rw [narrowed, UInt32.toNat_ofNat', Nat.mod_eq_of_lt (by omega)]
  rw [ofDouble, exponent, fraction]
  rcases Nat.eq_zero_or_pos n with rfl | positive
  · obtain ⟨zero, none⟩ := stands.zero
    rw [zero, none, if_neg (by decide), if_neg (by decide), if_pos rfl, roundShift_eq,
      zero_halfEven, encodeNat, if_pos rfl]
  · have size : n.log2 < 32 := (Nat.log2_lt positive.ne').mpr small
    obtain ⟨scale, digits⟩ := stands.fields positive.ne' (by omega) (by decide)
    have kept := encodeNat_eq positive
    rw [← halfEven_double (by omega)] at kept
    rw [scale, digits, if_neg (by omega), if_pos (by omega), roundShift_eq,
      show n.log2 + (1075 - 52) - 897 = n.log2 + 126 by omega, ← kept, Nat.min_eq_right finite.le]

theorem toInt_ofDouble {bits : UInt64} {z : Int} (equal : EqualsInt bits z)
    (small : z.natAbs < 2 ^ 32) :
    (ofDouble bits).isInteger ∧
      (ofDouble bits).toInt =
        if -2 ^ 31 ≤ rounded z ∧ rounded z < 2 ^ 31 then some (Int32.ofInt (rounded z))
        else none := by
  have pattern := ofDouble_bits equal.value small
  have finite := encodeNat_lt small
  have unsigned : (ofDouble bits).bits.toNat % 2 ^ 31 = encodeNat z.natAbs := by omega
  obtain ⟨magnitude, whole⟩ := magnitude_of_stands (x := ofDouble bits)
    (unsigned ▸ finite) (unsigned ▸ encodeNat_stands)
  have signed : (if (ofDouble bits).negative then -(roundTo 24 z.natAbs : Int)
      else roundTo 24 z.natAbs) = rounded z := by
    rw [rounded]
    rcases lt_trichotomy z 0 with below | rfl | above
    · have sign := equal.negative below
      have negative : (ofDouble bits).negative := decide_eq_true (by omega)
      rw [if_pos negative, Int.sign_eq_neg_one_of_neg below, Int.neg_one_mul]
    · have zero : roundTo 24 (0 : Int).natAbs = 0 := roundTo_of_log2_lt (by decide)
      rw [zero]
      split <;> rfl
    · have sign := equal.positive above
      have positive : ¬ (ofDouble bits).negative := by
        rw [negative, decide_eq_true_iff]
        omega
      rw [if_neg positive, Int.sign_eq_one_of_pos above, Int.one_mul]
  refine ⟨whole, ?_⟩
  rw [toInt, magnitude, Option.bind_eq_bind, Option.bind_some]
  dsimp only
  rw [signed]

/-- An integer is kept exactly when 24 digits are enough. -/
theorem toInt_ofDouble_iff {bits : UInt64} {n : Int32} (equal : EqualsInt bits n.toInt) :
    (ofDouble bits).toInt = some n ↔ Short 24 n.toInt.natAbs := by
  have lower : -2 ^ 31 ≤ n.toInt := n.le_toInt
  have upper : n.toInt < 2 ^ 31 := n.toInt_lt
  rw [(toInt_ofDouble equal (by omega)).2, ← roundTo_eq_self_iff]
  constructor
  · intro kept
    split at kept
    next fits =>
      have same := congrArg Int32.toInt (Option.some.inj kept)
      rw [Int32.toInt_ofInt_of_le fits.1 fits.2, rounded] at same
      rcases eq_or_ne n.toInt 0 with zero | nonzero
      · rw [zero]
        exact roundTo_of_log2_lt (by decide)
      · have sizes := congrArg Int.natAbs same
        rwa [Int.natAbs_mul, Int.natAbs_sign_of_ne_zero nonzero, Int.natAbs_natCast,
          Nat.one_mul] at sizes
    · simp at kept
  · intro same
    have exactly : rounded n.toInt = n.toInt := by
      rw [rounded, same, Int.sign_mul_natAbs]
    rw [exactly, if_pos ⟨lower, upper⟩, Int32.ofInt_toInt]

end Binary32

namespace Marshalling

/-- A number that is an integer parameter in C++. -/
structure IntArrives (host : Host) (bits : UInt64) (n : Int32) : Prop where
  /-- The loops of both functions add it, whatever they have added before. -/
  added : ∀ m, getParam host m (.number bits) = definedOr (m.addInt n).value
  /-- Both read it among parameters that can be added in order. -/
  read : ∀ w cls below removeFromStack values ps k, values.map (recorded host) = ps.map some →
    InOrder ps → ps.length ≤ 256 → values[k]? = some (.number bits) →
    ∃ m, Built host w cls below removeFromStack values m ∧ m.Retrieves k (.int n)

/-- An integer parameter that a script reads is the same integer when it is sent back. -/
def IntReturns (host : Host) (numerals : Numerals) (n : Int32) : Prop :=
  ∀ numChunks ps k m, 0 < numChunks → (∀ p ∈ ps, p.NulFree) → InOrder ps → ps.length ≤ 256 →
    ps[k]? = some (.int n) → runSteps addStep (ofSize numChunks) ps = some m →
    ∀ w t, w.lua.registry (chars "ssuge.Message") = some t →
    ∀ key, host.Counts key (k + 1) →
    ∃ bits f, (readPushed host numerals m key).run ⟨w, []⟩ = .returned (some (.number bits)) f ∧
      IntArrives host bits n

/-- The integer survives on its way from a script, and to a script and back. -/
def IntSurvives (host : Host) (numerals : Numerals) (n : Int32) : Prop :=
  (∀ bits, EqualsInt bits n.toInt → IntArrives host bits n) ∧ IntReturns host numerals n

section arriving

variable {host : Host} {bits : UInt64} {n : Int32}

theorem recorded_int (narrows : host.toFloat = Binary32.ofDouble)
    (equal : EqualsInt bits n.toInt) :
    recorded host (.number bits) = (Binary32.ofDouble bits).toInt.map .int := by
  have small : n.toInt.natAbs < 2 ^ 32 := by
    have lower := n.le_toInt
    have upper := n.toInt_lt
    omega
  change plainParam host (.number bits) = _
  rw [plainParam, narrows, (Binary32.toInt_ofDouble equal small).1]
  rfl

theorem addInt_initialized (n : Int32) :
    ∃ m, addStep initialized (.int n) = some m ∧ m.getInt 0 = .ok n := by
  obtain ⟨m, made, layout⟩ := @layout_of_inOrder startChunkNum startChunkNum_pos [.int n]
    (by simp [Param.NulFree]) (inOrder_of_scalars (by simp [typeCode]))
  have read := retrieves_layout layout (by simp) (by simp [Param.NulFree]) Nat.one_pos (by simp)
  obtain ⟨m', added, same⟩ := Option.bind_eq_some_iff.mp made
  obtain rfl := Option.some.inj same
  exact ⟨m', added, read.2⟩

theorem intArrives_iff (narrows : host.toFloat = Binary32.ofDouble)
    (equal : EqualsInt bits n.toInt) : IntArrives host bits n ↔ Short 24 n.toInt.natAbs := by
  rw [← Binary32.toInt_ofDouble_iff equal]
  have param := recorded_int narrows equal
  constructor
  · intro arrives
    have first : getParam host initialized (.number bits) =
        definedOr (addStep initialized (.int n)) := arrives.added initialized
    obtain ⟨m, sent, read⟩ := addInt_initialized n
    rw [sent] at first
    cases converted : (Binary32.ofDouble bits).toInt with
    | none =>
        simp [getParam, Host.number?, narrows, converted, definedOr, bind, Except.bind] at first
    | some i =>
        rw [converted] at param
        obtain ⟨m', sent', read'⟩ := addInt_initialized i
        rw [getParam_recorded param, sent'] at first
        obtain rfl := Except.ok.inj first
        exact congrArg some (Except.ok.inj (read'.symm.trans read))
  · intro kept
    rw [kept] at param
    refine ⟨fun m => getParam_recorded param, ?_⟩
    intro w cls below removeFromStack values ps k records order bound found
    obtain ⟨m, reached, layout⟩ :=
      layout_of_inOrder startChunkNum_pos (recorded_nulFrees records) order
    obtain ⟨inside, value⟩ := records_at records found
    obtain same : Param.int n = ps[k] := Option.some.inj (param.symm.trans value)
    refine ⟨m, built_iff.mpr ?_, ?_⟩
    · rw [foldlM_recorded records, initialized, reached]
      rfl
    · rw [same]
      exact retrieves_layout layout bound (recorded_nulFrees records) inside
        (order.nonempty _ (List.getElem_mem inside))

theorem pushParameter_int {numerals : Numerals} {w : World} {mptr : Message} {i : Nat}
    (read : mptr.Retrieves i (.int n)) (st : List Value) :
    (pushParameter numerals mptr i).run ⟨w, st⟩ =
      .returned () ⟨w, .number (numerals.ofInteger n) :: st⟩ := by
  obtain ⟨type, stored⟩ := read
  unfold pushParameter
  rw [type, ofEval, bind_pure_run]
  simp only [Param.typeCode]
  rw [if_pos trivial, stored, ofEval, bind_pure_run, push_run]

theorem readPushed_int (host : Host) (numerals : Numerals) {numChunks k t : Nat} {ps : List Param}
    {m : Message} {w : World} {key : Value} (positive : 0 < numChunks)
    (nulFree : ∀ p ∈ ps, p.NulFree) (order : InOrder ps) (bound : ps.length ≤ 256)
    (stored : ps[k]? = some (.int n)) (made : runSteps addStep (ofSize numChunks) ps = some m)
    (registered : w.lua.registry (chars "ssuge.Message") = some t)
    (counts : host.Counts key (k + 1)) :
    ∃ f, (readPushed host numerals m key).run ⟨w, []⟩ =
      .returned (some (.number (numerals.ofInteger n))) f := by
  obtain ⟨m', made', layout⟩ := layout_of_inOrder positive nulFree order
  obtain rfl := Option.some.inj (made'.symm.trans made)
  have reads : m'.Reads ps := ⟨layout.numParam, fun k h => .inl
    (retrieves_layout layout bound nulFree h (order.nonempty _ (List.getElem_mem h)))⟩
  obtain ⟨mptr, pushed, -, copy, read⟩ := luaPushMessage_inOrder reads nulFree order
    fun k again => absurd again (by omega)
  obtain ⟨inside, same⟩ := List.getElem?_eq_some_iff.mp stored
  have arrived := (read k inside).2
  rw [same] at arrived
  rw [readPushed_run registered counts, bind_of_returned (ofEval_returned.mpr ⟨pushed, rfl⟩),
    bind_of_returned (require_pos (lt_of_lt_of_eq inside copy.numParam.symm) _ _),
    bind_of_returned (pushParameter_int arrived _)]
  exact ⟨_, rfl⟩

end arriving

/-- When C++ narrows and Lua represents the integers as doubles, the integers that survive
are just those with 24 leading digits and zeros after them. -/
theorem intSurvives_iff (host : Host) (numerals : Numerals)
    (narrows : host.toFloat = Binary32.ofDouble)
    (exactly : ∀ i, EqualsInt (numerals.ofInteger i) i.toInt) (n : Int32) :
    IntSurvives host numerals n ↔ Short 24 n.toInt.natAbs := by
  constructor
  · intro survives
    exact (intArrives_iff narrows (exactly n)).mp (survives.1 _ (exactly n))
  · intro short
    refine ⟨fun bits equal => (intArrives_iff narrows equal).mpr short, ?_⟩
    intro numChunks ps k m positive nulFree order bound stored made w t registered key counts
    obtain ⟨f, run⟩ := readPushed_int host numerals positive nulFree order bound stored made
      registered counts
    exact ⟨_, f, run, (intArrives_iff narrows (exactly n)).mpr short⟩

def doubleOf (i : Int32) : UInt64 :=
  UInt64.ofNat ((if i.toInt < 0 then 2 ^ 63 else 0) + encode 52 1075 i.toInt.natAbs)

theorem doubleOf_equals (i : Int32) : EqualsInt (doubleOf i) i.toInt := by
  have few : i.toInt.natAbs.log2 ≤ 31 := by
    rcases Nat.eq_zero_or_pos i.toInt.natAbs with zero | positive
    · simp [zero]
    · refine Nat.le_of_lt_succ ((Nat.log2_lt positive.ne').mpr ?_)
      have lower := i.le_toInt
      have upper := i.toInt_lt
      omega
  have stands : Stands 52 1075 (encode 52 1075 i.toInt.natAbs) i.toInt.natAbs :=
    encode_stands (by omega) (by decide)
  have unsigned : encode 52 1075 i.toInt.natAbs < 2 ^ 63 := by
    have size : encode 52 1075 i.toInt.natAbs ≤ _ := encode_le (by omega) 1075
    omega
  have toNat : (doubleOf i).toNat =
      (if i.toInt < 0 then 2 ^ 63 else 0) + encode 52 1075 i.toInt.natAbs := by
    rw [doubleOf, UInt64.toNat_ofNat']
    refine Nat.mod_eq_of_lt ?_
    split <;> omega
  have pattern : (doubleOf i).toNat % 2 ^ 63 = encode 52 1075 i.toInt.natAbs := by
    rw [toNat]
    split <;> omega
  refine ⟨pattern ▸ stands, fun below => ?_, fun above => ?_⟩
  · rw [toNat, if_pos below]
    exact Nat.le_add_right _ _
  · rwa [toNat, if_neg (Int.not_lt.mpr above.le), Nat.zero_add]

def narrowingHost : Host := { quietHost with toFloat := Binary32.ofDouble }

def integerNumerals : Numerals := ⟨doubleOf, fun _ => 0⟩

/-- The least integer survives, and the greatest one that has 24 digits and zeros. -/
theorem intSurvives_least : IntSurvives narrowingHost integerNumerals (-2147483648) ∧
    IntSurvives narrowingHost integerNumerals 2147483520 :=
  ⟨(intSurvives_iff narrowingHost integerNumerals rfl doubleOf_equals _).mpr (by decide),
    (intSurvives_iff narrowingHost integerNumerals rfl doubleOf_equals _).mpr (by decide)⟩

/-- The first number with 25 digits that count arrives as the one before it, and for the
greatest `int` the conversion is undefined. -/
theorem not_intSurvives : ¬ IntSurvives narrowingHost integerNumerals 16777217 ∧
    ¬ IntSurvives narrowingHost integerNumerals 2147483647 := by
  constructor
  · intro survives
    have same := (survives.1 (doubleOf 16777217) (doubleOf_equals _)).added initialized
    have read := congrArg (· >>= fun m => m.getInt 0) same
    revert read
    decide
  · intro survives
    have same := (survives.1 (doubleOf 2147483647) (doubleOf_equals _)).added initialized
    have read := congrArg (· >>= fun m => m.getInt 0) same
    revert read
    decide

end Marshalling

end Ssuge

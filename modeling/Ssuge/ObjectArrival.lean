import Ssuge.ScriptCreation

/-! Game objects in messages to scripts. A message holds a pointer, but a script that
indexes the message gets the global variable with the name of the object. Only a
creation from a script sets that variable; an object that C++ code creates has none. -/

namespace Ssuge

open CString Procedure Lua Ssuge.Frame GuardedRun

structure Numerals where
  ofInteger : Int32 → UInt64
  ofFloat : Binary32 → UInt64

/-- The value that `__lua_Message_index` pushes for a parameter. -/
def pushParameter (numerals : Numerals) (m : Message) (i : Nat) : LuaProc Unit := do
  let t ← ofEval (m.getParamType i)
  if t = 'i' then do
    let n ← ofEval (m.getInt i)
    push (.number (numerals.ofInteger n))
  else if t = 'f' then do
    let x ← ofEval (m.getFloat i)
    push (.number (numerals.ofFloat x))
  else if t = 's' then do
    let s ← ofEval (m.getString i)
    push (.string (cString s))
  else if t = 'g' then do
    let g ← ofEval (m.getGameObject i)
    let o ← onEngine (Engine.object g)
    getglobal (cString o.mName)
  else push .nil

/-- `__lua_Message_index`; Lua calls it with the message and the key, so the message is at
the index 1 and at the index -2. -/
def messageIndex (host : Host) (numerals : Numerals) : LuaProc (Option Value) := do
  let mptr ← checkMessage 2 (chars "ssuge.Message")
  let key ← fromTop 1
  require (host.number? key ≠ none) .raised
  let index := (host.tointeger key).toUInt32.toNat
  let m ← ofEval mptr
  require (¬ (m.mNumParam < index ∨ index < 1)) .raised
  pushParameter numerals m (index - 1)
  returnTop

/-- A script reads a parameter of a message that is pushed for it. -/
def readPushed (host : Host) (numerals : Numerals) (m : Message) (key : Value) :
    LuaProc (Option Value) := do
  pushMessage (.ok m)
  push key
  messageIndex host numerals

def World.mPtr (w : World) : Value → Option Ptr
  | .userdata u =>
      match w.lua.userdata[u]?.map Userdata.payload with
      | some (.gameObject luaObject) =>
          w.engine.luaObjects[luaObject]?.join.bind LuaGameObject.mPtr
      | _ => none
  | _ => none

def Holds (m : Message) (i : Nat) (g : Ptr) : Prop :=
  i < m.mNumParam ∧ m.Retrieves i (.gameObject g)

/-- The copy of the message that goes to Lua has the object at that position. -/
def Kept (m : Message) (i : Nat) (g : Ptr) : Prop :=
  ∃ mptr, Message.luaPushMessage m = .ok mptr ∧ Holds mptr i g

def Host.Counts (host : Host) (key : Value) (n : Nat) : Prop :=
  host.number? key ≠ none ∧ (host.tointeger key).toUInt32.toNat = n

/-- A script that indexes the message gets the object. -/
def ReadsAs (host : Host) (numerals : Numerals) (w : World) (m : Message) (key : Value) (g : Ptr) :
    Prop :=
  ∃ v f, (readPushed host numerals m key).run ⟨w, []⟩ = .returned (some v) f ∧
    f.world.mPtr v = some g

/-- The objects of the map arrive as themselves in the messages that hold them. -/
def Arrive (host : Host) (numerals : Numerals) (w : World) : Prop :=
  ∀ n g, w.engine.mObjects.find? n = some g → ∀ m i, Holds m i g →
    ∀ key, host.Counts key (i + 1) → ReadsAs host numerals w m key g

/-- The objects of the map arrive as themselves in just those messages that hold them whose
copies in Lua do so, too. -/
def ArriveWhereKept (host : Host) (numerals : Numerals) (w : World) : Prop :=
  ∀ n g, w.engine.mObjects.find? n = some g → ∀ m i, Holds m i g →
    ∀ key, host.Counts key (i + 1) → (ReadsAs host numerals w m key g ↔ Kept m i g)

/-- What happens to objects. What a script does in `onCreate` is an operation of its own. -/
inductive WorldOp
  | createGameObject (address : Ptr) (tag : UInt32) (title : Name)
  | luaNew (address : Ptr) (cls : Option Nat) (name : List UInt8) (tag : Int32) (hasScript : Bool)
  | removeGameObject (title : Name)
  | removeGameObjectByTag (tag : Int32)

def worldStep (w : World) : WorldOp → Option World
  | .createGameObject address tag title =>
      (Engine.step w.engine (.createGameObject address tag title)).map w.withEngine
  | .luaNew address cls name tag hasScript =>
      if w.engine.Fresh address then
        (((construct address ⟨cString name, tag, hasScript, .ok .initialized⟩).run
          ⟨w, [metatableValue cls]⟩).resumes Stop.caught).map Frame.world
      else none
  | .removeGameObject title => (Engine.step w.engine (.removeGameObject title)).map w.withEngine
  | .removeGameObjectByTag tag =>
      (Engine.step w.engine (.removeGameObjectByTag tag)).map w.withEngine

/-- The condition on the state before an operation. An object that C++ code creates is
right only if its name was left bound to an object at the same address. -/
def ArrivalGuard (w : World) : WorldOp → Prop
  | .createGameObject address _ title => w.engine.Fresh address → title ∉ w.engine.sceneNodes →
      w.globalPtr (cString title) = some address
  | .luaNew address _ name _ _ => w.engine.Fresh address →
      (cString name ∉ w.engine.sceneNodes → (cString name).length < Engine.classNameSize) →
      ∀ p o, w.engine.objects p = some o → cString o.mName ≠ cString name
  | _ => True

/-- The global variable with the name of an object is that object. -/
def Resolved (w : World) : Prop :=
  ∀ p o, w.engine.objects p = some o → w.globalPtr (cString o.mName) = some p

section reading

variable {host : Host} {numerals : Numerals} {w : World} {m mptr : Message} {g : Ptr}
  {o : GameObject}

theorem globalPtr_eq (w : World) (name : Name) : w.globalPtr name = w.mPtr (w.lua.globals name) :=
  rfl

theorem payload_newUserdata (lua : State Payload) (payload : Payload) (metatable : Option Nat)
    (u : Nat) :
    ((lua.newUserdata payload).setMetatable (.userdata lua.userdata.length)
        metatable).userdata[u]?.map Userdata.payload =
      if u = lua.userdata.length then some payload
      else lua.userdata[u]?.map Userdata.payload := by
  simp only [State.setMetatable, State.newUserdata, List.getElem?_modify]
  by_cases last : u = lua.userdata.length
  · subst last
    simp
  · have other : lua.userdata.length ≠ u := Ne.symm last
    rw [if_neg last]
    rcases Nat.lt_or_gt_of_ne last with inside | beyond
    · simp [List.getElem?_append_left inside, other]
    · simp [List.getElem?_append, other, Nat.not_lt.mpr (Nat.le_of_lt beyond),
        Nat.sub_ne_zero_of_lt beyond]

theorem mPtr_withMessage (w : World) (m : Eval Message) (v : Value) :
    (w.withMessage m).mPtr v = w.mPtr v := by
  cases v with
  | userdata u =>
      have payload := payload_newUserdata w.lua (.message (m >>= Message.luaPushMessage))
        (w.lua.registry (chars "ssuge.Message")) u
      simp only [World.mPtr, World.withMessage, World.withLua, payload]
      by_cases last : u = w.lua.userdata.length
      · rw [if_pos last, last, List.getElem?_eq_none (Nat.le_refl _)]
        rfl
      · rw [if_neg last]
  | _ => rfl

theorem pushParameter_run (live : w.engine.objects g = some o) {i : Nat}
    (holds : mptr.Retrieves i (.gameObject g)) (st : List Value) :
    (pushParameter numerals mptr i).run ⟨w, st⟩ =
      .returned () ⟨w, w.lua.globals (cString o.mName) :: st⟩ := by
  obtain ⟨type, stored⟩ := holds
  unfold pushParameter
  rw [type, ofEval, bind_pure_run]
  simp only [Param.typeCode]
  rw [if_neg (by decide), if_neg (by decide), if_neg (by decide), if_pos trivial, stored, ofEval,
    bind_pure_run, bind_of_returned (object_onEngine live), getglobal_run]

theorem readPushed_run {t : Nat} (registered : w.lua.registry (chars "ssuge.Message") = some t)
    {key : Value} {i : Nat} (counts : host.Counts key (i + 1)) :
    (readPushed host numerals m key).run ⟨w, []⟩ = (do
      let mptr ← ofEval (Message.luaPushMessage m)
      require (i < mptr.mNumParam) Stop.raised
      pushParameter numerals mptr i
      returnTop : LuaProc (Option Value)).run
        ⟨w.withMessage (.ok m), [key, .userdata w.lua.userdata.length]⟩ := by
  let pushed := w.withMessage (.ok m)
  let st : List Value := [key, .userdata w.lua.userdata.length]
  have checked : (checkMessage 2 (chars "ssuge.Message")).run ⟨pushed, st⟩ =
      .returned (Message.luaPushMessage m) ⟨pushed, st⟩ :=
    checkMessage_pushed registered (.ok m) rfl
  obtain ⟨number, index⟩ := counts
  unfold readPushed
  rw [bind_of_returned (pushMessage_run w [] (.ok m)), bind_of_returned push_run]
  unfold messageIndex
  rw [bind_of_returned checked, bind_fromTop rfl, bind_of_returned (require_pos number _ _)]
  have inRange : ∀ n : Nat, ¬ (n < i + 1 ∨ i + 1 < 1) ↔ i < n := by omega
  simp only [index, Nat.add_sub_cancel, inRange]
  rfl

variable (numerals) in
theorem readPushed_kept {t : Nat} (registered : w.lua.registry (chars "ssuge.Message") = some t)
    (live : w.engine.objects g = some o) {i : Nat} (kept : Kept m i g) {key : Value}
    (counts : host.Counts key (i + 1)) :
    ∃ st, (readPushed host numerals m key).run ⟨w, []⟩ =
      .returned (some (w.lua.globals (cString o.mName))) ⟨w.withMessage (.ok m), st⟩ := by
  obtain ⟨mptr, pushed, inside, holds⟩ := kept
  rw [readPushed_run registered counts, bind_of_returned (ofEval_returned.mpr ⟨pushed, rfl⟩),
    bind_of_returned (require_pos inside _ _),
    bind_of_returned (pushParameter_run (w := w.withMessage (.ok m)) live holds _)]
  exact ⟨_, rfl⟩

theorem pushScalar_returned {α : Type} {x : Eval α} {value : α → Value} {P : Prop}
    (scalar : ∀ a, w.mPtr (value a) = none) {st : List Value} {f : Frame}
    (pushed : (do let a ← ofEval x; push (value a) : LuaProc Unit).run ⟨w, st⟩ = .returned () f) :
    ∃ v, f = ⟨w, v :: st⟩ ∧ (w.mPtr v = some g → P) := by
  obtain ⟨a, f', got, pushed⟩ := bind_eq_returned.mp pushed
  obtain ⟨-, rfl⟩ := ofEval_returned.mp got
  refine ⟨value a, (Ending.returned.inj pushed).2.symm, fun arrived => ?_⟩
  simp [scalar a] at arrived

theorem pushParameter_returned (resolved : Resolved w) {i : Nat} {st : List Value} {f : Frame}
    (pushed : (pushParameter numerals mptr i).run ⟨w, st⟩ = .returned () f) :
    ∃ v, f = ⟨w, v :: st⟩ ∧ (w.mPtr v = some g → mptr.Retrieves i (.gameObject g)) := by
  unfold pushParameter at pushed
  obtain ⟨t, f', got, pushed⟩ := bind_eq_returned.mp pushed
  obtain ⟨type, rfl⟩ := ofEval_returned.mp got
  split at pushed
  · exact pushScalar_returned (fun _ => rfl) pushed
  split at pushed
  · exact pushScalar_returned (fun _ => rfl) pushed
  split at pushed
  · exact pushScalar_returned (fun _ => rfl) pushed
  split at pushed
  next isObject =>
    obtain ⟨p, f', got, pushed⟩ := bind_eq_returned.mp pushed
    obtain ⟨stored, rfl⟩ := ofEval_returned.mp got
    obtain ⟨o, f', live, pushed⟩ := bind_eq_returned.mp pushed
    cases found : w.engine.objects p with
    | none =>
        rw [onEngine_run, Engine.object_dead found] at live
        simp at live
    | some o' =>
        obtain ⟨rfl, rfl⟩ := Ending.returned.inj ((object_onEngine found).symm.trans live)
        refine ⟨_, (Ending.returned.inj pushed).2.symm, fun arrived => ?_⟩
        obtain rfl := Option.some.inj ((resolved p o' found).symm.trans arrived)
        exact ⟨type.trans (congrArg Except.ok isObject), stored⟩
  · exact ⟨_, (Ending.returned.inj pushed).2.symm, by simp [World.mPtr]⟩

theorem Resolved.withMessage (resolved : Resolved w) (m : Eval Message) :
    Resolved (w.withMessage m) :=
  fun p o live => (mPtr_withMessage w m _).trans (resolved p o live)

theorem kept_of_readsAs {t : Nat} (registered : w.lua.registry (chars "ssuge.Message") = some t)
    (resolved : Resolved w) {i : Nat} {key : Value} (counts : host.Counts key (i + 1))
    (arrived : ReadsAs host numerals w m key g) : Kept m i g := by
  obtain ⟨v, f, read, arrived⟩ := arrived
  rw [readPushed_run registered counts] at read
  obtain ⟨mptr, f', got, read⟩ := bind_eq_returned.mp read
  obtain ⟨copied, rfl⟩ := ofEval_returned.mp got
  by_cases inside : i < mptr.mNumParam
  · rw [bind_of_returned (require_pos inside _ _)] at read
    obtain ⟨⟨⟩, f', parameter, top⟩ := bind_eq_returned.mp read
    obtain ⟨v', rfl, stands⟩ := pushParameter_returned (g := g) (resolved.withMessage _) parameter
    obtain ⟨same, rfl⟩ := Ending.returned.inj top
    obtain rfl : v' = v := Option.some.inj same
    exact ⟨mptr, copied, inside, stands arrived⟩
  · rw [bind_of_stopped (require_neg inside _ _)] at read
    simp at read

/-- A message whose parameters can be added in order keeps its objects in Lua. -/
theorem kept_of_inOrder {ps : List Param} (reads : m.Reads ps) (nulFree : ∀ p ∈ ps, p.NulFree)
    (order : Message.InOrder ps) (parted : Message.PartedAgain ps) {i : Nat}
    (inside : i < ps.length) (object : ps[i] = .gameObject g) : Kept m i g := by
  obtain ⟨mptr, pushed, -, layout, read⟩ :=
    Message.luaPushMessage_inOrder reads nulFree order parted
  exact ⟨mptr, pushed, lt_of_lt_of_eq inside layout.numParam.symm, object ▸ (read i inside).2⟩

theorem collision_kept (g : Ptr) :
    ∃ m, ((Message.ofSize 1).addGameObject g).value = some m ∧ Holds m 0 g ∧ Kept m 0 g := by
  have nulFree : ∀ p ∈ [Param.gameObject g], p.NulFree := by simp [Param.NulFree]
  have order : Message.InOrder [.gameObject g] :=
    Message.inOrder_of_scalars (by simp [Param.typeCode])
  obtain ⟨m, made, layout⟩ := Message.layout_of_inOrder Nat.one_pos nulFree order
  have retrieved : ∀ k, ∀ h : k < 1, m.Retrieves k [Param.gameObject g][k] := fun k h =>
    Message.retrieves_layout layout (by simp) nulFree h (order.nonempty _ (List.getElem_mem h))
  have reads : m.Reads [.gameObject g] :=
    ⟨layout.numParam, fun k h => .inl (retrieved k h)⟩
  have held : Holds m 0 g :=
    ⟨layout.numParam.symm ▸ Nat.one_pos, retrieved 0 Nat.one_pos⟩
  refine ⟨m, ?_, held, kept_of_inOrder reads nulFree order (fun k again => absurd again (by simp))
    (by simp) rfl⟩
  obtain ⟨m', added, same⟩ := Option.bind_eq_some_iff.mp made
  exact added.trans same

theorem arriveWhereKept_iff {t : Nat}
    (registered : w.lua.registry (chars "ssuge.Message") = some t)
    (formed : w.engine.WellFormed) (one : ∃ bits, host.toInteger bits = 1) :
    ArriveWhereKept host numerals w ↔ Resolved w := by
  constructor
  · intro arrives p o live
    obtain ⟨m, -, holds, kept⟩ := collision_kept p
    obtain ⟨bits, one⟩ := one
    have counts : host.Counts (.number bits) (0 + 1) := by
      refine ⟨by simp [Host.number?], ?_⟩
      simp only [Host.tointeger, Host.number?, Option.map_some, Option.getD_some, one]
      rfl
    obtain ⟨v, f, read, arrived⟩ :=
      (arrives o.mName p (formed.listed p o live) m 0 holds (.number bits) counts).mpr kept
    obtain ⟨st, run⟩ := readPushed_kept numerals registered live kept counts
    obtain ⟨same, rfl⟩ := Ending.returned.inj (run.symm.trans read)
    obtain rfl := Option.some.inj same
    rwa [mPtr_withMessage] at arrived
  · intro resolved n g found m i holds key counts
    obtain ⟨o, live, rfl⟩ := formed.stored_object found
    refine ⟨kept_of_readsAs registered resolved counts, fun kept => ?_⟩
    obtain ⟨st, run⟩ := readPushed_kept numerals registered live kept counts
    exact ⟨_, _, run, (mPtr_withMessage w _ _).trans (resolved g o live)⟩

end reading

section steps

variable {w w' : World}

/-- What a creation from a script does to the Lua side, whatever became of the engine. -/
def World.afterNew (w : World) (metatable : Option Nat) (name : Name) (e : Engine) : World :=
  (w.withUserdata w.engine.luaObjects.length metatable name).withEngine e

section creation

variable {metatable : Option Nat} {name : Name} {e : Engine} {go : LuaGameObject}
  (buffers : e.luaObjects = w.engine.luaObjects ++ [some go])

include buffers

theorem afterNew_own : (w.afterNew metatable name e).globalPtr name = go.mPtr := by
  have payload := payload_newUserdata w.lua (.gameObject w.engine.luaObjects.length) metatable
    w.lua.userdata.length
  rw [if_pos rfl] at payload
  have bound : (w.afterNew metatable name e).lua.globals name = .userdata w.lua.userdata.length :=
    Function.update_self ..
  rw [World.globalPtr, bound]
  simp only [World.afterNew, World.withUserdata, World.withLua, World.withEngine, State.setGlobal,
    payload, buffers]
  simp

theorem mPtr_afterNew {v : Value} {p : Ptr} (found : w.mPtr v = some p) :
    (w.afterNew metatable name e).mPtr v = some p := by
  cases v with
  | userdata u =>
      have payload := payload_newUserdata w.lua (.gameObject w.engine.luaObjects.length) metatable u
      rw [World.mPtr] at found
      split at found
      next luaObject stored =>
        obtain ⟨userdata, held, -⟩ := Option.map_eq_some_iff.mp stored
        have before : u ≠ w.lua.userdata.length := (List.getElem?_eq_some_iff.mp held).1.ne
        obtain ⟨buffer, listed, pointer⟩ := Option.bind_eq_some_iff.mp found
        have inside : luaObject < w.engine.luaObjects.length :=
          (List.getElem?_eq_some_iff.mp (Option.join_eq_some_iff.mp listed)).1
        rw [if_neg before] at payload
        simp only [World.mPtr, World.afterNew, World.withUserdata, World.withLua, World.withEngine,
          State.setGlobal, payload, stored, buffers, List.getElem?_append_left inside, found]
      · simp at found
  | _ => simp [World.mPtr] at found

theorem afterNew_other {k : Name} (other : k ≠ name) {p : Ptr} (found : w.globalPtr k = some p) :
    (w.afterNew metatable name e).globalPtr k = some p := by
  have same : (w.afterNew metatable name e).lua.globals k = w.lua.globals k :=
    Function.update_of_ne other ..
  rw [globalPtr_eq, same]
  exact mPtr_afterNew buffers found

/-- A creation breaks the objects whose name it takes, and no other. -/
theorem afterNew_resolved_iff {address : Ptr} (resolved : Resolved w)
    (fresh : w.engine.Fresh address)
    (others : ∀ p, p ≠ address → e.objects p = w.engine.objects p)
    (own : ∀ o, e.objects address = some o → cString o.mName = name ∧ go.mPtr = some address)
    (apart : ∀ p, go.mPtr = some p → p = address) :
    Resolved (w.afterNew metatable name e) ↔
      ∀ p o, w.engine.objects p = some o → cString o.mName ≠ name := by
  have old : ∀ p o, w.engine.objects p = some o → p ≠ address := by
    rintro p o live rfl
    rw [fresh.2.1] at live
    simp at live
  constructor
  · intro after p o live same
    have now := after p o ((others p (old p o live)).trans live)
    rw [same, afterNew_own buffers] at now
    exact old p o live (apart p now)
  · intro free p o live
    by_cases new : p = address
    · subst new
      obtain ⟨rfl, pointer⟩ := own o live
      rw [afterNew_own buffers, pointer]
    · have before := (others p new).symm.trans live
      exact afterNew_other buffers (free p o before) (resolved p o before)

end creation

structure World.Ready (w : World) : Prop where
  formed : w.engine.WellFormed
  registered : ∃ t, w.lua.registry (chars "ssuge.Message") = some t

theorem removals_live {e e' : Engine} {titles : List Name} (removals : Engine.Removals e titles e')
    {p : Ptr} {o : GameObject} (live : e'.objects p = some o) : e.objects p = some o := by
  induction removals with
  | nil e => exact live
  | cons _ _ _ ih =>
      have before := ih live
      rw [Engine.removed_objects] at before
      split at before
      · simp at before
      · exact before

theorem removals_resolved {e : Engine} {titles : List Name}
    (removals : Engine.Removals w.engine titles e) (resolved : Resolved w) :
    Resolved (w.withEngine e) := by
  intro p o live
  have found := resolved p o (removals_live removals live)
  rw [World.globalPtr] at found ⊢
  simp only [World.withEngine, removals.sameHolders.luaObjects]
  exact found

theorem createGameObject_resolved_iff (ready : w.Ready) (resolved : Resolved w) (address : Ptr)
    (tag : UInt32) (title : Name) :
    (∀ w', worldStep w (.createGameObject address tag title) = some w' → Resolved w') ↔
      ArrivalGuard w (.createGameObject address tag title) := by
  by_cases fresh : w.engine.Fresh address
  · simp only [worldStep, ArrivalGuard, Engine.step_createGameObject ready.formed fresh, fresh,
      Option.map_some, Option.some.injEq, forall_eq', true_imp_iff]
    split
    next taken => exact iff_of_true resolved fun free => absurd taken free
    next free =>
      constructor
      · intro after _
        exact after address ⟨tag, title, false, fun _ => 0⟩
          (by simp [World.withEngine])
      · intro bound p o live
        rw [World.withEngine, Engine.withObject_objects] at live
        split at live
        next new =>
          obtain rfl := Option.some.inj live
          rw [new]
          exact bound free
        · exact resolved p o live
  · refine iff_of_true (fun w' reached => ?_) fun allocated => absurd allocated fresh
    obtain ⟨e, stepped, -⟩ := Option.map_eq_some_iff.mp reached
    exact absurd (Engine.allocatable_of_step stepped) fresh

theorem worldStep_luaNew (ready : w.Ready) {address : Ptr} (fresh : w.engine.Fresh address)
    (cls : Option Nat) (name : List UInt8) (tag : Int32) (hasScript : Bool) :
    worldStep w (.luaNew address cls name tag hasScript) =
      if cString name ∈ w.engine.sceneNodes then
        some (w.afterNew cls (cString name) (w.engine.withLuaObject ⟨none, none⟩))
      else if (cString name).length < Engine.classNameSize then
        some (w.afterNew cls (cString name)
          (w.engine.withScripted address tag (cString name) hasScript))
      else none := by
  rw [worldStep, if_pos fresh, construct_run (asMetatable_metatableValue cls)]
  by_cases taken : cString name ∈ w.engine.sceneNodes
  · rw [Engine.luaNewGameObject_taken taken, if_pos taken]
    rfl
  · rw [Engine.luaNewGameObject_free ready.formed taken, if_neg taken]
    by_cases fits : (cString name).length < Engine.classNameSize
    · rw [if_pos fits, if_pos fits]
      rfl
    · rw [if_neg fits, if_neg fits]
      rfl

theorem luaNew_resolved_iff (ready : w.Ready) (resolved : Resolved w) (address : Ptr)
    (cls : Option Nat) (name : List UInt8) (tag : Int32) (hasScript : Bool) :
    (∀ w', worldStep w (.luaNew address cls name tag hasScript) = some w' → Resolved w') ↔
      ArrivalGuard w (.luaNew address cls name tag hasScript) := by
  by_cases fresh : w.engine.Fresh address
  · rw [worldStep_luaNew ready fresh, ArrivalGuard]
    simp only [fresh, true_imp_iff]
    split
    next taken =>
      have broken : Resolved (w.afterNew cls (cString name) (w.engine.withLuaObject ⟨none, none⟩)) ↔
          ∀ p o, w.engine.objects p = some o → cString o.mName ≠ cString name :=
        afterNew_resolved_iff rfl resolved fresh (fun _ _ => rfl)
          (fun o live => by simp [Engine.withLuaObject, fresh.2.1] at live)
          (fun _ unset => by simp at unset)
      simpa [taken] using broken
    next free =>
      split
      next fits =>
        have broken : Resolved (w.afterNew cls (cString name)
            (w.engine.withScripted address tag (cString name) hasScript)) ↔
            ∀ p o, w.engine.objects p = some o → cString o.mName ≠ cString name :=
          afterNew_resolved_iff rfl resolved fresh (fun p other => by
              simp [Engine.withScripted, Engine.withLuaObject, Engine.setObject, other])
            (fun o live => by
              obtain rfl : _ = o := by simpa [Engine.withScripted, Engine.setObject] using live
              exact ⟨cString_cString name, rfl⟩)
            (fun p own => (Option.some.inj own).symm)
        simpa [fits] using broken
      next long => exact iff_of_true (by simp) fun fits => absurd (fits free) long
  · refine iff_of_true (fun w' reached => ?_) fun allocated => absurd allocated fresh
    rw [worldStep, if_neg fresh] at reached
    simp at reached

/-- A step is all right exactly when it meets the condition. -/
theorem worldStep_resolved_iff (ready : w.Ready) (resolved : Resolved w) (op : WorldOp) :
    (∀ w', worldStep w op = some w' → Resolved w') ↔ ArrivalGuard w op := by
  cases op with
  | createGameObject address tag title =>
      exact createGameObject_resolved_iff ready resolved address tag title
  | luaNew address cls name tag hasScript =>
      exact luaNew_resolved_iff ready resolved address cls name tag hasScript
  | removeGameObject title =>
      obtain ⟨_, e, stepped, removals, -⟩ := Engine.step_removeGameObject ready.formed title
      simpa [worldStep, stepped, ArrivalGuard] using removals_resolved removals resolved
  | removeGameObjectByTag tag =>
      obtain ⟨_, e, stepped, removals, -⟩ := Engine.step_removeGameObjectByTag ready.formed tag
      simpa [worldStep, stepped, ArrivalGuard] using removals_resolved removals resolved

theorem World.Ready.withEngine (ready : w.Ready) {e : Engine} (formed : e.WellFormed) :
    (w.withEngine e).Ready := ⟨formed, ready.registered⟩

theorem World.Ready.afterNew (ready : w.Ready) {e : Engine} (formed : e.WellFormed)
    (metatable : Option Nat) (name : Name) : (w.afterNew metatable name e).Ready :=
  ⟨formed, ready.registered⟩

theorem worldStep_ready (ready : w.Ready) {op : WorldOp} (stepped : worldStep w op = some w') :
    w'.Ready := by
  cases op with
  | luaNew address cls name tag hasScript =>
      by_cases fresh : w.engine.Fresh address
      · rw [worldStep_luaNew ready fresh] at stepped
        split at stepped
        next taken =>
          obtain rfl := Option.some.inj stepped
          exact ready.afterNew (ready.formed.withLuaObject _) _ _
        next free =>
          split at stepped
          next fits =>
            obtain rfl := Option.some.inj stepped
            exact ready.afterNew (Engine.withScripted_wellFormed ready.formed fresh _ free _) _ _
          · simp at stepped
      · rw [worldStep, if_neg fresh] at stepped
        simp at stepped
  | _ =>
      obtain ⟨e, after, rfl⟩ := Option.map_eq_some_iff.mp stepped
      exact ready.withEngine (Engine.step_wellFormed ready.formed after)

end steps

def World.start (sceneNodes cameras : List Name) (lua : State Payload) : World where
  engine := .start sceneNodes cameras
  lua := lua.newTable.register (chars "ssuge.Message") lua.tables.length

theorem start_ready (sceneNodes cameras : List Name) (lua : State Payload) :
    (World.start sceneNodes cameras lua).Ready :=
  ⟨Engine.start_wellFormed sceneNodes cameras, lua.tables.length,
    by simp [World.start, State.register]⟩

theorem start_resolved (sceneNodes cameras : List Name) (lua : State Payload) :
    Resolved (World.start sceneNodes cameras lua) := by
  intro p o live
  simp [World.start, Engine.start] at live

/-- However Lua represents the index 1, objects arrive where they are kept, in every state
of a run, exactly when each creation binds its own name and no other object's. -/
theorem arrival_iff (host : Host) (numerals : Numerals) (one : ∃ bits, host.toInteger bits = 1)
    (sceneNodes cameras : List Name) (lua : State Payload) (ops : List WorldOp) :
    Throughout worldStep (ArriveWhereKept host numerals) (World.start sceneNodes cameras lua) ops ↔
      Along worldStep ArrivalGuard (World.start sceneNodes cameras lua) ops := by
  have arrive_iff : ∀ w : World, w.Ready →
      (ArriveWhereKept host numerals w ↔ Resolved w) := fun w ready =>
    have ⟨_, registered⟩ := ready.registered
    arriveWhereKept_iff registered ready.formed one
  have begins := start_ready sceneNodes cameras lua
  refine throughout_iff (I := World.Ready) (L := fun _ => True) (fun w op ready arrived _ => ?_)
    (fun w op w' ready _ _ _ stepped => worldStep_ready ready stepped) begins
    ((arrive_iff _ begins).mpr (start_resolved sceneNodes cameras lua)) fun _ _ => trivial
  rw [← worldStep_resolved_iff ready ((arrive_iff w ready).mp arrived)]
  exact forall₂_congr fun w' stepped => arrive_iff w' (worldStep_ready ready stepped)

def noNumerals : Numerals := ⟨fun _ => 0, fun _ => 0⟩

theorem arrival_ann : Throughout worldStep (ArriveWhereKept quietHost noNumerals)
    (World.start [] [] .empty)
    [.luaNew 16 none (chars "Ann") 1 true, .luaNew 32 none (chars "Bob") 2 true,
      .removeGameObject (chars "Ann")] := by
  refine (arrival_iff quietHost noNumerals ⟨0x3FF0000000000000, rfl⟩ [] [] .empty _).mpr ?_
  rw [Along]
  refine ⟨fun _ _ p o live => ?_, fun w' created => ?_⟩
  · cases live
  rw [worldStep_luaNew (start_ready [] [] .empty) (by decide), if_neg (by decide),
    if_pos (by decide)] at created
  obtain rfl := Option.some.inj created
  rw [Along]
  refine ⟨fun _ _ p o live => ?_, fun w' created => ⟨trivial, fun _ _ => trivial⟩⟩
  by_cases first : p = 16
  · subst first
    obtain rfl := Option.some.inj live
    decide
  · simp [World.afterNew, World.withEngine, Engine.withScripted, Engine.setObject, first,
      Engine.withLuaObject, World.start, Engine.start] at live

/-- An object that C++ code creates has no global variable, so a collision with it arrives
as nil. -/
theorem not_arrival : ¬ Throughout worldStep (Arrive quietHost noNumerals)
    (World.start [] [] .empty) [.createGameObject 16 3 (chars "Box")] := by
  intro all
  obtain ⟨m, -, holds, kept⟩ := collision_kept 16
  have counts : quietHost.Counts (.number 0x3FF0000000000000) (0 + 1) := ⟨by decide, by decide⟩
  let w : World := (World.start [] [] .empty).withEngine
    ((Engine.start [] []).withObject 16 3 (chars "Box"))
  have live : w.engine.objects 16 = some ⟨3, chars "Box", false, fun _ => 0⟩ := rfl
  obtain ⟨v, f, read, arrived⟩ :=
    all _ (List.prefix_refl _) w rfl (chars "Box") 16 rfl m 0 holds _ counts
  obtain ⟨st, run⟩ := readPushed_kept noNumerals (t := 0) rfl live kept counts
  obtain ⟨same, rfl⟩ := Ending.returned.inj (run.symm.trans read)
  obtain rfl := Option.some.inj same
  cases arrived

end Ssuge

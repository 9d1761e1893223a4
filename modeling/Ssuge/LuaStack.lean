import Ssuge.Engine
import Ssuge.Lua
import Ssuge.MessageCrossing

/-! The part of the Lua C interface that the engine uses. Each C function has a stack of
its own, here a list with the top in front; to take more from it than there is has
undefined results. What the scripts do when one of their functions is called, and how
Lua converts numbers, comes from a `Host`. -/

namespace Ssuge

open CString Procedure Lua

/-- The memory of a userdata: a `LuaGameObject` of the engine or a `Message`; a message
can be indeterminate. -/
inductive Payload
  | gameObject (luaObject : Nat)
  | message (m : Eval Message)

structure World where
  engine : Engine
  lua : Lua.State Payload

def World.withLua (w : World) (lua : Lua.State Payload) : World := { w with lua := lua }

def World.withEngine (w : World) (engine : Engine) : World := { w with engine := engine }

/-- A C function's view: the world and its own stack. -/
structure Frame where
  world : World
  stack : List Value

abbrev WorldProc := Proc Stop World

abbrev LuaProc := Proc Stop Frame

/-- What is not part of the engine: the scripts, and the number conversions of Lua. -/
structure Host where
  /-- A call with its result, or the error value it ends with. -/
  call : (f : Value) → (arguments : List Value) → WorldProc (Except Value Value)
  scan : List UInt8 → Option UInt64
  print : UInt64 → List UInt8
  toInteger : UInt64 → Int32
  toFloat : UInt64 → Binary32

def cString (s : List UInt8) : List UInt8 := s.takeWhile (· ≠ 0)

@[simp] theorem cString_cString (s : List UInt8) : cString (cString s) = cString s :=
  List.takeWhile_idem

namespace Host

variable (host : Host)

def number? : Value → Option UInt64
  | .number bits => some bits
  | .string s => host.scan s
  | _ => none

/-- `lua_tostring` -/
def string? : Value → Option (List UInt8)
  | .string s => some s
  | .number bits => some (host.print bits)
  | _ => none

def tointeger (v : Value) : Int32 := ((host.number? v).map host.toInteger).getD 0

/-- `luaV_gettable` -/
def getTable (o k : Value) : WorldProc Value := do
  match (← get).lua.read o k with
  | .done v => pure v
  | .call f self =>
      match ← host.call (.function f) [self, k] with
      | .ok v => pure v
      | .error _ => stop .raised
  | .error => stop .raised

/-- `luaV_settable` -/
def setTable (o k v : Value) : WorldProc Unit := do
  match (← get).lua.assign o k v with
  | .done lua => modify fun w => w.withLua lua
  | .call f self =>
      match ← host.call (.function f) [self, k, v] with
      | .ok _ => pure ()
      | .error _ => stop .raised
  | .error => stop .raised

end Host

namespace Frame

def onWorld {α : Type} (p : WorldProc α) : LuaProc α :=
  within Frame.world (fun f w => { f with world := w }) p

def onEngine {α : Type} (p : EngineProc α) : LuaProc α :=
  within (fun f => f.world.engine) (fun f e => { f with world := f.world.withEngine e }) p

def modifyLua (g : Lua.State Payload → Lua.State Payload) : LuaProc Unit :=
  modify fun f => { f with world := f.world.withLua (g f.world.lua) }

def push (v : Value) : LuaProc Unit := modify fun f => { f with stack := v :: f.stack }

def pop (n : Nat) : LuaProc Unit := do
  require (n ≤ (← get).stack.length) .undefined
  modify fun f => { f with stack := f.stack.drop n }

def settop (n : Nat) : LuaProc Unit :=
  modify fun f => { f with
    stack := List.replicate (n - f.stack.length) .nil ++ f.stack.drop (f.stack.length - n) }

/-- The value at the index `n`. -/
def fromBottom (n : Nat) : LuaProc Value := do
  orStop (← get).stack.reverse[n - 1]? .undefined

/-- The value at the index `-n`. -/
def fromTop (n : Nat) : LuaProc Value := do
  orStop (← get).stack[n - 1]? .undefined

/-- `lua_pushvalue(L, -n)` -/
def pushvalue (n : Nat) : LuaProc Unit := do
  push (← fromTop n)

def getglobal (name : List UInt8) : LuaProc Unit := do
  push ((← get).world.lua.globals name)

def setglobal (name : List UInt8) : LuaProc Unit := do
  let v ← fromTop 1
  pop 1
  modifyLua fun lua => lua.setGlobal name v

/-- `lua_getfield(L, -n, k)` -/
def getfield (host : Host) (n : Nat) (k : List UInt8) : LuaProc Unit := do
  let o ← fromTop n
  push (← onWorld (host.getTable o (.string k)))

/-- `lua_setfield(L, -n, k)` -/
def setfield (host : Host) (n : Nat) (k : List UInt8) : LuaProc Unit := do
  let o ← fromTop n
  let v ← fromTop 1
  onWorld (host.setTable o (.string k) v)
  pop 1

def newuserdata (payload : Payload) : LuaProc Unit := do
  let u := (← get).world.lua.userdata.length
  modifyLua fun lua => lua.newUserdata payload
  push (.userdata u)

def asMetatable : Value → Option (Option Nat)
  | .nil => some none
  | .table t => some (some t)
  | _ => none

/-- `lua_setmetatable(L, -2)` -/
def setmetatable : LuaProc Unit := do
  let metatable ← orStop (asMetatable (← fromTop 1)) .undefined
  let o ← fromTop 2
  pop 1
  modifyLua fun lua => lua.setMetatable o metatable

def metatableValue : Option Nat → Value
  | none => .nil
  | some t => .table t

@[simp] theorem asMetatable_metatableValue (metatable : Option Nat) :
    asMetatable (metatableValue metatable) = some metatable := by
  cases metatable <;> rfl

/-- `luaL_getmetatable` -/
def getmetatable (name : List UInt8) : LuaProc Unit := do
  push (metatableValue ((← get).world.lua.registry name))

/-- `luaL_newmetatable` makes a table only for a name that is not registered. -/
def newmetatable (name : List UInt8) : LuaProc Unit := do
  match (← get).world.lua.registry name with
  | some t => push (.table t)
  | none =>
      let t := (← get).world.lua.tables.length
      modifyLua fun lua => lua.newTable.register name t
      push (.table t)

/-- `lua_pcall(L, n, 0, 0)`; `true` when the call failed. -/
def pcall (host : Host) (n : Nat) : LuaProc Bool := do
  let f ← fromTop (n + 1)
  let arguments := ((← get).stack.take n).reverse
  let answer ← onWorld (host.call f arguments)
  pop (n + 1)
  match answer with
  | .ok _ => pure false
  | .error e => do
      push e
      pure true

section run

variable {α : Type} {w : World} {st : List Value} {v : Value}

theorem bind_fromTop {n : Nat} (found : st[n - 1]? = some v) (k : Value → LuaProc α) :
    (fromTop n >>= k).run ⟨w, st⟩ = (k v).run ⟨w, st⟩ :=
  bind_of_returned (by rw [fromTop, bind_get_run, found, orStop_some]) k

theorem bind_fromBottom {n : Nat} (found : st.reverse[n - 1]? = some v) (k : Value → LuaProc α) :
    (fromBottom n >>= k).run ⟨w, st⟩ = (k v).run ⟨w, st⟩ :=
  bind_of_returned (by rw [fromBottom, bind_get_run, found, orStop_some]) k

theorem pop_run {n : Nat} (enough : n ≤ st.length) :
    (pop n).run ⟨w, st⟩ = .returned () ⟨w, st.drop n⟩ := by
  rw [pop, bind_get_run, bind_of_returned (require_pos enough _ _), modify_run]

theorem pop_undefined {n : Nat} (short : st.length < n) :
    (pop n).run ⟨w, st⟩ = .stopped .undefined ⟨w, st⟩ := by
  rw [pop, bind_get_run, bind_of_stopped (require_neg (Nat.not_le.mpr short) _ _)]

theorem push_run : (push v).run ⟨w, st⟩ = .returned () ⟨w, v :: st⟩ := rfl

theorem getglobal_run (name : List UInt8) :
    (getglobal name).run ⟨w, st⟩ = .returned () ⟨w, w.lua.globals name :: st⟩ := rfl

theorem settop_zero_run : (settop 0).run ⟨w, st⟩ = .returned () ⟨w, []⟩ := by
  simp [settop]

theorem onWorld_run (w : World) (st : List Value) (p : WorldProc α) :
    (onWorld p).run ⟨w, st⟩ = match p.run w with
      | .returned a w' => .returned a ⟨w', st⟩
      | .stopped r w' => .stopped r ⟨w', st⟩ := by
  rw [onWorld, within_run]
  cases p.run w <;> rfl

theorem onEngine_run (p : EngineProc α) : (onEngine p).run ⟨w, st⟩ = match p.run w.engine with
    | .returned a e => .returned a ⟨w.withEngine e, st⟩
    | .stopped r e => .stopped r ⟨w.withEngine e, st⟩ := by
  rw [onEngine, within_run]
  cases p.run w.engine <;> rfl

theorem pushvalue_run {n : Nat} (found : st[n - 1]? = some v) :
    (pushvalue n).run ⟨w, st⟩ = .returned () ⟨w, v :: st⟩ := bind_fromTop found _

theorem getfield_run (host : Host) (w : World) {n : Nat} (found : st[n - 1]? = some v)
    (k : List UInt8) :
    (getfield host n k).run ⟨w, st⟩ = match (host.getTable v (.string k)).run w with
      | .returned u w' => .returned () ⟨w', u :: st⟩
      | .stopped r w' => .stopped r ⟨w', st⟩ := by
  have looked := onWorld_run w st (host.getTable v (.string k))
  unfold getfield
  rw [bind_fromTop found]
  cases run : (host.getTable v (.string k)).run w with
  | returned u w' => rw [run] at looked; rw [bind_of_returned looked, push_run]
  | stopped r w' => rw [run] at looked; rw [bind_of_stopped looked]

theorem setfield_run (host : Host) (w : World) (v o : Value) (st : List Value) (k : List UInt8) :
    (setfield host 2 k).run ⟨w, v :: o :: st⟩ =
      match (host.setTable o (.string k) v).run w with
      | .returned _ w' => .returned () ⟨w', o :: st⟩
      | .stopped r w' => .stopped r ⟨w', v :: o :: st⟩ := by
  have changed := onWorld_run w (v :: o :: st) (host.setTable o (.string k) v)
  unfold setfield
  rw [bind_fromTop rfl, bind_fromTop rfl]
  cases run : (host.setTable o (.string k) v).run w with
  | returned u w' =>
      rw [run] at changed
      rw [bind_of_returned changed, pop_run (by simp)]
      rfl
  | stopped r w' => rw [run] at changed; rw [bind_of_stopped changed]

theorem setglobal_run (name : List UInt8) : (setglobal name).run ⟨w, v :: st⟩ =
    .returned () ⟨w.withLua (w.lua.setGlobal name v), st⟩ := by
  unfold setglobal
  rw [bind_fromTop rfl, bind_of_returned (pop_run (by simp))]
  rfl

theorem newuserdata_run (payload : Payload) : (newuserdata payload).run ⟨w, st⟩ =
    .returned () ⟨w.withLua (w.lua.newUserdata payload),
      .userdata w.lua.userdata.length :: st⟩ := rfl

theorem getmetatable_run (name : List UInt8) : (getmetatable name).run ⟨w, st⟩ =
    .returned () ⟨w, metatableValue (w.lua.registry name) :: st⟩ := rfl

theorem setmetatable_run {o : Value} {metatable : Option Nat}
    (valid : asMetatable v = some metatable) : setmetatable.run ⟨w, v :: o :: st⟩ =
      .returned () ⟨w.withLua (w.lua.setMetatable o metatable), o :: st⟩ := by
  unfold setmetatable
  rw [bind_fromTop rfl, valid, bind_some_run, bind_fromTop rfl,
    bind_of_returned (pop_run (by simp))]
  rfl

theorem setmetatable_undefined (invalid : asMetatable v = none) :
    setmetatable.run ⟨w, v :: st⟩ = .stopped .undefined ⟨w, v :: st⟩ := by
  unfold setmetatable
  rw [bind_fromTop rfl, invalid, bind_none_run]

theorem pcall_run (host : Host) (w : World) (st : List Value) (f : Value)
    (arguments : List Value) :
    (pcall host arguments.length).run ⟨w, arguments.reverse ++ f :: st⟩ =
      match (host.call f arguments).run w with
      | .returned (.ok _) w' => .returned false ⟨w', st⟩
      | .returned (.error e) w' => .returned true ⟨w', e :: st⟩
      | .stopped r w' => .stopped r ⟨w', arguments.reverse ++ f :: st⟩ := by
  have found : (arguments.reverse ++ f :: st)[arguments.length + 1 - 1]? = some f := by
    rw [Nat.add_sub_cancel, List.getElem?_append_right (by simp)]
    simp
  have taken : ((arguments.reverse ++ f :: st).take arguments.length).reverse = arguments := by
    rw [List.take_append_of_le_length (by simp), List.take_of_length_le (by simp),
      List.reverse_reverse]
  have rest : (arguments.reverse ++ f :: st).drop (arguments.length + 1) = st := by
    rw [List.drop_append, List.drop_of_length_le (by simp)]
    simp
  have called := onWorld_run w (arguments.reverse ++ f :: st) (host.call f arguments)
  unfold pcall
  rw [bind_fromTop found, bind_get_run]
  simp only [taken]
  cases run : (host.call f arguments).run w with
  | returned answer w' =>
      rw [run] at called
      rw [bind_of_returned called, bind_of_returned (pop_run (by simp)), rest]
      cases answer <;> rfl
  | stopped r w' =>
      rw [run] at called
      rw [bind_of_stopped called]

end run

end Frame

end Ssuge

import Ssuge.LuaStack

/-! The functions of `GameObject.cpp`, `Message.cpp` and `ScriptManager.cpp` that work on
the Lua stack: script events, the classes of game objects and their instances. -/

namespace Ssuge

open CString Procedure Lua Ssuge.Frame

def pushMessage (m : Eval Message) : LuaProc Unit := do
  newuserdata (.message (m >>= Message.luaPushMessage))
  getmetatable (chars "ssuge.Message")
  setmetatable

/-- `luaL_checkudata(L, -n, name)`, of a userdata that holds a message. -/
def checkMessage (n : Nat) (name : List UInt8) : LuaProc (Eval Message) := do
  let v ← fromTop n
  let lua := (← get).world.lua
  match v with
  | .userdata u =>
      require (lua.metatable v ≠ none ∧ lua.metatable v = lua.registry name) .raised
      match lua.userdata[u]?.map Userdata.payload with
      | some (.message m) => pure m
      | _ => stop .undefined
  | _ => stop .raised

def getParam (host : Host) (m : Message) (v : Value) : Eval Message := do
  match host.number? v, v with
  | some bits, _ =>
      let f := host.toFloat bits
      let i ← definedOr f.toInt
      if f.isInteger then definedOr (m.addInt i).value else definedOr (m.addFloat f).value
  | none, .string s => definedOr (m.addString (cString s)).value
  | none, _ => pure m

def getMessage (host : Host) (startPos : Nat) (removeFromStack : Bool) :
    LuaProc (Eval Message) := do
  let values := (← get).stack.reverse.drop (startPos - 1)
  if removeFromStack then settop (startPos - 1)
  pure (values.foldlM (getParam host) .initialized)

def logString (host : Host) (otherwise : Stop) : LuaProc Unit := do
  let _ ← orStop (host.string? (← fromTop 1)) otherwise

/-- `std::string(lua_tostring(L, -1))` -/
def errorText (host : Host) : LuaProc Unit := logString host .undefined

/-- The end of `injectScriptEvent`, with the object and its method on the stack. -/
def callMethod (host : Host) (m : Eval Message) : LuaProc Unit := do
  pushvalue 2
  pushMessage m
  let failed ← pcall host 2
  if failed then errorText host else pure ()
  settop 0

/-- The three exits of `injectScriptEvent` for an object with a script, whose global is on
top of the stack. -/
def callEvent (host : Host) (method : List UInt8) (m : Eval Message) : LuaProc Unit := do
  if (← fromTop 1).isUserdata = false then pop 2
  else
    getfield host 1 (cString method)
    if (← fromTop 1).isFunction = false then pop 3
    else callMethod host m

/-- Every exit returns the empty message `rv`. -/
def injectScriptEvent (host : Host) (self : Ptr) (method : List UInt8) (m : Eval Message) :
    LuaProc Message := do
  let o ← onEngine (Engine.object self)
  if o.mHasScript then
    getglobal (cString o.mName)
    callEvent host method m
  pure .initialized

def checkstring (host : Host) : LuaProc Unit := logString host .raised

def executeFunction (host : Host) (functionName : List UInt8) : LuaProc Unit := do
  getglobal (cString functionName)
  if (← fromTop 1) = .nil then return
  let testCall ← pcall host 0
  if testCall then checkstring host else pure ()

/-- `return 1;` of a C function: nothing is returned from an empty stack. -/
def returnTop : LuaProc (Option Value) := do
  return (← get).stack.head?

/-- Step 1 of `_l_createGameObjectClass`: the new metatable becomes a field of `ssuge`. -/
def publishClass (host : Host) (name : List UInt8) : LuaProc Unit := do
  getglobal (chars "ssuge")
  pushvalue 2
  setfield host 2 name
  pop 1

/-- A copy of the table on top of the stack becomes a field of it. -/
def setSelf (host : Host) (k : List UInt8) : LuaProc Unit := do
  pushvalue 1
  setfield host 2 k

/-- Step 2: what `new_class` is called on becomes the metatable's metatable. -/
def linkClass (host : Host) : LuaProc Unit := do
  pushvalue 3
  setmetatable
  setSelf host (chars "__index")
  setSelf host (chars "__newindex")

def createGameObjectClass (host : Host) : LuaProc (Option Value) := do
  let name := cString (← orStop (host.string? (← fromTop 1)) .undefined)
  newmetatable name
  publishClass host name
  linkClass host
  returnTop

/-- What `_l_newGameObject` takes from its arguments. -/
structure Creation where
  name : Name
  tag : Int32
  hasScript : Bool
  m : Eval Message

/-- The arguments from the fifth on are for `onCreate`. -/
def eventArguments (host : Host) : LuaProc (Eval Message) := do
  if 5 ≤ (← get).stack.length then getMessage host 5 true else pure (.ok .initialized)

/-- The opening of `_l_newGameObject`; the class stays on the stack. -/
def readArguments (host : Host) : LuaProc Creation := do
  require (4 ≤ (← get).stack.length) .raised
  let m ← eventArguments host
  let name ← orStop (host.string? (← fromBottom 2)) .undefined
  let tag := host.tointeger (← fromBottom 3)
  let hasScript := host.tointeger (← fromBottom 4)
  pop 3
  pure ⟨cString name, tag, hasScript ≠ 0, m⟩

/-- The new userdata gets the class as its metatable and is bound to the name. -/
def bindLuaObject (luaObject : Nat) (name : Name) : LuaProc Unit := do
  newuserdata (.gameObject luaObject)
  push (← fromBottom 1)
  setmetatable
  pushvalue 1
  setglobal name

def construct (address : Ptr) (c : Creation) : LuaProc Unit := do
  let luaObject ← onEngine Engine.newLuaObject
  bindLuaObject luaObject c.name
  onEngine (Engine.finishGameObject luaObject address c.tag c.name c.hasScript)

/-- The end of `_l_newGameObject`. -/
def onCreate (host : Host) (self : Ptr) (m : Eval Message) : LuaProc Unit := do
  let o ← onEngine (Engine.object self)
  if o.mHasScript then discard (injectScriptEvent host self (chars "onCreate") m) else pure ()

/-- `_l_newGameObject`; the `GameObject` is allocated at the given address. -/
def newGameObject (host : Host) (address : Ptr) : LuaProc (Option Value) := do
  let c ← readArguments host
  construct address c
  onCreate host address c.m
  returnTop

end Ssuge

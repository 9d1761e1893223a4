import Ssuge.Scripting
import Ssuge.EngineRuns

/-! What script events leave on the Lua stack. Two exits of `injectScriptEvent` pop one
value more than was pushed, and the one after the call of the handler clears the
stack of whoever called it; `executeFunction` leaves a value behind when there is no
such function and when it fails. `_l_newGameObject` has its result on the stack while
`onCreate` runs, so it loses it. -/

namespace Ssuge

open CString Procedure Lua Ssuge.Frame

def World.withMessage (w : World) (m : Eval Message) : World :=
  w.withLua ((w.lua.newUserdata (.message (m >>= Message.luaPushMessage))).setMetatable
    (.userdata w.lua.userdata.length) (w.lua.registry (chars "ssuge.Message")))

section exits

variable {host : Host} {w w' : World} {st : List Value} {m : Eval Message}

theorem pushMessage_run (w : World) (st : List Value) (m : Eval Message) :
    (pushMessage m).run ⟨w, st⟩ =
      .returned () ⟨w.withMessage m, .userdata w.lua.userdata.length :: st⟩ := by
  unfold pushMessage
  rw [bind_of_returned (newuserdata_run _), bind_of_returned (getmetatable_run _),
    setmetatable_run (asMetatable_metatableValue _)]
  rfl

theorem checkMessage_pushed {t n : Nat}
    (registered : w.lua.registry (chars "ssuge.Message") = some t) (m : Eval Message)
    (found : st[n - 1]? = some (.userdata w.lua.userdata.length)) :
    (checkMessage n (chars "ssuge.Message")).run ⟨w.withMessage m, st⟩ =
      .returned (m >>= Message.luaPushMessage) ⟨w.withMessage m, st⟩ := by
  have linked : (w.withMessage m).lua.metatable (.userdata w.lua.userdata.length) = some t := by
    simp [World.withMessage, World.withLua, State.metatable, State.setMetatable,
      State.newUserdata, registered]
  have named : (w.withMessage m).lua.registry (chars "ssuge.Message") = some t := registered
  have payload : (w.withMessage m).lua.userdata[w.lua.userdata.length]?.map Userdata.payload =
      some (.message (m >>= Message.luaPushMessage)) := by
    simp [World.withMessage, World.withLua, State.setMetatable, State.newUserdata]
  unfold checkMessage
  rw [bind_fromTop found, bind_get_run]
  simp only [payload]
  rw [bind_of_returned (require_pos ⟨by simp [linked], linked.trans named.symm⟩ _ _)]
  rfl

theorem logString_run (host : Host) (otherwise : Stop) (w : World) (e : Value) (st : List Value) :
    (logString host otherwise).run ⟨w, e :: st⟩ =
      if (host.string? e).isSome then .returned () ⟨w, e :: st⟩
      else .stopped otherwise ⟨w, e :: st⟩ := by
  unfold logString
  rw [bind_fromTop rfl]
  cases host.string? e <;> rfl

theorem callMethod_run (host : Host) (w : World) (v g : Value) (st : List Value)
    (m : Eval Message) : (callMethod host m).run ⟨w, v :: g :: st⟩ =
      match (host.call v [g, .userdata w.lua.userdata.length]).run (w.withMessage m) with
      | .returned (.ok _) w' => .returned () ⟨w', []⟩
      | .returned (.error e) w' =>
          if (host.string? e).isSome then .returned () ⟨w', []⟩
          else .stopped .undefined ⟨w', e :: g :: st⟩
      | .stopped r w' =>
          .stopped r ⟨w', .userdata w.lua.userdata.length :: g :: v :: g :: st⟩ := by
  have called := pcall_run host (w.withMessage m) (g :: st) v [g, .userdata w.lua.userdata.length]
  change (pcall host 2).run ⟨_, .userdata w.lua.userdata.length :: g :: v :: g :: st⟩ = _ at called
  unfold callMethod
  rw [bind_of_returned (pushvalue_run rfl), bind_of_returned (pushMessage_run ..)]
  cases run : (host.call v [g, .userdata w.lua.userdata.length]).run (w.withMessage m) with
  | stopped r w' =>
      rw [run] at called
      exact bind_of_stopped called _
  | returned answer w' =>
      rw [run] at called
      cases answer with
      | ok _ =>
          rw [bind_of_returned called]
          exact settop_zero_run
      | error e =>
          rw [bind_of_returned called]
          change (errorText host >>= fun _ => settop 0).run _ = _
          have logged := logString_run host .undefined w' e (g :: st)
          by_cases text : (host.string? e).isSome
          · rw [if_pos text] at logged
            exact ((bind_of_returned logged _).trans settop_zero_run).trans (if_pos text).symm
          · rw [if_neg text] at logged
            exact (bind_of_stopped logged _).trans (if_neg text).symm

theorem callEvent_unbound {g : Value} (unbound : g.isUserdata = false) (method : List UInt8) :
    (callEvent host method m).run ⟨w, g :: st⟩ = (pop 2).run ⟨w, g :: st⟩ := by
  unfold callEvent
  rw [bind_fromTop rfl, if_pos unbound]

theorem callEvent_stopped {g : Value} (bound : g.isUserdata = true) {method : List UInt8}
    {r : Stop} (looked : (host.getTable g (.string (cString method))).run w = .stopped r w') :
    (callEvent host method m).run ⟨w, g :: st⟩ = .stopped r ⟨w', g :: st⟩ := by
  have field := getfield_run host w (show (g :: st)[1 - 1]? = some g from rfl) (cString method)
  rw [looked] at field
  unfold callEvent
  rw [bind_fromTop rfl, if_neg (by simp [bound]), bind_of_stopped field]

theorem callEvent_found {g v : Value} (bound : g.isUserdata = true) {method : List UInt8}
    (looked : (host.getTable g (.string (cString method))).run w = .returned v w') :
    (callEvent host method m).run ⟨w, g :: st⟩ =
      if v.isFunction then (callMethod host m).run ⟨w', v :: g :: st⟩
      else (pop 3).run ⟨w', v :: g :: st⟩ := by
  have field := getfield_run host w (show (g :: st)[1 - 1]? = some g from rfl) (cString method)
  rw [looked] at field
  unfold callEvent
  rw [bind_fromTop rfl, if_neg (by simp [bound]), bind_of_returned field,
    bind_fromTop rfl]
  cases v.isFunction <;> rfl

theorem object_onEngine {self : Ptr} {o : GameObject} (found : w.engine.objects self = some o) :
    (onEngine (Engine.object self)).run ⟨w, st⟩ = .returned o ⟨w, st⟩ := by
  rw [onEngine_run, Engine.object_run found]
  rfl

theorem injectScriptEvent_run {self : Ptr} {o : GameObject}
    (found : w.engine.objects self = some o) (method : List UInt8) :
    (injectScriptEvent host self method m).run ⟨w, st⟩ =
      if o.mHasScript then
        match (callEvent host method m).run ⟨w, w.lua.globals (cString o.mName) :: st⟩ with
        | .returned _ f => .returned .initialized f
        | .stopped r f => .stopped r f
      else .returned .initialized ⟨w, st⟩ := by
  unfold injectScriptEvent
  rw [bind_of_returned (object_onEngine found)]
  cases o.mHasScript with
  | false => rfl
  | true =>
      simp only [if_true]
      rw [bind_of_returned (getglobal_run _)]
      cases called : (callEvent host method m).run ⟨w, w.lua.globals (cString o.mName) :: st⟩ with
      | returned _ f => exact bind_of_returned called _
      | stopped r f => exact bind_of_stopped called _

end exits

/-- A run leaves the stack as it was, if it returns, and is not undefined. -/
def Neutral {α : Type} (st : List Value) : Ending Stop Frame α → Prop
  | .returned _ f => f.stack = st
  | .stopped r _ => r ≠ .undefined

/-- When an event of an object with a script is balanced: the lookup of its method does not
return, or finds a function that does not return or was called from an empty stack and
did not fail with an error value that is no string. -/
def EventBalanced (host : Host) (w : World) (st : List Value) (g : Value) (method : List UInt8)
    (m : Eval Message) : Prop :=
  g.isUserdata = true ∧ match (host.getTable g (.string (cString method))).run w with
    | .stopped r _ => r ≠ .undefined
    | .returned v w' => v.isFunction = true ∧
        match (host.call v [g, .userdata w'.lua.userdata.length]).run (w'.withMessage m) with
        | .stopped r _ => r ≠ .undefined
        | .returned (.ok _) _ => st = []
        | .returned (.error e) _ => st = [] ∧ (host.string? e).isSome = true

/-- When the call of a global function is balanced: there is one and it does not fail. -/
def CallBalanced (host : Host) (w : World) (f : Value) : Prop :=
  f ≠ .nil ∧ match (host.call f []).run w with
    | .stopped r _ => r ≠ .undefined
    | .returned (.ok _) _ => True
    | .returned (.error e) _ => host.string? e = none

section neutral

variable {host : Host} {w : World} {st : List Value}

/-- Popping more than was pushed takes the caller's value, or is undefined. -/
theorem pop_not_neutral (pushed : List Value) :
    ¬ Neutral st ((pop (pushed.length + 1)).run ⟨w, pushed ++ st⟩) := by
  cases st with
  | nil =>
      rw [pop_undefined (by simp)]
      exact fun defined => defined rfl
  | cons v st =>
      rw [pop_run (by simp)]
      intro same
      have shorter := congrArg List.length same
      simp at shorter

theorem callMethod_neutral_iff (v g : Value) (m : Eval Message) :
    Neutral st ((callMethod host m).run ⟨w, v :: g :: st⟩) ↔
      match (host.call v [g, .userdata w.lua.userdata.length]).run (w.withMessage m) with
      | .stopped r _ => r ≠ .undefined
      | .returned (.ok _) _ => st = []
      | .returned (.error e) _ => st = [] ∧ (host.string? e).isSome = true := by
  rw [callMethod_run]
  cases (host.call v [g, .userdata w.lua.userdata.length]).run (w.withMessage m) with
  | stopped r w' => rfl
  | returned answer w' =>
      cases answer with
      | ok _ => exact eq_comm
      | error e => by_cases text : (host.string? e).isSome <;> simp [Neutral, text, eq_comm]

theorem callEvent_neutral_iff (g : Value) (method : List UInt8) (m : Eval Message) :
    Neutral st ((callEvent host method m).run ⟨w, g :: st⟩) ↔
      EventBalanced host w st g method m := by
  by_cases bound : g.isUserdata = true
  · simp only [EventBalanced, bound, true_and]
    cases looked : (host.getTable g (.string (cString method))).run w with
    | stopped r w' => rw [callEvent_stopped bound looked]; rfl
    | returned v w' =>
        rw [callEvent_found bound looked]
        by_cases handler : v.isFunction = true
        · simp only [handler, if_true, true_and]
          exact callMethod_neutral_iff v g m
        · simp only [handler, Bool.false_eq_true, if_false, false_and, iff_false]
          exact pop_not_neutral [v, g]
  · rw [callEvent_unbound (by simpa using bound)]
    simp only [EventBalanced, bound, Bool.false_eq_true, false_and, iff_false]
    exact pop_not_neutral [g]

theorem injectScriptEvent_neutral_iff {self : Ptr} {o : GameObject}
    (found : w.engine.objects self = some o) (method : List UInt8) (m : Eval Message) :
    Neutral st ((injectScriptEvent host self method m).run ⟨w, st⟩) ↔
      (o.mHasScript = true →
        EventBalanced host w st (w.lua.globals (cString o.mName)) method m) := by
  rw [injectScriptEvent_run found]
  by_cases script : o.mHasScript = true
  · rw [if_pos script, ← callEvent_neutral_iff]
    simp only [script, true_imp_iff]
    cases (callEvent host method m).run ⟨w, w.lua.globals (cString o.mName) :: st⟩ <;> rfl
  · rw [if_neg script]
    simp [Neutral, script]

theorem executeFunction_neutral_iff (functionName : List UInt8) :
    Neutral st ((executeFunction host functionName).run ⟨w, st⟩) ↔
      CallBalanced host w (w.lua.globals (cString functionName)) := by
  unfold executeFunction
  rw [bind_of_returned (getglobal_run _), bind_fromTop rfl, CallBalanced]
  by_cases undefined : w.lua.globals (cString functionName) = .nil
  · simp [undefined, Neutral]
  · have called := pcall_run host w st (w.lua.globals (cString functionName)) []
    change (pcall host 0).run ⟨w, w.lua.globals (cString functionName) :: st⟩ = _ at called
    simp only [undefined, if_false, ne_eq, not_false_eq_true, true_and]
    cases run : (host.call (w.lua.globals (cString functionName)) []).run w with
    | stopped r w' =>
        rw [run] at called
        rw [bind_of_stopped called]
        rfl
    | returned answer w' =>
        rw [run] at called
        cases answer with
        | ok _ =>
            rw [bind_of_returned called]
            simp [Neutral]
        | error e =>
            rw [bind_of_returned called]
            change Neutral st ((logString host .raised).run ⟨w', e :: st⟩) ↔ _
            rw [logString_run]
            cases text : host.string? e <;> simp [Neutral, text]

end neutral

section creation

variable {host : Host} {w : World}

theorem eventArguments_run (cls name tag hasScript : Value) (extra : List Value) :
    (eventArguments host).run ⟨w, (cls :: name :: tag :: hasScript :: extra).reverse⟩ =
      .returned (extra.foldlM (getParam host) .initialized) ⟨w, [hasScript, tag, name, cls]⟩ := by
  have shape : (cls :: name :: tag :: hasScript :: extra).reverse =
      extra.reverse ++ [hasScript, tag, name, cls] := by simp
  unfold eventArguments
  rw [bind_get_run, shape]
  cases extra with
  | nil => rfl
  | cons v extra =>
      have kept : ((v :: extra).reverse ++ [hasScript, tag, name, cls]).drop
          (((v :: extra).reverse ++ [hasScript, tag, name, cls]).length - 4) =
          [hasScript, tag, name, cls] := List.drop_left' (by simp)
      rw [if_pos (by simp), getMessage, bind_get_run]
      change Ending.returned _ _ = _
      simp only [kept]
      simp

theorem readArguments_run (host : Host) (w : World) (cls name tag hasScript : Value)
    (extra : List Value) :
    (readArguments host).run ⟨w, (cls :: name :: tag :: hasScript :: extra).reverse⟩ =
      match host.string? name with
      | none => .stopped .undefined ⟨w, [hasScript, tag, name, cls]⟩
      | some s => .returned ⟨cString s, host.tointeger tag, host.tointeger hasScript ≠ 0,
          extra.foldlM (getParam host) .initialized⟩ ⟨w, [cls]⟩ := by
  unfold readArguments
  rw [bind_get_run, bind_of_returned (require_pos (by simp) _ _),
    bind_of_returned (eventArguments_run ..), bind_fromBottom rfl]
  cases host.string? name with
  | none => rfl
  | some s =>
      rw [bind_some_run, bind_fromBottom rfl, bind_fromBottom rfl,
        bind_of_returned (pop_run (by simp))]
      rfl

theorem readArguments_short {st : List Value} (short : st.length < 4) :
    (readArguments host).run ⟨w, st⟩ = .stopped .raised ⟨w, st⟩ := by
  unfold readArguments
  rw [bind_get_run, bind_of_stopped (require_neg (Nat.not_le.mpr short) _ _)]

def World.withUserdata (w : World) (luaObject : Nat) (metatable : Option Nat) (name : Name) :
    World :=
  w.withLua (((w.lua.newUserdata (.gameObject luaObject)).setMetatable
    (.userdata w.lua.userdata.length) metatable).setGlobal name (.userdata w.lua.userdata.length))

theorem bindLuaObject_run {cls : Value} {metatable : Option Nat}
    (valid : asMetatable cls = some metatable) (luaObject : Nat) (name : Name) :
    (bindLuaObject luaObject name).run ⟨w, [cls]⟩ = .returned ()
      ⟨w.withUserdata luaObject metatable name, [.userdata w.lua.userdata.length, cls]⟩ := by
  unfold bindLuaObject
  rw [bind_of_returned (newuserdata_run _), bind_fromBottom rfl,
    bind_of_returned push_run, bind_of_returned (setmetatable_run valid),
    bind_of_returned (pushvalue_run rfl), setglobal_run]
  rfl

theorem bindLuaObject_undefined {cls : Value} (invalid : asMetatable cls = none)
    (luaObject : Nat) (name : Name) :
    ∃ f, (bindLuaObject luaObject name).run ⟨w, [cls]⟩ = .stopped .undefined f := by
  unfold bindLuaObject
  rw [bind_of_returned (newuserdata_run _), bind_fromBottom rfl,
    bind_of_returned push_run, bind_of_stopped (setmetatable_undefined invalid)]
  exact ⟨_, rfl⟩

theorem newLuaObject_onEngine (w : World) (st : List Value) :
    (onEngine Engine.newLuaObject).run ⟨w, st⟩ = .returned w.engine.luaObjects.length
      ⟨w.withEngine (w.engine.withLuaObject ⟨none, none⟩), st⟩ := by
  rw [onEngine_run, Engine.newLuaObject_run]

theorem construct_run {cls : Value} {metatable : Option Nat}
    (valid : asMetatable cls = some metatable) (address : Ptr) (c : Creation) :
    (construct address c).run ⟨w, [cls]⟩ =
      match (Engine.luaNewGameObject address c.tag c.name c.hasScript).run w.engine with
      | .returned luaObject e => .returned ()
          ⟨(w.withUserdata luaObject metatable c.name).withEngine e,
            [.userdata w.lua.userdata.length, cls]⟩
      | .stopped r e => .stopped r
          ⟨(w.withUserdata w.engine.luaObjects.length metatable c.name).withEngine e,
            [.userdata w.lua.userdata.length, cls]⟩ := by
  unfold construct
  rw [bind_of_returned (newLuaObject_onEngine w [cls]),
    bind_of_returned (bindLuaObject_run valid _ _), onEngine_run, Engine.luaNewGameObject,
    bind_of_returned (Engine.newLuaObject_run _)]
  simp only [World.withUserdata, World.withLua, World.withEngine]
  cases finished : (Engine.finishGameObject w.engine.luaObjects.length address c.tag c.name
      c.hasScript).run (w.engine.withLuaObject ⟨none, none⟩) with
  | returned _ e => rw [bind_of_returned finished]; rfl
  | stopped r e => rw [bind_of_stopped finished]

theorem construct_undefined {cls : Value} (invalid : asMetatable cls = none) (address : Ptr)
    (c : Creation) : ∃ f, (construct address c).run ⟨w, [cls]⟩ = .stopped .undefined f := by
  obtain ⟨f, undefined⟩ := bindLuaObject_undefined
    (w := w.withEngine (w.engine.withLuaObject ⟨none, none⟩)) invalid
    w.engine.luaObjects.length c.name
  unfold construct
  rw [bind_of_returned (newLuaObject_onEngine w [cls]), bind_of_stopped undefined]
  exact ⟨f, rfl⟩

theorem newGameObject_short {st : List Value} (short : st.length < 4) (address : Ptr) :
    (newGameObject host address).run ⟨w, st⟩ = .stopped .raised ⟨w, st⟩ := by
  unfold newGameObject
  rw [bind_of_stopped (readArguments_short short)]

theorem newGameObject_invalid {cls name : Value} (tag hasScript : Value) (extra : List Value)
    (invalid : host.string? name = none ∨ asMetatable cls = none) (address : Ptr) :
    ∃ f, (newGameObject host address).run
      ⟨w, (cls :: name :: tag :: hasScript :: extra).reverse⟩ = .stopped .undefined f := by
  have read := readArguments_run host w cls name tag hasScript extra
  cases text : host.string? name with
  | none =>
      rw [text] at read
      exact ⟨_, by rw [newGameObject, bind_of_stopped read]⟩
  | some s =>
      rw [text] at read
      obtain ⟨f, undefined⟩ := construct_undefined (w := w)
        (invalid.resolve_left (by simp [text])) address _
      exact ⟨f, by rw [newGameObject, bind_of_returned read, bind_of_stopped undefined]⟩

theorem newGameObject_run {cls name : Value} {s : List UInt8} {metatable : Option Nat}
    (text : host.string? name = some s) (valid : asMetatable cls = some metatable)
    (tag hasScript : Value) (extra : List Value) (address : Ptr) :
    (newGameObject host address).run ⟨w, (cls :: name :: tag :: hasScript :: extra).reverse⟩ =
      match (Engine.luaNewGameObject address (host.tointeger tag) (cString s)
          (host.tointeger hasScript ≠ 0)).run w.engine with
      | .returned luaObject e =>
          (onCreate host address (extra.foldlM (getParam host) .initialized) >>=
            fun _ => returnTop).run
          ⟨(w.withUserdata luaObject metatable (cString s)).withEngine e,
            [.userdata w.lua.userdata.length, cls]⟩
      | .stopped r e => .stopped r
          ⟨(w.withUserdata w.engine.luaObjects.length metatable (cString s)).withEngine e,
            [.userdata w.lua.userdata.length, cls]⟩ := by
  have read := readArguments_run host w cls name tag hasScript extra
  have made := construct_run (w := w) valid address ⟨cString s, host.tointeger tag,
    host.tointeger hasScript ≠ 0, extra.foldlM (getParam host) .initialized⟩
  rw [text] at read
  unfold newGameObject
  rw [bind_of_returned read]
  cases created : (Engine.luaNewGameObject address (host.tointeger tag) (cString s)
      (host.tointeger hasScript ≠ 0)).run w.engine with
  | returned luaObject e => rw [created] at made; rw [bind_of_returned made]
  | stopped r e => rw [created] at made; rw [bind_of_stopped made]

structure Accepted (host : Host) (arguments : List Value) where
  cls : Value
  name : Value
  tag : Value
  hasScript : Value
  extra : List Value
  shape : arguments = cls :: name :: tag :: hasScript :: extra
  s : List UInt8
  text : host.string? name = some s
  metatable : Option Nat
  valid : asMetatable cls = some metatable

theorem newGameObject_accepted (host : Host) (w : World) (address : Ptr) (arguments : List Value) :
    arguments.length < 4 ∨
    (∃ f, (newGameObject host address).run ⟨w, arguments.reverse⟩ = .stopped .undefined f) ∨
    Nonempty (Accepted host arguments) := by
  rcases arguments with _ | ⟨cls, _ | ⟨name, _ | ⟨tag, _ | ⟨hasScript, extra⟩⟩⟩⟩
  iterate 4 exact .inl (by simp)
  cases text : host.string? name with
  | none => exact .inr (.inl (newGameObject_invalid tag hasScript extra (.inl text) address))
  | some s =>
      cases valid : asMetatable cls with
      | none => exact .inr (.inl (newGameObject_invalid tag hasScript extra (.inr valid) address))
      | some metatable =>
          exact .inr (.inr ⟨cls, name, tag, hasScript, extra, rfl, s, text, metatable, valid⟩)

theorem onCreate_tells (host : Host) (st : List Value) (m : Eval Message) {self : Ptr}
    {o : GameObject} (found : w.engine.objects self = some o) :
    (onCreate host self m).run ⟨w, st⟩ =
      if o.mHasScript then (discard (injectScriptEvent host self (chars "onCreate") m)).run ⟨w, st⟩
      else .returned () ⟨w, st⟩ := by
  unfold onCreate
  rw [bind_of_returned (object_onEngine found)]
  cases o.mHasScript <;> rfl

theorem onCreate_run {self : Ptr} {o : GameObject} {st : List Value} {m : Eval Message}
    (found : w.engine.objects self = some o) : (onCreate host self m).run ⟨w, st⟩ =
      if o.mHasScript then
        (callEvent host (chars "onCreate") m).run ⟨w, w.lua.globals (cString o.mName) :: st⟩
      else .returned () ⟨w, st⟩ := by
  rw [onCreate_tells host st m found]
  by_cases script : o.mHasScript = true
  · rw [if_pos script, if_pos script, discard_run, injectScriptEvent_run found, if_pos script]
    cases (callEvent host (chars "onCreate") m).run ⟨w, w.lua.globals (cString o.mName) :: st⟩ <;>
      rfl
  · rw [if_neg script, if_neg script]

/-- Wherever an event of a bound object returns, the caller has lost its top value. -/
theorem callEvent_clears {g : Value} (bound : g.isUserdata = true) {method : List UInt8}
    {m : Eval Message} {v : Value} {st : List Value} {f : Frame}
    (returned : (callEvent host method m).run ⟨w, g :: v :: st⟩ = .returned () f) :
    f.stack = [] ∨ f.stack = st := by
  cases looked : (host.getTable g (.string (cString method))).run w with
  | stopped r w' => simp [callEvent_stopped bound looked] at returned
  | returned u w' =>
      rw [callEvent_found bound looked] at returned
      split at returned
      · rw [callMethod_run] at returned
        split at returned
        · exact .inl ((Ending.returned.inj returned).2 ▸ rfl)
        · split at returned
          · exact .inl ((Ending.returned.inj returned).2 ▸ rfl)
          · simp at returned
        · simp at returned
      · rw [pop_run (by simp)] at returned
        exact .inr ((Ending.returned.inj returned).2 ▸ rfl)

theorem newGameObject_result {address : Ptr} {arguments : List Value} {result : Option Value}
    {f : Frame}
    (returned : (newGameObject host address).run ⟨w, arguments.reverse⟩ = .returned result f) :
    result = some (.userdata w.lua.userdata.length) ↔
      ∃ v, arguments[3]? = some v ∧ host.tointeger v = 0 := by
  rcases newGameObject_accepted host w address arguments with short | ⟨g, undefined⟩ | ⟨accepted⟩
  · rw [newGameObject_short (by simpa using short)] at returned
    simp at returned
  · exact absurd (undefined.symm.trans returned) (by simp)
  obtain ⟨cls, name, tag, hasScript, extra, rfl, s, text, metatable, valid⟩ := accepted
  rw [newGameObject_run text valid] at returned
  split at returned
  next luaObject e created =>
    have live := Engine.luaNewGameObject_object created
    obtain ⟨⟨⟩, f₃, told, last⟩ := bind_eq_returned.mp returned
    obtain ⟨rfl, -⟩ := Ending.returned.inj last
    have bound : ((w.withUserdata luaObject metatable (cString s)).withEngine e).lua.globals
        (cString (cString s)) = .userdata w.lua.userdata.length := by
      rw [cString_cString]
      exact Function.update_self ..
    rw [onCreate_run live] at told
    simp only [List.getElem?_cons_succ, List.getElem?_cons_zero, Option.some.injEq,
      exists_eq_left']
    by_cases zero : host.tointeger hasScript = 0
    · rw [if_neg (by simp [zero])] at told
      obtain ⟨-, rfl⟩ := Ending.returned.inj told
      simp [zero]
    · rw [if_pos (by simp [zero]), bound] at told
      simp only [zero, iff_false]
      rcases callEvent_clears rfl told with empty | left
      · simp [empty]
      · rw [left]
        rintro same
        obtain rfl := Option.some.inj same
        simp [asMetatable] at valid
  next => simp at returned

end creation

/-- When events, calls of global functions and creations are balanced: an event when the
object has no script or its handler is called from an empty stack, a call when the
function exists and does not fail, and a creation when its object has no script. -/
theorem callbacks_neutral_iff (host : Host) (w : World) (st : List Value) :
    (∀ self o, w.engine.objects self = some o → ∀ method m,
      (Neutral st ((injectScriptEvent host self method m).run ⟨w, st⟩) ↔ (o.mHasScript = true →
        EventBalanced host w st (w.lua.globals (cString o.mName)) method m))) ∧
    (∀ functionName, Neutral st ((executeFunction host functionName).run ⟨w, st⟩) ↔
      CallBalanced host w (w.lua.globals (cString functionName))) ∧
    ∀ address result f, (newGameObject host address).run ⟨w, st⟩ = .returned result f →
      (result = some (.userdata w.lua.userdata.length) ↔
        ∃ v, st.reverse[3]? = some v ∧ host.tointeger v = 0) := by
  refine ⟨fun self o found method m => injectScriptEvent_neutral_iff found method m,
    executeFunction_neutral_iff, fun address result f returned => ?_⟩
  rw [← st.reverse_reverse] at returned
  exact newGameObject_result returned

def quietHost : Host where
  call _ _ := pure (.ok .nil)
  scan _ := none
  print _ := chars "0"
  toInteger bits := if bits = 0x3FF0000000000000 then 1 else 0
  toFloat _ := ⟨0⟩

def smallWorld (hasScript : Bool) : World where
  engine := (Engine.start [] []).setObject 16 (some ⟨1, chars "Bob", hasScript, fun _ => 0⟩)
  lua := State.empty.newTable.rawset 0 indexEvent (.table 0)

theorem smallWorld_creates : ∃ result f, (newGameObject quietHost 32).run ⟨smallWorld false,
    [.table 0, .string (chars "Ann"), .number 0, .number 0].reverse⟩ = .returned result f :=
  ⟨_, _, rfl⟩

/-- An event of an object without a script, and a creation of one. -/
theorem callbacks_neutral_small :
    Neutral [.nil] ((injectScriptEvent quietHost 16 (chars "onUpdate") (.ok .initialized)).run
      ⟨smallWorld false, [.nil]⟩) ∧
    ∃ f, (newGameObject quietHost 32).run ⟨smallWorld false,
        [.table 0, .string (chars "Ann"), .number 0, .number 0].reverse⟩ =
      .returned (some (.userdata 0)) f := by
  obtain ⟨result, f, returned⟩ := smallWorld_creates
  constructor
  · exact ((callbacks_neutral_iff quietHost (smallWorld false) [.nil]).1 16 _ rfl _ _).mpr (by simp)
  · have userdata := ((callbacks_neutral_iff quietHost (smallWorld false) _).2.2 32 result f
      returned).mpr ⟨.number 0, rfl, rfl⟩
    exact ⟨f, userdata ▸ returned⟩

/-- An event without a handler loses the caller's value, a missing function leaves nil,
and a creation with a script returns the class. -/
theorem not_callbacks_neutral :
    ¬ Neutral [.nil] ((injectScriptEvent quietHost 16 (chars "onUpdate") (.ok .initialized)).run
      ⟨smallWorld true, [.nil]⟩) ∧
    ¬ Neutral [] ((executeFunction quietHost (chars "init")).run ⟨smallWorld true, []⟩) ∧
    ∃ f, (newGameObject quietHost 32).run ⟨smallWorld true,
        [.table 0, .string (chars "Ann"), .number 0, .number 0x3FF0000000000000].reverse⟩ =
      .returned (some (.table 0)) f :=
  ⟨fun same => List.cons_ne_nil _ _ (same : [] = [Value.nil]).symm,
    fun same => List.cons_ne_nil _ _ (same : [Value.nil] = []), _, rfl⟩

end Ssuge

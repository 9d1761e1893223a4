import Ssuge.ScriptStack

/-! Creations from scripts that fail. `_l_newGameObject` sets the global before it creates
the object, so a name that is taken loses its global to a userdata that was never
written, and it has the object in the map before it copies the name. -/

namespace Ssuge

open CString Procedure Lua Ssuge.Frame

def World.globalPtr (w : World) (name : Name) : Option Ptr :=
  match w.lua.globals name with
  | .userdata u =>
      match w.lua.userdata[u]?.map Userdata.payload with
      | some (.gameObject luaObject) =>
          w.engine.luaObjects[luaObject]?.join.bind LuaGameObject.mPtr
      | _ => none
  | _ => none

/-- The global variable of a name is the object that is stored under it. -/
def World.Binds (w : World) (name : Name) : Prop :=
  ∃ p, w.globalPtr name = some p ∧ w.engine.mObjects.find? name = some p

/-- The object map, a global variable and the buffers that there were are the same. -/
structure World.Untouched (w w' : World) (name : Option Name) : Prop where
  objects : w'.engine.mObjects = w.engine.mObjects
  global : ∀ n ∈ name, w'.lua.globals n = w.lua.globals n
  buffers : ∀ i < w.engine.luaObjects.length, w'.engine.luaObjects[i]? = w.engine.luaObjects[i]?

/-- A creation binds its name if it returns, and else has changed nothing. -/
def AllOrNothing {α : Type} (w : World) (name : Option Name) : Ending Stop Frame α → Prop
  | .returned _ f => ∃ n ∈ name, f.world.Binds n
  | .stopped r f => r ≠ .undefined ∧ w.Untouched f.world name

/-- What the answers of the host to an event make of a creation, by the world `w` before it and
the world `created` in which the event is told: a look-up or a call that returns leaves the name
bound, one that stops leaves everything as it was before the creation, and an error of the script
is a string. -/
def EventKeeps (host : Host) (w created : World) (name : Name) (g : Value) (method : List UInt8)
    (m : Eval Message) : Prop :=
  match (host.getTable g (.string (cString method))).run created with
  | .stopped r looked => r ≠ .undefined ∧ w.Untouched looked (some name)
  | .returned v looked =>
      if v.isFunction then
        match (host.call v [g, .userdata looked.lua.userdata.length]).run
          (looked.withMessage m) with
        | .stopped r called => r ≠ .undefined ∧ w.Untouched called (some name)
        | .returned (.ok _) called => called.Binds name
        | .returned (.error e) called => (host.string? e).isSome = true ∧ called.Binds name
      else looked.Binds name

def argumentName (host : Host) (arguments : List Value) : Option Name :=
  (arguments[1]?.bind host.string?).map cString

section creation

variable {host : Host} {w : World} {arguments : List Value}

theorem World.Untouched.refl (w : World) (name : Option Name) : w.Untouched w name :=
  ⟨rfl, fun _ _ => rfl, fun _ _ => rfl⟩

theorem allOrNothing_told {α : Type} {name : Option Name} {p : LuaProc Unit} {q : LuaProc α}
    {f : Frame} (told : p.run f = (discard q).run f) :
    AllOrNothing w name ((p >>= fun _ => returnTop).run f) ↔ AllOrNothing w name (q.run f) := by
  rw [discard_run] at told
  cases ran : q.run f with
  | returned a f' => rw [ran] at told; rw [bind_of_returned told]; rfl
  | stopped r f' => rw [ran] at told; rw [bind_of_stopped told]; rfl

theorem allOrNothing_returned {α : Type} (name : Name) (value : α) (f : Frame) :
    AllOrNothing w (some name) (.returned value f) ↔ f.world.Binds name := by
  simp [AllOrNothing]

theorem callMethod_allOrNothing_iff (looked : World) (name : Name) (v g : Value)
    (st : List Value) (m : Eval Message) :
    AllOrNothing w (some name) ((callMethod host m).run ⟨looked, v :: g :: st⟩) ↔
      match (host.call v [g, .userdata looked.lua.userdata.length]).run
        (looked.withMessage m) with
      | .stopped r called => r ≠ .undefined ∧ w.Untouched called (some name)
      | .returned (.ok _) called => called.Binds name
      | .returned (.error e) called =>
          (host.string? e).isSome = true ∧ called.Binds name := by
  rw [callMethod_run]
  cases (host.call v [g, .userdata looked.lua.userdata.length]).run (looked.withMessage m) with
  | stopped r called => rfl
  | returned answer called =>
      cases answer with
      | ok _ => exact allOrNothing_returned ..
      | error e => by_cases text : (host.string? e).isSome <;> simp [AllOrNothing, text]

/-- Below the object of the event there are two values, so no exit pops too much. -/
theorem callEvent_allOrNothing_iff (created : World) (name : Name) {g : Value}
    (bound : g.isUserdata = true) (u c : Value) (method : List UInt8) (m : Eval Message) :
    AllOrNothing w (some name) ((callEvent host method m).run ⟨created, [g, u, c]⟩) ↔
      EventKeeps host w created name g method m := by
  rw [EventKeeps]
  cases looked : (host.getTable g (.string (cString method))).run created with
  | stopped r w' => rw [callEvent_stopped bound looked]; rfl
  | returned v w' =>
      rw [callEvent_found bound looked]
      by_cases handler : v.isFunction = true
      · simp only [handler, if_true]
        exact callMethod_allOrNothing_iff w' name v g [u, c] m
      · simp only [handler, Bool.false_eq_true, if_false]
        rw [pop_run (by simp)]
        exact allOrNothing_returned ..

theorem injectScriptEvent_allOrNothing_iff {created : World} {self : Ptr} {o : GameObject}
    (found : created.engine.objects self = some o) (script : o.mHasScript = true)
    (bound : (created.lua.globals (cString o.mName)).isUserdata = true) (name : Name)
    (u c : Value) (method : List UInt8) (m : Eval Message) :
    AllOrNothing w (some name) ((injectScriptEvent host self method m).run ⟨created, [u, c]⟩) ↔
      EventKeeps host w created name (created.lua.globals (cString o.mName)) method m := by
  rw [injectScriptEvent_run found, if_pos script,
    ← callEvent_allOrNothing_iff created name bound u c method m]
  cases (callEvent host method m).run ⟨created, [created.lua.globals (cString o.mName), u, c]⟩ <;>
    rfl

namespace Accepted

variable (a : Accepted host arguments)

def title : Name := cString a.s

theorem argumentName : argumentName host arguments = some a.title := by
  simp [Ssuge.argumentName, a.shape, a.text, title]

def bound (w : World) (e : Engine) : World :=
  (w.withUserdata w.engine.luaObjects.length a.metatable a.title).withEngine e

def created (w : World) (address : Ptr) : World :=
  a.bound w (w.engine.withScripted address (host.tointeger a.tag) a.title
    (host.tointeger a.hasScript ≠ 0))

def message : Eval Message := a.extra.foldlM (getParam host) .initialized

def pending (w : World) : List Value := [.userdata w.lua.userdata.length, a.cls]

theorem bound_global (w : World) (e : Engine) :
    (a.bound w e).lua.globals a.title = .userdata w.lua.userdata.length := Function.update_self ..

theorem bound_touched (live : w.lua.GlobalsLive) (e : Engine) :
    ¬ w.Untouched (a.bound w e) (some a.title) := by
  intro same
  have global := (same.global a.title rfl).symm.trans (a.bound_global w e)
  exact Nat.lt_irrefl _ (live _ _ global)

theorem created_object (w : World) (address : Ptr) :
    (a.created w address).engine.objects address = some ⟨(host.tointeger a.tag).toUInt32, a.title,
      host.tointeger a.hasScript ≠ 0, fun _ => 0⟩ := by
  simp [created, bound, World.withEngine, Engine.withScripted, Engine.setObject]

theorem created_binds (w : World) (address : Ptr) : (a.created w address).Binds a.title := by
  refine ⟨address, ?_, ?_⟩
  · rw [World.globalPtr, created, bound_global]
    simp [bound, World.withUserdata, World.withLua, World.withEngine, State.setGlobal,
      State.setMetatable, State.newUserdata, Engine.withScripted, Engine.withLuaObject,
      Engine.withObject, Engine.setObject, Engine.constructed]
  · simp [created, bound, World.withEngine, Engine.withScripted, Engine.setObject]

theorem run (formed : w.engine.WellFormed) (address : Ptr) :
    (newGameObject host address).run ⟨w, arguments.reverse⟩ =
      if a.title ∈ w.engine.sceneNodes then
        .stopped (.threw .ogre) ⟨a.bound w (w.engine.withLuaObject ⟨none, none⟩), a.pending w⟩
      else if a.title.length < Engine.classNameSize then
        (onCreate host address a.message >>= fun _ => returnTop).run
          ⟨a.created w address, a.pending w⟩
      else .stopped .aborted ⟨a.bound w ((w.engine.withLuaObject ⟨some address, none⟩).withObject
        address (host.tointeger a.tag).toUInt32 a.title), a.pending w⟩ := by
  have ran := newGameObject_run (w := w) a.text a.valid a.tag a.hasScript a.extra address
  rw [← a.shape, ← title] at ran
  rw [ran]
  by_cases taken : a.title ∈ w.engine.sceneNodes
  · rw [if_pos taken, Engine.luaNewGameObject_taken taken]
    rfl
  · rw [if_neg taken, Engine.luaNewGameObject_free formed taken]
    by_cases fits : a.title.length < Engine.classNameSize
    · rw [if_pos fits, if_pos fits]
      rfl
    · rw [if_neg fits, if_neg fits]
      rfl

theorem cString_title : cString a.title = a.title := by
  rw [title, cString_cString]

theorem told_iff (w : World) (address : Ptr) (script : host.tointeger a.hasScript ≠ 0) :
    AllOrNothing w (some a.title) ((injectScriptEvent host address (chars "onCreate")
        a.message).run ⟨a.created w address, a.pending w⟩) ↔
      EventKeeps host w (a.created w address) a.title (.userdata w.lua.userdata.length)
        (chars "onCreate") a.message := by
  have global : (a.created w address).lua.globals (cString a.title) =
      .userdata w.lua.userdata.length := by
    rw [cString_title]
    exact a.bound_global w _
  rw [pending, injectScriptEvent_allOrNothing_iff (a.created_object w address)
    (by simpa using script) (by rw [global]; rfl) a.title (.userdata w.lua.userdata.length) a.cls
    (chars "onCreate") a.message, global]

/-- Whether a creation is all or nothing depends on its arguments up to `onCreate`, and
from there on what the host answers. -/
theorem allOrNothing_iff (formed : w.engine.WellFormed) (live : w.lua.GlobalsLive)
    (address : Ptr) :
    AllOrNothing w (some a.title) ((newGameObject host address).run ⟨w, arguments.reverse⟩) ↔
      a.title ∉ w.engine.sceneNodes ∧ a.title.length < Engine.classNameSize ∧
        (host.tointeger a.hasScript ≠ 0 → EventKeeps host w (a.created w address) a.title
          (.userdata w.lua.userdata.length) (chars "onCreate") a.message) := by
  rw [a.run formed address]
  by_cases taken : a.title ∈ w.engine.sceneNodes
  · rw [if_pos taken]
    simp only [taken, not_true, false_and, iff_false]
    rintro ⟨-, same⟩
    exact a.bound_touched live _ same
  rw [if_neg taken]
  by_cases fits : a.title.length < Engine.classNameSize
  · rw [if_pos fits]
    simp only [taken, not_false_eq_true, fits, true_and]
    have told := onCreate_tells host (a.pending w) a.message (a.created_object w address)
    by_cases script : host.tointeger a.hasScript = 0
    · rw [if_neg (by simp [script])] at told
      rw [bind_of_returned told]
      exact iff_of_true ⟨a.title, rfl, a.created_binds w address⟩ fun scripted =>
        absurd script scripted
    · rw [if_pos (by simp [script])] at told
      rw [allOrNothing_told told, a.told_iff w address script]
      exact ⟨fun kept _ => kept, fun kept => kept script⟩
  · rw [if_neg fits]
    simp only [fits, false_and, and_false, iff_false]
    rintro ⟨-, same⟩
    exact a.bound_touched live _ same

end Accepted

end creation

/-- A creation from a script is all or nothing when there are fewer than four arguments, or
when the class is a table or nil, the name a string that no scene node has and that fits
its buffer, and the host answers the event of the new object so. -/
theorem creation_allOrNothing_iff (host : Host) {w : World} (formed : w.engine.WellFormed)
    (live : w.lua.GlobalsLive) (address : Ptr) (arguments : List Value) :
    AllOrNothing w (argumentName host arguments)
        ((newGameObject host address).run ⟨w, arguments.reverse⟩) ↔
      arguments.length < 4 ∨ ∃ a : Accepted host arguments,
        a.title ∉ w.engine.sceneNodes ∧ a.title.length < Engine.classNameSize ∧
          (host.tointeger a.hasScript ≠ 0 → EventKeeps host w (a.created w address) a.title
            (.userdata w.lua.userdata.length) (chars "onCreate") a.message) := by
  constructor
  · intro kept
    rcases newGameObject_accepted host w address arguments with short | ⟨f, undefined⟩ | ⟨⟨a⟩⟩
    · exact .inl short
    · rw [undefined] at kept
      exact absurd rfl kept.1
    · rw [a.argumentName] at kept
      exact .inr ⟨a, (a.allOrNothing_iff formed live address).mp kept⟩
  · rintro (short | ⟨a, kept⟩)
    · rw [newGameObject_short (by simpa using short)]
      exact ⟨by simp, .refl w _⟩
    · rw [a.argumentName]
      exact (a.allOrNothing_iff formed live address).mpr kept

def classOnly : World where
  engine := .start [] []
  lua := State.empty.newTable.rawset 0 indexEvent (.table 0)

def ann : List Value := [.table 0, .string (chars "Ann"), .number 0, .number 0]

def withAnn : World := ((newGameObject quietHost 16).run ⟨classOnly, ann.reverse⟩).state.world

theorem creation_allOrNothing_ann : AllOrNothing classOnly (argumentName quietHost ann)
    ((newGameObject quietHost 16).run ⟨classOnly, ann.reverse⟩) :=
  (creation_allOrNothing_iff quietHost (Engine.start_wellFormed [] [])
    (fun _ _ bound => by cases bound) 16 ann).mpr
    (.inr ⟨⟨_, _, _, _, _, rfl, _, rfl, _, rfl⟩, by decide, by decide,
      fun scripted => absurd (by decide) scripted⟩)

/-- The second creation with the name fails, and its global is no longer the object. -/
theorem not_creation_allOrNothing : ¬ AllOrNothing withAnn (argumentName quietHost ann)
    ((newGameObject quietHost 32).run ⟨withAnn, ann.reverse⟩) := by
  rintro ⟨-, same⟩
  have global := same.global (chars "Ann") rfl
  revert global
  decide

end Ssuge

import Ssuge.ObjectRegistry
import Ssuge.GuardedRun

/-! Runs of the engine: any sequence of the operations that create and remove game
objects and components, register and forget pointers to them, and draw frames. What
a script does inside one of these is a step of its own. A step that throws is a
step: whoever catches the exception goes on from the state it left. -/

namespace Ssuge.Engine

open CString Procedure GuardedRun

inductive Op
  | createGameObject (address : Ptr) (tag : UInt32) (title : Name)
  | luaNewGameObject (address : Ptr) (tag : Int32) (name : Name) (hasScript : Bool)
  | createComponent (t : ComponentType) (address owner : Ptr)
  | removeGameObject (title : Name)
  | removeGameObjectByTag (tag : Int32)
  | addListener (gObject : Ptr)
  | removeListener (gObject : Ptr)
  | luaInputRegister (userdata : Nat)
  | setListener (gObject : Ptr)
  | setActiveCamera (cam : Ptr)
  | collect (userdata : Nat)
  | frame

/-- Lua's collector frees the buffer of a userdata that no script can reach. -/
def collect (userdata : Nat) : EngineProc Unit :=
  modify fun e => { e with luaObjects := e.luaObjects.set userdata none }

def followAll : List Ptr → EngineProc Unit
  | [] => pure ()
  | p :: ps => do
      let _ ← object p
      followAll ps

/-- What a frame follows: the listeners it notifies, the sound listener, and every
object of the map. -/
def frame : EngineProc Unit := do
  followAll (← get).mInputManager.mInputListeners
  let _ ← updateSound
  followAll (← get).mObjects.values

def Op.run : Op → EngineProc Unit
  | .createGameObject address tag title => discard (Engine.createGameObject address tag title)
  | .luaNewGameObject address tag name hasScript =>
      discard (Engine.luaNewGameObject address tag name hasScript)
  | .createComponent t address owner => discard (Engine.createComponent t address owner)
  | .removeGameObject title => discard (Engine.removeGameObject title)
  | .removeGameObjectByTag tag => discard (Engine.removeGameObjectByTag tag)
  | .addListener gObject => discard (Engine.addListener gObject)
  | .removeListener gObject => discard (Engine.removeListener gObject)
  | .luaInputRegister userdata => discard (Engine.luaInputRegister userdata)
  | .setListener gObject => Engine.setListener gObject
  | .setActiveCamera cam => discard (Engine.setActiveCamera cam)
  | .collect userdata => Engine.collect userdata
  | .frame => Engine.frame

def Op.Allocatable (e : Engine) : Op → Prop
  | .createGameObject address .. | .luaNewGameObject address .. | .createComponent _ address _ =>
      e.Fresh address
  | _ => True

instance (e : Engine) : (op : Op) → Decidable (op.Allocatable e)
  | .createGameObject address .. | .luaNewGameObject address .. | .createComponent _ address _ =>
      inferInstanceAs (Decidable (e.Fresh address))
  | .removeGameObject _ | .removeGameObjectByTag _ | .addListener _ | .removeListener _
  | .luaInputRegister _ | .setListener _ | .setActiveCamera _ | .collect _ | .frame =>
      isTrue trivial

def settle {α : Type} : Ending Stop Engine α → Option Engine
  | .returned _ e => some e
  | .stopped (.threw _) e => some e
  | .stopped _ _ => none

def step (e : Engine) (op : Op) : Option Engine :=
  if op.Allocatable e then settle (op.run.run e) else none

theorem step_of_run {α : Type} {e : Engine} (op : Op) (allocatable : op.Allocatable e)
    {p : EngineProc α} (shape : op.run = discard p) : step e op = settle (p.run e) := by
  rw [step, if_pos allocatable, shape, discard_run]
  cases p.run e with
  | returned a e' => rfl
  | stopped s e' => cases s <;> rfl

section components

variable {e : Engine} {t : ComponentType} {address owner : Ptr} {o : GameObject}

/-- The engine after `allocate`: the slot of the owner is not set yet. -/
def allocated (e : Engine) (t : ComponentType) (address owner : Ptr) (o : GameObject) : Engine :=
  let camera := o.mName ++ chars "_camera"
  { e.setComponent address (some ⟨t, owner, true⟩) with
    cameras := if t = .camera then camera :: e.cameras else e.cameras
    msInstances := Function.update e.msInstances t (e.msInstances t ++ [address]) }

def withComponent (e : Engine) (t : ComponentType) (address owner : Ptr) (o : GameObject) :
    Engine :=
  (e.allocated t address owner o).setObject owner
    (some { o with mComponents := Function.update o.mComponents t address })

theorem createComponent_taken (live : e.objects owner = some o) (camera : t = .camera)
    (taken : o.mName ++ chars "_camera" ∈ e.cameras) :
    (createComponent t address owner).run e = .stopped (.threw .ogre) e := by
  have refused : (newComponent t address owner).run e = .stopped (.threw .ogre) e := by
    unfold newComponent
    rw [bind_of_returned (object_run live), bind_of_stopped]
    unfold createCamera
    rw [if_pos camera, bind_get_run,
      bind_of_stopped (require_neg (not_not.mpr taken) _ _)]
  unfold createComponent
  rw [bind_of_stopped]
  unfold allocate
  rw [bind_of_stopped refused]

theorem createCamera_run {name : Name} (free : t = .camera → name ∉ e.cameras) :
    (createCamera t name).run e = .returned ()
      { e with cameras := if t = .camera then name :: e.cameras else e.cameras } := by
  rw [createCamera]
  split
  next camera =>
    rw [bind_get_run, bind_of_returned (require_pos (free camera) _ _), modify_run]
  · rw [pure_run]

theorem allocate_free (live : e.objects owner = some o)
    (free : t = .camera → o.mName ++ chars "_camera" ∉ e.cameras) :
    (allocate t address owner).run e = .returned address (e.allocated t address owner o) := by
  unfold allocate
  rw [newComponent, bind_of_returned (a := ())
    (by rw [bind_of_returned (object_run live), bind_of_returned (createCamera_run free),
      modify_run]), bind_modify_run, pure_run]
  rfl

theorem createComponent_free (live : e.objects owner = some o)
    (free : t = .camera → o.mName ++ chars "_camera" ∉ e.cameras) :
    (createComponent t address owner).run e =
      .returned address (e.withComponent t address owner o) := by
  have still : (e.allocated t address owner o).objects owner = some o := live
  unfold createComponent
  rw [bind_of_returned (allocate_free live free),
    bind_of_returned (object_run still), bind_modify_run, pure_run]
  rfl

end components

section scripts

variable {e : Engine} {address : Ptr} {tag : Int32} {name : Name} {hasScript : Bool}

def withLuaObject (e : Engine) (go : LuaGameObject) : Engine :=
  { e with luaObjects := e.luaObjects ++ [some go] }

def withScripted (e : Engine) (address : Ptr) (tag : Int32) (name : Name) (hasScript : Bool) :
    Engine :=
  ((e.withLuaObject ⟨some address, some name⟩).withObject address tag.toUInt32 name).setObject
    address (some ⟨tag.toUInt32, name, hasScript, fun _ => 0⟩)

theorem WellFormed.withLuaObject (h : e.WellFormed) (go : LuaGameObject) :
    (e.withLuaObject go).WellFormed := ⟨h.stored, h.listed, h.slots⟩

theorem finishGameObject_taken (userdata : Nat) (address : Ptr) (tag : Int32)
    (hasScript : Bool) (taken : name ∈ e.sceneNodes) :
    (finishGameObject userdata address tag name hasScript).run e =
      .stopped (.threw .ogre) e := by
  unfold finishGameObject
  rw [bind_of_stopped (createGameObject_taken address _ taken)]

theorem finishGameObject_free (h : e.WellFormed) (address : Ptr) (tag : Int32)
    (hasScript : Bool) (free : name ∉ e.sceneNodes) :
    (finishGameObject e.luaObjects.length address tag name hasScript).run
        (e.withLuaObject ⟨none, none⟩) =
      if name.length < classNameSize then .returned () (e.withScripted address tag name hasScript)
      else .stopped .aborted
        ((e.withLuaObject ⟨some address, none⟩).withObject address tag.toUInt32 name) := by
  have created := createGameObject_free (h.withLuaObject ⟨none, none⟩) address tag.toUInt32 free
  have first : (setLuaObject e.luaObjects.length ⟨some address, none⟩).run
      ((e.withLuaObject ⟨none, none⟩).withObject address tag.toUInt32 name) = .returned ()
      ((e.withLuaObject ⟨some address, none⟩).withObject address tag.toUInt32 name) := by
    simp [setLuaObject, withLuaObject, withObject, constructed, setObject]
  have second : (setLuaObject e.luaObjects.length ⟨some address, some name⟩).run
      ((e.withLuaObject ⟨some address, none⟩).withObject address tag.toUInt32 name) = .returned ()
      ((e.withLuaObject ⟨some address, some name⟩).withObject address tag.toUInt32 name) := by
    simp [setLuaObject, withLuaObject, withObject, constructed, setObject]
  have live : ((e.withLuaObject ⟨some address, some name⟩).withObject address tag.toUInt32
      name).objects address = some ⟨tag.toUInt32, name, false, fun _ => 0⟩ := by simp
  unfold finishGameObject
  rw [bind_of_returned created, bind_of_returned first]
  split
  next fits =>
    rw [bind_of_returned (require_pos fits _ _), bind_of_returned second,
      bind_of_returned (object_run live), modify_run]
    rfl
  next long => rw [bind_of_stopped (require_neg long _ _)]

theorem finishGameObject_object {userdata : Nat} {e' : Engine}
    (returned : (finishGameObject userdata address tag name hasScript).run e = .returned () e') :
    e'.objects address = some ⟨tag.toUInt32, name, hasScript, fun _ => 0⟩ := by
  obtain ⟨p, e₁, created, rest⟩ := bind_eq_returned.mp returned
  obtain ⟨rfl, live⟩ := createGameObject_returned created
  have read : ∀ buffers, (object p).run { e₁ with luaObjects := buffers } = .returned _
      { e₁ with luaObjects := buffers } := fun _ => object_run live
  rw [setLuaObject, bind_modify_run] at rest
  by_cases fits : name.length < classNameSize
  · rw [bind_of_returned (require_pos fits _ _), setLuaObject, bind_modify_run,
      bind_of_returned (read _), modify_run] at rest
    obtain ⟨-, rfl⟩ := Ending.returned.inj rest
    simp [setObject]
  · rw [bind_of_stopped (require_neg fits _ _)] at rest
    simp at rest

theorem newLuaObject_run (e : Engine) : newLuaObject.run e =
    .returned e.luaObjects.length (e.withLuaObject ⟨none, none⟩) := rfl

theorem luaNewGameObject_object {luaObject : Nat} {e' : Engine}
    (returned : (luaNewGameObject address tag name hasScript).run e = .returned luaObject e') :
    e'.objects address = some ⟨tag.toUInt32, name, hasScript, fun _ => 0⟩ := by
  rw [luaNewGameObject, bind_of_returned (newLuaObject_run e)] at returned
  obtain ⟨⟨⟩, e₁, finished, rest⟩ := bind_eq_returned.mp returned
  obtain ⟨-, rfl⟩ := Ending.returned.inj rest
  exact finishGameObject_object finished

theorem luaNewGameObject_taken (taken : name ∈ e.sceneNodes) :
    (luaNewGameObject address tag name hasScript).run e =
      .stopped (.threw .ogre) (e.withLuaObject ⟨none, none⟩) := by
  have refused := finishGameObject_taken (e := e.withLuaObject ⟨none, none⟩)
    e.luaObjects.length address tag hasScript taken
  unfold luaNewGameObject
  rw [bind_of_returned (newLuaObject_run e), bind_of_stopped refused]

theorem luaNewGameObject_free (h : e.WellFormed) (free : name ∉ e.sceneNodes) :
    (luaNewGameObject address tag name hasScript).run e =
      if name.length < classNameSize
      then .returned e.luaObjects.length (e.withScripted address tag name hasScript)
      else .stopped .aborted
        ((e.withLuaObject ⟨some address, none⟩).withObject address tag.toUInt32 name) := by
  have finished := finishGameObject_free h address tag hasScript free
  unfold luaNewGameObject
  rw [bind_of_returned (newLuaObject_run e)]
  split
  next fits =>
    rw [if_pos fits] at finished
    exact bind_of_returned finished _
  next long =>
    rw [if_neg long] at finished
    exact bind_of_stopped finished _

theorem luaNewGameObject_returned (h : e.WellFormed) {e' : Engine} {userdata : Nat}
    (returned : (luaNewGameObject address tag name hasScript).run e = .returned userdata e') :
    name ∉ e.sceneNodes ∧ userdata = e.luaObjects.length ∧
      e' = e.withScripted address tag name hasScript := by
  by_cases taken : name ∈ e.sceneNodes
  · simp [luaNewGameObject_taken taken] at returned
  · rw [luaNewGameObject_free h taken] at returned
    split at returned
    · obtain ⟨rfl, rfl⟩ := Ending.returned.inj returned
      exact ⟨taken, rfl, rfl⟩
    · simp at returned

theorem luaNewGameObject_stopped (h : e.WellFormed) {e' : Engine} {reason : Stop}
    (stopped : (luaNewGameObject address tag name hasScript).run e = .stopped reason e') :
    reason ≠ .undefined := by
  by_cases taken : name ∈ e.sceneNodes
  · rw [luaNewGameObject_taken taken] at stopped
    obtain ⟨rfl, -⟩ := Ending.stopped.inj stopped
    simp
  · rw [luaNewGameObject_free h taken] at stopped
    split at stopped
    · simp at stopped
    · obtain ⟨rfl, -⟩ := Ending.stopped.inj stopped
      simp

end scripts

theorem object_state (e : Engine) (p : Ptr) : ((object p).run e).state = e := by
  cases alive : e.objects p with
  | some o =>
      rw [object_run alive]
      rfl
  | none =>
      rw [object_dead alive]
      rfl

theorem followAll_state (e : Engine) (ps : List Ptr) : ((followAll ps).run e).state = e := by
  induction ps with
  | nil => rfl
  | cons p ps ih => exact bind_state (object_state e p) fun _ => ih

section steps

variable {e e' : Engine}

theorem step_createGameObject (h : e.WellFormed) {address : Ptr} (fresh : e.Fresh address)
    (tag : UInt32) (title : Name) : step e (.createGameObject address tag title) =
      some (if title ∈ e.sceneNodes then e else e.withObject address tag title) := by
  rw [step_of_run (.createGameObject address tag title) fresh rfl]
  split
  next taken => rw [createGameObject_taken address tag taken, settle]
  next free => rw [createGameObject_free h address tag free, settle]

theorem step_luaNewGameObject (h : e.WellFormed) {address : Ptr} (fresh : e.Fresh address)
    (tag : Int32) (name : Name) (hasScript : Bool) :
    step e (.luaNewGameObject address tag name hasScript) =
      if name ∈ e.sceneNodes then some (e.withLuaObject ⟨none, none⟩)
      else if name.length < classNameSize then some (e.withScripted address tag name hasScript)
      else none := by
  rw [step_of_run (.luaNewGameObject address tag name hasScript) fresh rfl]
  split
  next taken => rw [luaNewGameObject_taken taken, settle]
  next free =>
    rw [luaNewGameObject_free h free]
    split <;> rfl

theorem step_createComponent {t : ComponentType} {address owner : Ptr} (fresh : e.Fresh address)
    {o : GameObject} (live : e.objects owner = some o) :
    step e (.createComponent t address owner) =
      some (if t = .camera ∧ o.mName ++ chars "_camera" ∈ e.cameras then e
        else e.withComponent t address owner o) := by
  rw [step_of_run (.createComponent t address owner) fresh rfl]
  split
  next taken => rw [createComponent_taken live taken.1 taken.2, settle]
  next free =>
    rw [createComponent_free live fun camera taken => free ⟨camera, taken⟩, settle]

theorem step_createComponent_dead {t : ComponentType} {address owner : Ptr}
    (fresh : e.Fresh address) (dead : e.objects owner = none) :
    step e (.createComponent t address owner) = none := by
  rw [step_of_run (.createComponent t address owner) fresh rfl]
  have refused : (allocate t address owner).run e = .stopped .undefined e := by
    unfold allocate
    rw [bind_of_stopped]
    unfold newComponent
    rw [bind_of_stopped (object_dead dead)]
  unfold createComponent
  rw [bind_of_stopped refused]
  rfl

theorem step_removeGameObject (h : e.WellFormed) (title : Name) :
    ∃ titles e', step e (.removeGameObject title) = some e' ∧ Removals e titles e' ∧
      ∀ n, n ∈ titles ↔ n = title ∧ ∃ p, e.mObjects.find? n = some p := by
  obtain ⟨titles, e', code, returned, removals, names⟩ := removeGameObject_run title h
  refine ⟨titles, e', ?_, removals, names⟩
  rw [step_of_run (.removeGameObject title) trivial rfl, returned, settle]

theorem step_removeGameObjectByTag (h : e.WellFormed) (tag : Int32) :
    ∃ titles e', step e (.removeGameObjectByTag tag) = some e' ∧ Removals e titles e' ∧
      ∀ n, n ∈ titles ↔ e.Tagged tag n := by
  obtain ⟨titles, e', returned, removals, names⟩ := removeGameObjectByTag_run tag h
  refine ⟨titles, e', ?_, removals, names⟩
  rw [step_of_run (.removeGameObjectByTag tag) trivial rfl, returned, settle]

def withManager (e : Engine) (m : InputManager) : Engine := { e with mInputManager := m }

theorem step_addListener (p : Ptr) :
    step e (.addListener p) = some (e.withManager (e.mInputManager.addListener p).1) := rfl

theorem step_setListener (p : Ptr) :
    step e (.setListener p) = some { e with mListener := p } := rfl

theorem step_removeListener (p : Ptr) :
    step e (.removeListener p) = some (e.withManager (e.mInputManager.removeListener p).1) := rfl

theorem step_luaInputRegister {userdata : Nat}
    (returned : step e (.luaInputRegister userdata) = some e') :
    ∃ go p, e.luaObjects[userdata]?.join = some go ∧ go.mPtr = some p ∧
      e' = e.withManager (e.mInputManager.addListener p).1 := by
  rw [step_of_run (.luaInputRegister userdata) trivial rfl, luaInputRegister] at returned
  cases buffer : e.luaObjects[userdata]?.join with
  | none =>
      rw [bind_of_stopped (e := .undefined) (t := e)
        (by rw [luaPtr, bind_get_run, buffer, bind_none_run])] at returned
      simp [settle] at returned
  | some go =>
      cases ptr : go.mPtr with
      | none =>
          rw [bind_of_stopped (e := .undefined) (t := e)
            (by rw [luaPtr, bind_get_run, buffer, bind_some_run, ptr, orStop_none])] at returned
          simp [settle] at returned
      | some p =>
          rw [bind_of_returned (a := p) (t := e)
            (by rw [luaPtr, bind_get_run, buffer, bind_some_run, ptr, orStop_some])] at returned
          exact ⟨go, p, rfl, ptr, (Option.some.inj returned).symm⟩

theorem setActiveCamera_state (e : Engine) (p : Ptr) : ((setActiveCamera p).run e).state = e := by
  rw [setActiveCamera]
  split
  · rfl
  · apply bind_state (object_state e p)
    intro o
    split
    · rfl
    · rw [bind_get_run]
      cases e.components (o.mComponents .camera) <;> rfl

theorem settle_state {α : Type} {ending : Ending Stop Engine α} (h : settle ending = some e') :
    e' = ending.state := by
  cases ending with
  | returned a s => exact (Option.some.inj h).symm
  | stopped reason s =>
      cases reason with
      | threw thrown => exact (Option.some.inj h).symm
      | raised => simp [settle] at h
      | aborted => simp [settle] at h
      | undefined => simp [settle] at h

theorem step_setActiveCamera {p : Ptr} (returned : step e (.setActiveCamera p) = some e') :
    e' = e := by
  rw [step_of_run (.setActiveCamera p) trivial rfl] at returned
  rw [settle_state returned, setActiveCamera_state]

theorem updateSound_state (e : Engine) : (updateSound.run e).state = e := by
  unfold updateSound
  rw [bind_get_run]
  split
  · rfl
  · exact bind_state (object_state e _) fun _ => rfl

theorem frame_state (e : Engine) : (frame.run e).state = e := by
  unfold frame
  rw [bind_get_run]
  exact bind_state (followAll_state e _) fun _ =>
    bind_state (updateSound_state e) fun _ => followAll_state e _

theorem step_frame (returned : step e .frame = some e') : e' = e := by
  have allocatable : Op.Allocatable e .frame := trivial
  rw [step, if_pos allocatable] at returned
  rw [settle_state returned]
  exact frame_state e

/-- What a step can do in a well-formed engine. -/
inductive Effect (e : Engine) : Op → Engine → Prop
  | createTaken {address : Ptr} {tag : UInt32} {title : Name} :
      Effect e (.createGameObject address tag title) e
  | create {address : Ptr} {tag : UInt32} {title : Name} : e.Fresh address →
      title ∉ e.sceneNodes →
      Effect e (.createGameObject address tag title) (e.withObject address tag title)
  | luaTaken {address : Ptr} {tag : Int32} {name : Name} {hasScript : Bool} : e.Fresh address →
      name ∈ e.sceneNodes →
      Effect e (.luaNewGameObject address tag name hasScript) (e.withLuaObject ⟨none, none⟩)
  | luaCreate {address : Ptr} {tag : Int32} {name : Name} {hasScript : Bool} :
      e.Fresh address → name ∉ e.sceneNodes →
      Effect e (.luaNewGameObject address tag name hasScript)
        (e.withScripted address tag name hasScript)
  | componentTaken {t : ComponentType} {address owner : Ptr} :
      Effect e (.createComponent t address owner) e
  | component {t : ComponentType} {address owner : Ptr} {o : GameObject} : e.Fresh address →
      e.objects owner = some o →
      Effect e (.createComponent t address owner) (e.withComponent t address owner o)
  | remove {title : Name} {titles : List Name} {e' : Engine} : Removals e titles e' →
      (∀ n, n ∈ titles ↔ n = title ∧ ∃ p, e.mObjects.find? n = some p) →
      Effect e (.removeGameObject title) e'
  | removeByTag {tag : Int32} {titles : List Name} {e' : Engine} : Removals e titles e' →
      (∀ n, n ∈ titles ↔ e.Tagged tag n) → Effect e (.removeGameObjectByTag tag) e'
  | addListener {p : Ptr} :
      Effect e (.addListener p) (e.withManager (e.mInputManager.addListener p).1)
  | removeListener {p : Ptr} :
      Effect e (.removeListener p) (e.withManager (e.mInputManager.removeListener p).1)
  | luaInputRegister {userdata : Nat} {go : LuaGameObject} {p : Ptr} :
      e.luaObjects[userdata]?.join = some go → go.mPtr = some p →
      Effect e (.luaInputRegister userdata) (e.withManager (e.mInputManager.addListener p).1)
  | setListener {p : Ptr} : Effect e (.setListener p) { e with mListener := p }
  | setActiveCamera {p : Ptr} : Effect e (.setActiveCamera p) e
  | collect {userdata : Nat} :
      Effect e (.collect userdata) { e with luaObjects := e.luaObjects.set userdata none }
  | frame : Effect e .frame e

theorem allocatable_of_step {op : Op} (returned : step e op = some e') : op.Allocatable e := by
  by_contra refused
  rw [step, if_neg refused] at returned
  simp at returned

theorem step_effect (h : e.WellFormed) {op : Op} (returned : step e op = some e') :
    Effect e op e' := by
  have allocatable := allocatable_of_step returned
  cases op with
  | createGameObject address tag title =>
      rw [step_createGameObject h allocatable] at returned
      obtain rfl := Option.some.inj returned
      split
      · exact .createTaken
      next free => exact .create allocatable free
  | luaNewGameObject address tag name hasScript =>
      rw [step_luaNewGameObject h allocatable] at returned
      split at returned
      next taken =>
        obtain rfl := Option.some.inj returned
        exact .luaTaken allocatable taken
      next free =>
        split at returned
        · obtain rfl := Option.some.inj returned
          exact .luaCreate allocatable free
        · simp at returned
  | createComponent t address owner =>
      cases live : e.objects owner with
      | none => simp [step_createComponent_dead allocatable live] at returned
      | some o =>
          rw [step_createComponent allocatable live] at returned
          obtain rfl := Option.some.inj returned
          split
          · exact .componentTaken
          · exact .component allocatable live
  | removeGameObject title =>
      obtain ⟨titles, e₁, value, removals, names⟩ := step_removeGameObject h title
      obtain rfl := Option.some.inj (value.symm.trans returned)
      exact .remove removals names
  | removeGameObjectByTag tag =>
      obtain ⟨titles, e₁, value, removals, names⟩ := step_removeGameObjectByTag h tag
      obtain rfl := Option.some.inj (value.symm.trans returned)
      exact .removeByTag removals names
  | addListener p =>
      obtain rfl := Option.some.inj (step_addListener p ▸ returned)
      exact .addListener
  | removeListener p =>
      obtain rfl := Option.some.inj (step_removeListener p ▸ returned)
      exact .removeListener
  | luaInputRegister userdata =>
      obtain ⟨go, p, buffer, ptr, rfl⟩ := step_luaInputRegister returned
      exact .luaInputRegister buffer ptr
  | setListener p =>
      obtain rfl := Option.some.inj returned
      exact .setListener
  | setActiveCamera p =>
      obtain rfl := step_setActiveCamera returned
      exact .setActiveCamera
  | collect userdata =>
      obtain rfl := Option.some.inj returned
      exact .collect
  | frame =>
      obtain rfl := step_frame returned
      exact .frame

end steps

section wellFormed

variable {e e' : Engine}

theorem WellFormed.setObject (h : e.WellFormed) {p : Ptr} {o o' : GameObject}
    (live : e.objects p = some o) (name : o'.mName = o.mName) (slots : ∀ t, e.SlotValid p o' t) :
    (e.setObject p (some o')).WellFormed := by
  have objects : ∀ q, (e.setObject p (some o')).objects q =
      if q = p then some o' else e.objects q := fun q => by
    simp [Engine.setObject, Function.update_apply]
  refine ⟨fun n q stored => ?_, fun q u alive => ?_, fun q u t alive filled => ?_⟩
  · obtain ⟨nonzero, node, u, alive, named⟩ := h.stored n q stored
    refine ⟨nonzero, node, ?_⟩
    rw [objects]
    split
    next same =>
      subst same
      obtain rfl := Option.some.inj (live.symm.trans alive)
      exact ⟨o', rfl, name.trans named⟩
    · exact ⟨u, alive, named⟩
  · rw [objects] at alive
    split at alive
    next same =>
      obtain rfl := Option.some.inj alive
      rw [name, same]
      exact h.listed p o live
    · exact h.listed q u alive
  · rw [objects] at alive
    split at alive
    next same =>
      obtain rfl := Option.some.inj alive
      rw [same]
      exact slots t filled
    · exact h.slots q u t alive filled

/-- Nothing live is at a fresh address, so a component created there is no other's. -/
theorem allocated_components {t : ComponentType} {address owner q : Ptr} {o : GameObject}
    (apart : q ≠ address) :
    (e.allocated t address owner o).components q = e.components q := by
  simp [allocated, setComponent, apart]

theorem slot_apart {p address : Ptr} {o : GameObject} {t : ComponentType} (h : e.WellFormed)
    (fresh : e.Fresh address) (live : e.objects p = some o) (filled : o.mComponents t ≠ 0) :
    o.mComponents t ≠ address := by
  obtain ⟨c, held, -⟩ := h.slots p o t live filled
  intro same
  rw [same, fresh.2.2] at held
  simp at held

theorem withComponent_wellFormed (h : e.WellFormed) {t : ComponentType} {address owner : Ptr}
    {o : GameObject} (fresh : e.Fresh address) (live : e.objects owner = some o) :
    (e.withComponent t address owner o).WellFormed := by
  have others : ∀ p u s, e.objects p = some u →
      (e.allocated t address owner o).SlotValid p u s := by
    intro p u s alive filled
    obtain ⟨c, held, type, owns⟩ := h.slots p u s alive filled
    exact ⟨c, by rw [allocated_components (slot_apart h fresh alive filled), held], type, owns⟩
  have allocatedFormed : (e.allocated t address owner o).WellFormed :=
    ⟨h.stored, h.listed, fun p u s alive => others p u s alive⟩
  refine allocatedFormed.setObject (o := o) live rfl fun s => ?_
  by_cases same : s = t
  · subst same
    intro _
    simp [allocated, setComponent]
  · intro filled
    have kept : (Function.update o.mComponents t address) s = o.mComponents s :=
      Function.update_of_ne same ..
    simp only [kept] at filled ⊢
    exact others owner o s live filled

theorem withScripted_wellFormed (h : e.WellFormed) {address : Ptr} (fresh : e.Fresh address)
    (tag : Int32) {name : Name} (free : name ∉ e.sceneNodes) (hasScript : Bool) :
    (e.withScripted address tag name hasScript).WellFormed :=
  (withObject_wellFormed (h.withLuaObject ⟨some address, some name⟩) fresh tag.toUInt32
    free).setObject (o := ⟨tag.toUInt32, name, false, fun _ => 0⟩)
    (by rw [withObject_objects, if_pos rfl]) rfl fun _ filled => absurd rfl filled

theorem Effect.wellFormed {op : Op} (effect : Effect e op e') (h : e.WellFormed) :
    e'.WellFormed := by
  cases effect with
  | create fresh free => exact withObject_wellFormed h fresh _ free
  | luaCreate fresh free => exact withScripted_wellFormed h fresh _ free _
  | component fresh live => exact withComponent_wellFormed h fresh live
  | remove removals names => exact removals.wellFormed h
  | removeByTag removals names => exact removals.wellFormed h
  | createTaken | componentTaken | setActiveCamera | frame => exact h
  | luaTaken | addListener | removeListener | luaInputRegister | setListener | collect =>
      exact ⟨h.stored, h.listed, h.slots⟩

/-- Every run keeps the engine well-formed. -/
theorem step_wellFormed (h : e.WellFormed) {op : Op} (returned : step e op = some e') :
    e'.WellFormed :=
  (step_effect h returned).wellFormed h

end wellFormed

end Ssuge.Engine

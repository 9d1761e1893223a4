import Ssuge.ComponentRegistries

/-! Which components an object owns, when it creates them from C++ or from a script
through `createComponent`. An object owns what its slots hold, and a slot holds one
component: a component whose slot was set again is live and owned by nobody. -/

namespace Ssuge.Engine

open CString Procedure GuardedRun

/-- The component that `createComponent` creates for a string, if any. -/
def componentOf (compType : List UInt8) : Option ComponentType :=
  if compType = chars "mesh" then some .mesh
  else if compType = chars "sound" then some .sound
  else if compType = chars "camera" then some .camera
  else if compType = chars "physics" then some .physics
  else none

/-- `GameObject::execute`, as far as components go: the other operations leave them
alone. The result of the call is not kept here. -/
def execute (address self : Ptr) (operation : List UInt8) (args : Message) : EngineProc Unit := do
  let _ ← object self
  if operation = chars "createComponent" then do
    let compType ← ofEval (args.getString 0)
    match componentOf compType with
    | some t => discard (createComponent t address self)
    | none => pure ()
  else pure ()

inductive Call
  | engine (op : Op)
  | execute (address self : Ptr) (operation : List UInt8) (args : Message)

def requested (operation : List UInt8) (args : Message) : Option ComponentType :=
  if operation = chars "createComponent" then
    match args.getString 0 with
    | .ok compType => componentOf compType
    | .error _ => none
  else none

def Call.creates : Call → Option (ComponentType × Ptr × Ptr)
  | .engine (.createComponent t address owner) => some (t, address, owner)
  | .engine _ => none
  | .execute address self operation args =>
      (requested operation args).map fun t => (t, address, self)

def call (e : Engine) : Call → Option Engine
  | .engine op => step e op
  | .execute address self operation args =>
      if e.Fresh address then settle ((execute address self operation args).run e) else none

/-- Every live component is in the slot of its type of a live object. -/
def NoOrphans (e : Engine) : Prop :=
  ∀ p c, e.components p = some c → ∃ o, e.objects c.mOwner = some o ∧ o.mComponents c.type = p

def DeletesOwned (e : Engine) : Prop :=
  ∀ p e', (deleteGameObject p).run e = .returned () e' →
    ∀ q c, e'.components q = some c → c.mOwner ≠ p

/-- The owner has no component of the type, or the creation fails because the name of
the camera is taken. -/
def SlotFree (e : Engine) (t : ComponentType) (owner : Ptr) : Prop :=
  ∀ o, e.objects owner = some o →
    o.mComponents t = 0 ∨ t = .camera ∧ o.mName ++ chars "_camera" ∈ e.cameras

def OwnershipGuard (e : Engine) (made : Call) : Prop :=
  ∀ t address owner, made.creates = some (t, address, owner) → e.Fresh address →
    e.SlotFree t owner

section deletion

variable {e e' : Engine}

theorem NoOrphans.deletesOwned (h : e.WellFormed) (owned : e.NoOrphans)
    (null : e.components 0 = none) : e.DeletesOwned := by
  intro p e' deletes q c held owner
  cases live : e.objects p with
  | none =>
      rw [deleteGameObject, bind_of_stopped (object_dead live)] at deletes
      simp at deletes
  | some o =>
      rw [deleteGameObject_run h live] at deletes
      obtain ⟨-, rfl⟩ := Ending.returned.inj deletes
      obtain ⟨before, outside⟩ := removed_component_some o.mName p o held
      obtain ⟨o', live', slot⟩ := owned q c before
      obtain rfl := Option.some.inj ((owner ▸ live').symm.trans live)
      have filled : o'.mComponents c.type ≠ 0 := by
        rw [slot]
        rintro rfl
        simp [null] at before
      exact outside c.type filled slot

theorem removed_noOrphans (h : e.WellFormed) (null : e.components 0 = none) (owned : e.NoOrphans)
    {title : Name} {p : Ptr} {o : GameObject} (live : e.objects p = some o) :
    (e.removed title p o).NoOrphans := by
  intro q c held
  have owner : c.mOwner ≠ p :=
    owned.deletesOwned h null p (e.deleted p o) (deleteGameObject_run h live) q c held
  obtain ⟨o', live', slot⟩ := owned q c (removed_component_some title p o held).1
  exact ⟨o', by rw [removed_objects, if_neg owner, live'], slot⟩

/-- What keeps a freed pointer from being taken for a component. -/
structure Ownable (e : Engine) : Prop where
  formed : e.WellFormed
  null : e.components 0 = none

theorem removals_noOrphans {titles : List Name} (removals : Removals e titles e')
    (ownable : e.Ownable) (owned : e.NoOrphans) : e'.NoOrphans := by
  induction removals with
  | nil e => exact owned
  | @cons e e' title titles p o found live _ ih =>
      exact ih ⟨removed_wellFormed ownable.formed found live,
        removed_component_none title p o ownable.null⟩
        (removed_noOrphans ownable.formed ownable.null owned live)

end deletion

section creation

variable {e e' : Engine} {t : ComponentType} {address owner : Ptr} {o : GameObject}

theorem NoOrphans.beside (owned : e.NoOrphans) (fresh : e.Fresh address)
    (components : e'.components = e.components)
    (objects : ∀ p, p ≠ address → e'.objects p = e.objects p) : e'.NoOrphans := by
  intro p c held
  obtain ⟨o, live, slot⟩ := owned p c (components ▸ held)
  have apart : c.mOwner ≠ address := by
    intro same
    rw [same, fresh.2.1] at live
    simp at live
  exact ⟨o, by rw [objects _ apart, live], slot⟩

theorem withObject_noOrphans (owned : e.NoOrphans) (fresh : e.Fresh address) (tag : UInt32)
    (title : Name) : (e.withObject address tag title).NoOrphans :=
  owned.beside fresh rfl fun p apart => by rw [withObject_objects, if_neg apart]

theorem withScripted_noOrphans (owned : e.NoOrphans) (fresh : e.Fresh address) (tag : Int32)
    (name : Name) (hasScript : Bool) : (e.withScripted address tag name hasScript).NoOrphans :=
  owned.beside fresh rfl fun p apart => by
    simp [withScripted, withLuaObject, withObject, constructed, setObject, apart]

theorem withComponent_slot (t : ComponentType) (address owner : Ptr) (o : GameObject) :
    ∃ o', (e.withComponent t address owner o).objects owner = some o' ∧
      o'.mComponents t = address ∧ ∀ u, u ≠ t → o'.mComponents u = o.mComponents u := by
  refine ⟨_, by simp [withComponent, setObject]; rfl, by simp, fun u apart => by simp [apart]⟩

theorem withComponent_other {p : Ptr} (apart : p ≠ owner) :
    (e.withComponent t address owner o).objects p = e.objects p := by
  simp [withComponent, setObject, allocated, setComponent, apart]

theorem withComponent_components (p : Ptr) :
    (e.withComponent t address owner o).components p =
      if p = address then some ⟨t, owner, true⟩ else e.components p := by
  simp [withComponent, setObject, allocated, setComponent, Function.update_apply]

/-- A new component orphans the one that was in its slot, and no other. -/
theorem withComponent_noOrphans_iff (ownable : e.Ownable) (owned : e.NoOrphans)
    (fresh : e.Fresh address) (live : e.objects owner = some o) :
    (e.withComponent t address owner o).NoOrphans ↔ o.mComponents t = 0 := by
  obtain ⟨o', live', slot, others⟩ := withComponent_slot (e := e) t address owner o
  constructor
  · intro after
    by_contra filled
    obtain ⟨c, held, rfl, rfl⟩ := ownable.formed.slots owner o t live filled
    have apart := slot_apart ownable.formed fresh live filled
    obtain ⟨u, alive, stored⟩ := after (o.mComponents c.type) c
      (by rw [withComponent_components, if_neg apart, held])
    obtain rfl := Option.some.inj (alive.symm.trans live')
    exact apart (stored.symm.trans slot)
  · intro empty p c held
    rw [withComponent_components] at held
    split at held
    next same =>
      obtain rfl := Option.some.inj held
      exact ⟨o', live', slot.trans same.symm⟩
    · obtain ⟨u, alive, stored⟩ := owned p c held
      by_cases own : c.mOwner = owner
      · obtain rfl := Option.some.inj ((own ▸ alive).symm.trans live)
        refine ⟨o', own ▸ live', ?_⟩
        rw [others, stored]
        rintro rfl
        rw [← stored, empty, ownable.null] at held
        simp at held
      · exact ⟨u, by rw [withComponent_other own, alive], stored⟩

end creation

section calls

variable {e e' : Engine}

theorem Effect.null {op : Op} (effect : Effect e op e') (null : e.components 0 = none) :
    e'.components 0 = none := by
  cases effect with
  | component fresh live => rw [withComponent_components, if_neg fresh.1.symm, null]
  | remove removals names => exact removals_component_none removals null
  | removeByTag removals names => exact removals_component_none removals null
  | _ => exact null

theorem step_ownable (ownable : e.Ownable) {op : Op} (returned : step e op = some e') :
    e'.Ownable :=
  ⟨step_wellFormed ownable.formed returned, (step_effect ownable.formed returned).null ownable.null⟩

theorem createComponent_noOrphans (ownable : e.Ownable) (owned : e.NoOrphans) {t : ComponentType}
    {address owner : Ptr} (fresh : e.Fresh address) :
    (∀ e', step e (.createComponent t address owner) = some e' → e'.NoOrphans) ↔
      e.SlotFree t owner := by
  cases live : e.objects owner with
  | none => simp [step_createComponent_dead fresh live, SlotFree, live]
  | some o =>
      simp only [step_createComponent fresh live, Option.some.injEq, forall_eq', SlotFree, live]
      split
      next taken => exact iff_of_true owned (.inr taken)
      next free =>
        rw [withComponent_noOrphans_iff ownable owned fresh live, or_iff_left free]

theorem Effect.noOrphans (ownable : e.Ownable) (owned : e.NoOrphans) {op : Op}
    (effect : Effect e op e') (creates : (Call.engine op).creates = none) : e'.NoOrphans := by
  cases effect with
  | componentTaken | component => simp [Call.creates] at creates
  | create fresh free => exact withObject_noOrphans owned fresh _ _
  | luaCreate fresh free => exact withScripted_noOrphans owned fresh _ _ _
  | remove removals names => exact removals_noOrphans removals ownable owned
  | removeByTag removals names => exact removals_noOrphans removals ownable owned
  | createTaken | setActiveCamera | frame => exact owned
  | luaTaken | addListener | removeListener | luaInputRegister | setListener | collect =>
      exact owned

theorem step_noOrphans (ownable : e.Ownable) (owned : e.NoOrphans) (op : Op) :
    (∀ e', step e op = some e' → e'.NoOrphans) ↔ e.OwnershipGuard (.engine op) := by
  cases op with
  | createComponent t address owner =>
      by_cases fresh : e.Fresh address
      · rw [createComponent_noOrphans ownable owned fresh]
        simp [OwnershipGuard, Call.creates, fresh]
      · refine iff_of_true (fun e' returned => ?_) fun _ _ _ creates => ?_
        · exact absurd (allocatable_of_step returned) fresh
        · obtain ⟨rfl, rfl, rfl⟩ := by simpa [Call.creates] using creates
          exact fun allocated => absurd allocated fresh
  | _ =>
      exact iff_of_true
        (fun e' returned => (step_effect ownable.formed returned).noOrphans ownable owned rfl)
        fun _ _ _ creates => by simp [Call.creates] at creates

section scripts

variable {address self : Ptr} {operation : List UInt8} {args : Message}

theorem call_execute_creates (fresh : e.Fresh address) {t : ComponentType}
    (creates : requested operation args = some t) :
    call e (.execute address self operation args) = step e (.createComponent t address self) := by
  have named : operation = chars "createComponent" := by
    by_contra other
    rw [requested, if_neg other] at creates
    simp at creates
  rw [requested, if_pos named] at creates
  cases read : args.getString 0 with
  | error fault => simp [read] at creates
  | ok compType =>
      have found : componentOf compType = some t := by simpa [read] using creates
      cases live : e.objects self with
      | none =>
          rw [step_createComponent_dead fresh live, call, if_pos fresh, execute,
            bind_of_stopped (object_dead live)]
          rfl
      | some o =>
          rw [call, if_pos fresh, execute, bind_of_returned (object_run live), if_pos named, read,
            ofEval, bind_pure_run, found,
            step, if_pos (show (Op.createComponent t address self).Allocatable e from fresh)]
          rfl

theorem call_execute_other (other : requested operation args = none)
    (returned : call e (.execute address self operation args) = some e') : e' = e := by
  have unchanged : ((execute address self operation args).run e).state = e := by
    refine bind_state (object_state e self) fun _ => ?_
    rw [requested] at other
    split
    next named =>
      rw [if_pos named] at other
      cases read : args.getString 0 with
      | error fault => cases fault <;> rfl
      | ok compType =>
          rw [read] at other
          rw [ofEval, bind_pure_run, show componentOf compType = none from other]
          rfl
    · rfl
  rw [call] at returned
  split at returned
  · rw [settle_state returned, unchanged]
  · simp at returned

theorem execute_noOrphans (ownable : e.Ownable) (owned : e.NoOrphans) :
    (∀ e', call e (.execute address self operation args) = some e' → e'.NoOrphans) ↔
      e.OwnershipGuard (.execute address self operation args) := by
  cases creates : requested operation args with
  | none =>
      refine iff_of_true (fun e' returned => ?_) fun _ _ _ made => ?_
      · rwa [call_execute_other creates returned]
      · simp [Call.creates, creates] at made
  | some t =>
      by_cases fresh : e.Fresh address
      · rw [call_execute_creates fresh creates, createComponent_noOrphans ownable owned fresh]
        simp [OwnershipGuard, Call.creates, creates, fresh]
      · refine iff_of_true (fun e' returned => ?_) fun _ _ _ made => ?_
        · rw [call, if_neg fresh] at returned
          simp at returned
        · obtain ⟨rfl, rfl, rfl⟩ := by simpa [Call.creates, creates] using made
          exact fun allocated => absurd allocated fresh

end scripts

theorem call_noOrphans (ownable : e.Ownable) (owned : e.NoOrphans) (made : Call) :
    (∀ e', call e made = some e' → e'.NoOrphans) ↔ e.OwnershipGuard made := by
  cases made with
  | engine op => exact step_noOrphans ownable owned op
  | execute address self operation args => exact execute_noOrphans ownable owned

theorem call_ownable (ownable : e.Ownable) {made : Call} (returned : call e made = some e') :
    e'.Ownable := by
  cases made with
  | engine op => exact step_ownable ownable returned
  | execute address self operation args =>
      cases creates : requested operation args with
      | none => rwa [call_execute_other creates returned]
      | some t =>
          by_cases fresh : e.Fresh address
          · exact step_ownable ownable (call_execute_creates fresh creates ▸ returned)
          · rw [call, if_neg fresh] at returned
            simp at returned

/-- Every live component is stored by its owner, so that deleting an object deletes all
that was created for it. -/
structure OwnsComponents (e : Engine) : Prop where
  stored : e.NoOrphans
  deletes : e.DeletesOwned

theorem ownsComponents_iff_noOrphans (ownable : e.Ownable) : e.OwnsComponents ↔ e.NoOrphans :=
  ⟨OwnsComponents.stored, fun owned => ⟨owned, owned.deletesOwned ownable.formed ownable.null⟩⟩

theorem call_ownsComponents (ownable : e.Ownable) (owns : e.OwnsComponents) (made : Call) :
    (∀ e', call e made = some e' → e'.OwnsComponents) ↔ e.OwnershipGuard made := by
  rw [← call_noOrphans ownable owns.stored made]
  refine forall_congr' fun e' => forall_congr' fun returned => ?_
  exact ownsComponents_iff_noOrphans (call_ownable ownable returned)

theorem start_ownable (sceneNodes cameras : List Name) : (start sceneNodes cameras).Ownable :=
  ⟨start_wellFormed sceneNodes cameras, rfl⟩

theorem start_noOrphans (sceneNodes cameras : List Name) : (start sceneNodes cameras).NoOrphans :=
  fun p c held => by simp [start] at held

end calls

/-- From an engine without objects on, over any operations and script calls: every live
component is in its owner's slot and goes with its owner, in every state, if and only
if every component is created where the slot of its type is empty. -/
theorem ownsComponents_iff (sceneNodes cameras : List Name) (calls : List Call) :
    Throughout call OwnsComponents (start sceneNodes cameras) calls ↔
      Along call OwnershipGuard (start sceneNodes cameras) calls :=
  throughout_iff (I := Ownable) (L := fun _ => True)
    (fun _ made ownable owns _ => call_ownsComponents ownable owns made)
    (fun _ _ _ ownable _ _ _ returned => call_ownable ownable returned)
    (start_ownable sceneNodes cameras)
    ((ownsComponents_iff_noOrphans (start_ownable sceneNodes cameras)).mpr
      (start_noOrphans sceneNodes cameras))
    (fun _ _ => trivial)

def soundArgs : Message := ((Message.initialized.addString (chars "sound")).value).getD .initialized

/-- A script asks for a sound twice: nobody owns the first one. -/
theorem not_ownsComponents :
    ¬ Throughout call OwnsComponents (start [] [])
      [.engine (.createGameObject 16 3 (chars "Box")),
        .execute 32 16 (chars "createComponent") soundArgs,
        .execute 48 16 (chars "createComponent") soundArgs] := by
  intro all
  obtain ⟨o, live, slot⟩ := (all _ (List.prefix_refl _) _ rfl).stored 32 ⟨.sound, 16, true⟩ rfl
  obtain rfl := Option.some.inj live
  exact absurd slot (by decide)

end Ssuge.Engine

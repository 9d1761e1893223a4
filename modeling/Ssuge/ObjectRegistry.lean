import Ssuge.Engine

/-! What creating and removing game objects does to the engine. In a well-formed
engine the object map lists exactly the live objects, each under its own name, and
every filled component slot holds a live component of its type that belongs to the
object. Removals are then chains of single removals, whatever function makes them. -/

namespace Ssuge.Engine

open Procedure

structure WellFormed (e : Engine) : Prop where
  stored : ∀ n p, e.mObjects.find? n = some p →
    p ≠ 0 ∧ n ∈ e.sceneNodes ∧ ∃ o, e.objects p = some o ∧ o.mName = n
  listed : ∀ p o, e.objects p = some o → e.mObjects.find? o.mName = some p
  slots : ∀ p o t, e.objects p = some o → o.mComponents t ≠ 0 →
    ∃ c, e.components (o.mComponents t) = some c ∧ c.type = t ∧ c.mOwner = p

theorem start_wellFormed (sceneNodes cameras : List Name) :
    WellFormed (start sceneNodes cameras) where
  stored n p found := by simp [start] at found
  listed p o live := by simp [start] at live
  slots p o t live := by simp [start] at live

variable {e e' : Engine}

theorem WellFormed.stored_object (h : e.WellFormed) {n : Name} {p : Ptr}
    (found : e.mObjects.find? n = some p) : ∃ o, e.objects p = some o ∧ o.mName = n :=
  (h.stored n p found).2.2

theorem WellFormed.name_unique (h : e.WellFormed) {n k : Name} {p : Ptr}
    (first : e.mObjects.find? n = some p) (second : e.mObjects.find? k = some p) : n = k := by
  obtain ⟨o, live, name⟩ := h.stored_object first
  obtain ⟨o', live', name'⟩ := h.stored_object second
  obtain rfl := Option.some.inj (live.symm.trans live')
  exact name.symm.trans name'

theorem object_run {p : Ptr} {o : GameObject} (live : e.objects p = some o) :
    (object p).run e = .returned o e := by
  rw [object, bind_get_run, live, orStop_some]

theorem object_dead {p : Ptr} (dead : e.objects p = none) :
    (object p).run e = .stopped .undefined e := by
  rw [object, bind_get_run, dead, orStop_none]

section creation

/-- The engine with a new object that is not in the map yet. -/
def constructed (e : Engine) (address : Ptr) (tag : UInt32) (title : Name) : Engine :=
  { e with sceneNodes := title :: e.sceneNodes }.setObject address
    (some ⟨tag, title, false, fun _ => 0⟩)

def withObject (e : Engine) (address : Ptr) (tag : UInt32) (title : Name) : Engine :=
  { e.constructed address tag title with mObjects := e.mObjects.insert title address }

theorem newGameObject_taken (address : Ptr) (tag : UInt32) {title : Name}
    (taken : title ∈ e.sceneNodes) :
    (newGameObject address tag title).run e = .stopped (.threw .ogre) e := by
  have node : (createChildSceneNode title).run e = .stopped (.threw .ogre) e := by
    rw [createChildSceneNode, bind_get_run,
      bind_of_stopped (require_neg (not_not.mpr taken) _ _)]
  unfold newGameObject
  rw [bind_of_stopped node]

theorem newGameObject_free (address : Ptr) (tag : UInt32) {title : Name}
    (free : title ∉ e.sceneNodes) :
    (newGameObject address tag title).run e = .returned () (e.constructed address tag title) := by
  have node : (createChildSceneNode title).run e =
      .returned () { e with sceneNodes := title :: e.sceneNodes } := by
    rw [createChildSceneNode, bind_get_run, bind_of_returned (require_pos free _ _), modify_run]
  unfold newGameObject
  rw [bind_of_returned node, modify_run, constructed]

theorem addGameObject_free {title : Name} (address : Ptr)
    (absent : e.mObjects.find? title = none) :
    (addGameObject title address).run e =
      .returned () { e with mObjects := e.mObjects.insert title address } := by
  unfold addGameObject
  rw [bind_get_run, absent]
  rfl

theorem createGameObject_taken (address : Ptr) (tag : UInt32) {title : Name}
    (taken : title ∈ e.sceneNodes) :
    (createGameObject address tag title).run e = .stopped (.threw .ogre) e := by
  unfold createGameObject
  rw [bind_of_stopped (newGameObject_taken address tag taken)]

theorem WellFormed.absent (h : e.WellFormed) {title : Name} (free : title ∉ e.sceneNodes) :
    e.mObjects.find? title = none := by
  cases found : e.mObjects.find? title with
  | none => rfl
  | some p => exact absurd (h.stored title p found).2.1 free

theorem createGameObject_free (h : e.WellFormed) (address : Ptr) (tag : UInt32) {title : Name}
    (free : title ∉ e.sceneNodes) :
    (createGameObject address tag title).run e =
      .returned address (e.withObject address tag title) := by
  have absent : (e.constructed address tag title).mObjects.find? title = none := h.absent free
  unfold createGameObject
  rw [bind_of_returned (newGameObject_free address tag free),
    bind_of_returned (addGameObject_free address absent)]
  rfl

theorem createGameObject_returned {address p : Ptr} {tag : UInt32} {title : Name} {e' : Engine}
    (returned : (createGameObject address tag title).run e = .returned p e') :
    p = address ∧ e'.objects address = some ⟨tag, title, false, fun _ => 0⟩ := by
  by_cases taken : title ∈ e.sceneNodes
  · simp [createGameObject_taken address tag taken] at returned
  · rw [createGameObject, bind_of_returned (newGameObject_free address tag taken)] at returned
    cases absent : (e.constructed address tag title).mObjects.find? title with
    | none =>
        rw [bind_of_returned (addGameObject_free address absent)] at returned
        obtain ⟨rfl, rfl⟩ := Ending.returned.inj returned
        exact ⟨rfl, by simp [constructed, setObject]⟩
    | some q =>
        rw [bind_of_stopped (by rw [addGameObject, bind_get_run, absent]; rfl)] at returned
        simp at returned

@[simp] theorem withObject_objects (address : Ptr) (tag : UInt32) (title : Name) (p : Ptr) :
    (e.withObject address tag title).objects p =
      if p = address then some ⟨tag, title, false, fun _ => 0⟩ else e.objects p := by
  simp [withObject, constructed, setObject, Function.update_apply]

@[simp] theorem withObject_find? (address : Ptr) (tag : UInt32) (title n : Name) :
    (e.withObject address tag title).mObjects.find? n =
      if n = title then some address else e.mObjects.find? n := by
  by_cases same : n = title <;> simp [withObject, OrderedMap.find?_insert, same]

theorem withObject_wellFormed (h : e.WellFormed) {address : Ptr} (fresh : e.Fresh address)
    (tag : UInt32) {title : Name} (free : title ∉ e.sceneNodes) :
    (e.withObject address tag title).WellFormed := by
  obtain ⟨nonzero, newObject, -⟩ := fresh
  refine ⟨fun n p found => ?_, fun p o live => ?_, fun p o t live filled => ?_⟩
  · rw [withObject_find?] at found
    split at found
    next same =>
      obtain rfl := Option.some.inj found
      subst same
      exact ⟨nonzero, List.mem_cons_self, _, by rw [withObject_objects, if_pos rfl], rfl⟩
    next other =>
      obtain ⟨positive, node, o, live, name⟩ := h.stored n p found
      have apart : p ≠ address := by
        rintro rfl
        simp [newObject] at live
      exact ⟨positive, List.mem_cons_of_mem _ node, o,
        by rw [withObject_objects, if_neg apart, live], name⟩
  · rw [withObject_objects] at live
    split at live
    next same =>
      obtain rfl := Option.some.inj live
      rw [withObject_find?, if_pos rfl, same]
    next other =>
      have found := h.listed p o live
      have apart : o.mName ≠ title := by
        intro equal
        exact free (equal ▸ (h.stored _ p found).2.1)
      rw [withObject_find?, if_neg apart, found]
  · rw [withObject_objects] at live
    split at live
    · obtain rfl := Option.some.inj live
      exact absurd rfl filled
    · exact h.slots p o t live filled

end creation

section removal

def withoutComponent (e : Engine) (o : GameObject) (t : ComponentType) : Engine :=
  if o.mComponents t = 0 then e
  else { e.setComponent (o.mComponents t) none with
    cameras := if t = .camera then e.cameras.erase o.mName else e.cameras }

def deregistered (e : Engine) (o : GameObject) (t : ComponentType) : Engine :=
  let registry := (e.msInstances (registryOf t)).erase (o.mComponents t)
  { e with msInstances := Function.update e.msInstances (registryOf t) registry }

def withoutSlot (e : Engine) (o : GameObject) (t : ComponentType) : Engine :=
  (e.deregistered o t).withoutComponent o t

/-- The slot is empty, or holds a live component of its type and owner. -/
def SlotValid (e : Engine) (p : Ptr) (o : GameObject) (t : ComponentType) : Prop :=
  o.mComponents t ≠ 0 → ∃ c, e.components (o.mComponents t) = some c ∧ c.type = t ∧ c.mOwner = p

theorem destroyCamera_run {c : Component} {o : GameObject} (live : e.objects c.mOwner = some o) :
    (destroyCamera c).run e = .returned ()
      { e with cameras := if c.type = .camera then e.cameras.erase o.mName else e.cameras } := by
  rw [destroyCamera]
  split
  · rw [bind_of_returned (object_run live), modify_run]
  · rw [pure_run]

theorem deleteComponent_run {p : Ptr} {o : GameObject} {t : ComponentType}
    (live : e.objects p = some o) (valid : e.SlotValid p o t) :
    (deleteComponent (o.mComponents t)).run e = .returned () (e.withoutComponent o t) := by
  unfold deleteComponent
  rw [withoutComponent]
  split
  · rw [pure_run]
  next filled =>
    obtain ⟨c, found, rfl, rfl⟩ := valid filled
    rw [bind_get_run, found, bind_some_run, bind_of_returned (destroyCamera_run live), modify_run]
    rfl

theorem destroySlot_run {p : Ptr} {o : GameObject} {t : ComponentType}
    (live : e.objects p = some o) (valid : e.SlotValid p o t) :
    (destroySlot o t).run e = .returned () (e.withoutSlot o t) := by
  unfold destroySlot
  rw [deallocate, bind_modify_run]
  exact deleteComponent_run (e := e.deregistered o t) live valid

@[simp] theorem withoutSlot_objects (o : GameObject) (t : ComponentType) :
    (e.withoutSlot o t).objects = e.objects := by
  rw [withoutSlot, withoutComponent]
  split <;> rfl

@[simp] theorem withoutSlot_components (o : GameObject) (t : ComponentType) (q : Ptr) :
    (e.withoutSlot o t).components q =
      if q = o.mComponents t ∧ q ≠ 0 then none else e.components q := by
  rw [withoutSlot, withoutComponent]
  by_cases same : q = o.mComponents t
  · subst same
    split <;> simp_all [setComponent, deregistered]
  · split <;> simp [setComponent, deregistered, same]

@[simp] theorem withoutSlot_msInstances (o : GameObject) (t u : ComponentType) :
    (e.withoutSlot o t).msInstances u = if u = registryOf t
      then (e.msInstances u).erase (o.mComponents t) else e.msInstances u := by
  rw [withoutSlot, withoutComponent]
  by_cases same : u = registryOf t
  · subst same
    split <;> simp [setComponent, deregistered]
  · split <;> simp [setComponent, deregistered, same]

structure SameHolders (e e' : Engine) : Prop where
  inputManager : e'.mInputManager = e.mInputManager
  listener : e'.mListener = e.mListener
  activeCamera : e'.mActiveCamera = e.mActiveCamera
  luaObjects : e'.luaObjects = e.luaObjects

theorem withoutSlot_sameHolders (o : GameObject) (t : ComponentType) :
    SameHolders e (e.withoutSlot o t) := by
  rw [withoutSlot, withoutComponent]
  split <;> exact ⟨rfl, rfl, rfl, rfl⟩

theorem SlotValid.withoutSlot {p : Ptr} {o : GameObject} {t u : ComponentType}
    (first : e.SlotValid p o t) (other : e.SlotValid p o u) (apart : u ≠ t) :
    (e.withoutSlot o t).SlotValid p o u := by
  intro filled
  obtain ⟨c, found, rfl, owner⟩ := other filled
  have different : o.mComponents c.type ≠ o.mComponents t := by
    intro same
    obtain ⟨c', found', type, -⟩ := first (same ▸ filled)
    rw [← same, found] at found'
    obtain rfl := Option.some.inj found'
    exact apart type
  exact ⟨c, by rw [withoutSlot_components, if_neg (fun h => different h.1), found], rfl, owner⟩

/-- The engine after an object is deleted, still listed in the map. -/
def deleted (e : Engine) (p : Ptr) (o : GameObject) : Engine :=
  ((((({ e with sceneNodes := e.sceneNodes.erase o.mName }.withoutSlot o .mesh).withoutSlot
    o .sound).withoutSlot o .camera).withoutSlot o .physics)).setObject p none

/-- The engine after an object is deleted and erased from the map. -/
def removed (e : Engine) (title : Name) (p : Ptr) (o : GameObject) : Engine :=
  { e.deleted p o with mObjects := (e.deleted p o).mObjects.erase title }

theorem deleteGameObject_run (h : e.WellFormed) {p : Ptr} {o : GameObject}
    (live : e.objects p = some o) : (deleteGameObject p).run e = .returned () (e.deleted p o) := by
  set e₀ : Engine := { e with sceneNodes := e.sceneNodes.erase o.mName }
  have valid : ∀ t, e₀.SlotValid p o t := fun t => h.slots p o t live
  have first := destroySlot_run (e := e₀) live (valid .mesh)
  have valid₁ : ∀ t ≠ .mesh, (e₀.withoutSlot o .mesh).SlotValid p o t :=
    fun t apart => (valid .mesh).withoutSlot (valid t) apart
  have second := destroySlot_run (e := e₀.withoutSlot o .mesh) (by simpa using live)
    (valid₁ .sound (by decide))
  have valid₂ : ∀ t ≠ .mesh, t ≠ .sound →
      ((e₀.withoutSlot o .mesh).withoutSlot o .sound).SlotValid p o t :=
    fun t apart => (valid₁ .sound (by decide)).withoutSlot (valid₁ t apart)
  have third := destroySlot_run (e := (e₀.withoutSlot o .mesh).withoutSlot o .sound)
    (by simpa using live) (valid₂ .camera (by decide) (by decide))
  have fourth := destroySlot_run
    (e := ((e₀.withoutSlot o .mesh).withoutSlot o .sound).withoutSlot o .camera)
    (by simpa using live) ((valid₂ .camera (by decide) (by decide)).withoutSlot
      (valid₂ .physics (by decide) (by decide)) (by decide))
  unfold deleteGameObject
  rw [bind_of_returned (object_run live), bind_modify_run,
    bind_of_returned first, bind_of_returned second, bind_of_returned third,
    bind_of_returned fourth, modify_run]
  rfl

theorem removeEntry_run (h : e.WellFormed) (title : Name) {p : Ptr} {o : GameObject}
    (live : e.objects p = some o) :
    (removeEntry title p).run e = .returned () (e.removed title p o) := by
  unfold removeEntry
  rw [bind_of_returned (deleteGameObject_run h live), modify_run]
  rfl

theorem withoutSlot_mObjects (o : GameObject) (t : ComponentType) :
    (e.withoutSlot o t).mObjects = e.mObjects := by
  rw [withoutSlot, withoutComponent]
  split <;> rfl

theorem withoutSlot_sceneNodes (o : GameObject) (t : ComponentType) :
    (e.withoutSlot o t).sceneNodes = e.sceneNodes := by
  rw [withoutSlot, withoutComponent]
  split <;> rfl

theorem withoutSlot_cameras (o : GameObject) (t : ComponentType) :
    (e.withoutSlot o t).cameras = if t = .camera ∧ o.mComponents t ≠ 0
      then e.cameras.erase o.mName else e.cameras := by
  rw [withoutSlot, withoutComponent]
  by_cases empty : o.mComponents t = 0
  · rw [if_pos empty, if_neg (fun h => h.2 empty)]
    rfl
  · rw [if_neg empty]
    by_cases camera : t = .camera
    · rw [if_pos camera, if_pos ⟨camera, empty⟩]
      rfl
    · rw [if_neg camera, if_neg (fun h => camera h.1)]
      rfl

@[simp] theorem removed_objects (title : Name) (p : Ptr) (o : GameObject) (q : Ptr) :
    (e.removed title p o).objects q = if q = p then none else e.objects q := by
  simp [removed, deleted, setObject, Function.update_apply]

@[simp] theorem removed_find? (title n : Name) (p : Ptr) (o : GameObject) :
    (e.removed title p o).mObjects.find? n = if n = title then none else e.mObjects.find? n := by
  by_cases same : n = title <;>
    simp [removed, deleted, setObject, withoutSlot_mObjects, OrderedMap.find?_erase, same]

@[simp] theorem removed_sceneNodes (title : Name) (p : Ptr) (o : GameObject) :
    (e.removed title p o).sceneNodes = e.sceneNodes.erase o.mName := by
  simp [removed, deleted, setObject, withoutSlot_sceneNodes]

/-- The destructor of a camera component destroys a camera of the object's own name. -/
theorem removed_cameras (title : Name) (p : Ptr) (o : GameObject) :
    (e.removed title p o).cameras =
      if o.mComponents .camera = 0 then e.cameras else e.cameras.erase o.mName := by
  by_cases empty : o.mComponents .camera = 0 <;>
    simp [removed, deleted, setObject, withoutSlot_cameras, empty]

theorem removed_component_slot (title : Name) (p : Ptr) (o : GameObject) {t : ComponentType}
    (filled : o.mComponents t ≠ 0) :
    (e.removed title p o).components (o.mComponents t) = none := by
  cases t <;> simp [removed, deleted, setObject, filled]

theorem removed_component_other (title : Name) (p : Ptr) (o : GameObject) {q : Ptr}
    (other : ∀ t, q ≠ o.mComponents t) :
    (e.removed title p o).components q = e.components q := by
  simp [removed, deleted, setObject, other]

theorem removed_component_none (title : Name) (p : Ptr) (o : GameObject) {q : Ptr}
    (dead : e.components q = none) : (e.removed title p o).components q = none := by
  simp [removed, deleted, setObject, dead]

theorem removed_component_some (title : Name) (p : Ptr) (o : GameObject) {q : Ptr} {c : Component}
    (held : (e.removed title p o).components q = some c) :
    e.components q = some c ∧ ∀ t, o.mComponents t ≠ 0 → o.mComponents t ≠ q := by
  have outside : ∀ t, o.mComponents t ≠ 0 → o.mComponents t ≠ q := by
    rintro t filled rfl
    rw [removed_component_slot title p o filled] at held
    simp at held
  have apart : ∀ t, ¬ (q = o.mComponents t ∧ q ≠ 0) :=
    fun t both => outside t (both.1 ▸ both.2) both.1.symm
  refine ⟨?_, outside⟩
  simpa [removed, deleted, setObject, apart] using held

/-- What remains of a registry: the components of three slots go from their own, and
nothing goes from the registry of physics components. -/
theorem removed_msInstances (title : Name) (p : Ptr) (o : GameObject) (t : ComponentType) :
    (e.removed title p o).msInstances t = match t with
      | .mesh => (e.msInstances .mesh).erase (o.mComponents .mesh)
      | .sound => (e.msInstances .sound).erase (o.mComponents .sound)
      | .camera => ((e.msInstances .camera).erase (o.mComponents .camera)).erase
          (o.mComponents .physics)
      | .physics => e.msInstances .physics := by
  cases t <;> simp [removed, deleted, setObject, registryOf]

theorem SameHolders.trans {e₁ e₂ : Engine} (first : SameHolders e e₁)
    (second : SameHolders e₁ e₂) : SameHolders e e₂ where
  inputManager := second.inputManager.trans first.inputManager
  listener := second.listener.trans first.listener
  activeCamera := second.activeCamera.trans first.activeCamera
  luaObjects := second.luaObjects.trans first.luaObjects

theorem removed_sameHolders (title : Name) (p : Ptr) (o : GameObject) :
    SameHolders e (e.removed title p o) := by
  have slots := (((withoutSlot_sameHolders (e := { e with
      sceneNodes := e.sceneNodes.erase o.mName }) o .mesh).trans
    (withoutSlot_sameHolders o .sound)).trans (withoutSlot_sameHolders o .camera)).trans
    (withoutSlot_sameHolders o .physics)
  exact ⟨slots.inputManager, slots.listener, slots.activeCamera, slots.luaObjects⟩

theorem removed_wellFormed (h : e.WellFormed) {title : Name} {p : Ptr} {o : GameObject}
    (found : e.mObjects.find? title = some p) (live : e.objects p = some o) :
    (e.removed title p o).WellFormed := by
  have name : o.mName = title := h.name_unique (h.listed p o live) found
  refine ⟨fun n q stored => ?_, fun q o' alive => ?_, fun q o' t alive filled => ?_⟩
  · rw [removed_find?] at stored
    split at stored
    · simp at stored
    next other =>
      obtain ⟨nonzero, node, o', alive, name'⟩ := h.stored n q stored
      have apart : q ≠ p := by
        rintro rfl
        exact other (h.name_unique stored found)
      refine ⟨nonzero, ?_, o', by rw [removed_objects, if_neg apart, alive], name'⟩
      rw [removed_sceneNodes, name]
      exact (List.mem_erase_of_ne other).mpr node
  · rw [removed_objects] at alive
    split at alive
    · simp at alive
    next apart =>
      have stored := h.listed q o' alive
      have other : o'.mName ≠ title := by
        intro same
        rw [same, found] at stored
        exact apart (Option.some.inj stored).symm
      rw [removed_find?, if_neg other, stored]
  · rw [removed_objects] at alive
    split at alive
    · simp at alive
    next apart =>
      obtain ⟨c, held, type, owner⟩ := h.slots q o' t alive filled
      refine ⟨c, ?_, type, owner⟩
      rw [removed_component_other, held]
      -- a component belongs to one object
      intro u same
      obtain ⟨c', held', -, owner'⟩ := h.slots p o u live (same ▸ filled)
      rw [← same, held] at held'
      obtain rfl := Option.some.inj held'
      exact apart (owner.symm.trans owner')

inductive Removals : Engine → List Name → Engine → Prop
  | nil (e : Engine) : Removals e [] e
  | cons {e e' : Engine} {title : Name} {titles : List Name} {p : Ptr} {o : GameObject} :
      e.mObjects.find? title = some p → e.objects p = some o →
      Removals (e.removed title p o) titles e' → Removals e (title :: titles) e'

namespace Removals

variable {titles : List Name}

theorem wellFormed (r : Removals e titles e') (h : e.WellFormed) : e'.WellFormed := by
  induction r with
  | nil e => exact h
  | cons found live _ ih => exact ih (removed_wellFormed h found live)

theorem sameHolders (r : Removals e titles e') : SameHolders e e' := by
  induction r with
  | nil e => exact ⟨rfl, rfl, rfl, rfl⟩
  | cons found live _ ih => exact (removed_sameHolders ..).trans ih

theorem find? (r : Removals e titles e') (n : Name) :
    e'.mObjects.find? n = if n ∈ titles then none else e.mObjects.find? n := by
  induction r with
  | nil e => simp
  | @cons e e' title titles p o found live _ ih =>
      rw [ih, removed_find?]
      by_cases same : n = title <;> by_cases later : n ∈ titles <;> simp [same, later]

theorem objects (r : Removals e titles e') (h : e.WellFormed) {n : Name} {p : Ptr} {o : GameObject}
    (kept : n ∉ titles) (stored : e.mObjects.find? n = some p) (alive : e.objects p = some o) :
    e'.objects p = some o := by
  induction r with
  | nil e => exact alive
  | @cons e e' title titles q u found live _ ih =>
      have other : n ≠ title := fun same => kept (by simp [same])
      have apart : p ≠ q := by
        rintro rfl
        exact other (h.name_unique stored found)
      exact ih (removed_wellFormed h found live) (fun later => kept (by simp [later]))
        (by rw [removed_find?, if_neg other, stored])
        (by rw [removed_objects, if_neg apart, alive])

end Removals

def Tagged (e : Engine) (tag : Int32) (n : Name) : Prop :=
  ∃ p o, e.mObjects.find? n = some p ∧ e.objects p = some o ∧ getTag o = tag

theorem tagged_iff {n : Name} {p : Ptr} {o : GameObject} (found : e.mObjects.find? n = some p)
    (live : e.objects p = some o) (tag : Int32) : e.Tagged tag n ↔ getTag o = tag := by
  constructor
  · rintro ⟨q, o', stored, alive, tagged⟩
    obtain rfl := Option.some.inj (found.symm.trans stored)
    obtain rfl := Option.some.inj (live.symm.trans alive)
    exact tagged
  · exact fun tagged => ⟨p, o, found, live, tagged⟩

theorem removed_tagged (h : e.WellFormed) {title : Name} {p : Ptr} {o : GameObject}
    (found : e.mObjects.find? title = some p) {tag : Int32} {n : Name} (other : n ≠ title) :
    (e.removed title p o).Tagged tag n ↔ e.Tagged tag n := by
  simp only [Tagged, removed_find?, if_neg other, removed_objects]
  constructor
  · rintro ⟨q, o', stored, alive, same⟩
    split at alive
    · simp at alive
    · exact ⟨q, o', stored, alive, same⟩
  · rintro ⟨q, o', stored, alive, same⟩
    have apart : q ≠ p := by
      rintro rfl
      exact other (h.name_unique stored found)
    exact ⟨q, o', stored, by rw [if_neg apart, alive], same⟩

theorem removeTagged_run (tag : Int32) (h : e.WellFormed) {entries : List (Name × Ptr)}
    (listed : ∀ entry ∈ entries, e.mObjects.find? entry.1 = some entry.2)
    (distinct : (entries.map Prod.fst).Nodup) :
    ∃ titles e', (removeTagged tag entries).run e = .returned () e' ∧ Removals e titles e' ∧
      ∀ n, n ∈ titles ↔ n ∈ entries.map Prod.fst ∧ e.Tagged tag n := by
  induction entries generalizing e with
  | nil => exact ⟨[], e, rfl, .nil e, by simp⟩
  | cons entry entries ih =>
      obtain ⟨title, p⟩ := entry
      obtain ⟨fresh, distinct⟩ := List.nodup_cons.mp distinct
      have found : e.mObjects.find? title = some p := listed (title, p) (by simp)
      obtain ⟨o, live, name⟩ := h.stored_object found
      rw [removeTagged, bind_of_returned (object_run live)]
      by_cases tagged : getTag o = tag
      · have others : ∀ entry ∈ entries,
            (e.removed title p o).mObjects.find? entry.1 = some entry.2 := by
          intro entry member
          have other : entry.1 ≠ title := by
            rintro rfl
            exact fresh (List.mem_map.mpr ⟨entry, member, rfl⟩)
          rw [removed_find?, if_neg other, listed entry (by simp [member])]
        obtain ⟨titles, e', returned, removals, names⟩ :=
          ih (removed_wellFormed h found live) others distinct
        rw [if_pos tagged, bind_of_returned (removeEntry_run h title live)]
        refine ⟨title :: titles, e', returned, .cons found live removals, fun n => ?_⟩
        rw [List.mem_cons, names, List.map_cons, List.mem_cons]
        by_cases same : n = title
        · subst same
          simp only [true_or, true_and, true_iff]
          exact (tagged_iff found live tag).mpr tagged
        · simp only [same, false_or, removed_tagged h found same]
      · obtain ⟨titles, e', returned, removals, names⟩ :=
          ih h (fun entry member => listed entry (by simp [member])) distinct
        rw [if_neg tagged]
        refine ⟨titles, e', returned, removals, fun n => ?_⟩
        rw [names, List.map_cons, List.mem_cons]
        by_cases same : n = title
        · subst same
          simp [tagged_iff found live, tagged]
        · simp [same]

theorem removeGameObjectByTag_run (tag : Int32) (h : e.WellFormed) :
    ∃ titles e', (removeGameObjectByTag tag).run e = .returned 0 e' ∧ Removals e titles e' ∧
      ∀ n, n ∈ titles ↔ e.Tagged tag n := by
  obtain ⟨titles, e', returned, removals, names⟩ := removeTagged_run tag h
    (fun entry member => (e.mObjects.mem_entries_iff entry.1 entry.2).mp member)
    (List.pairwise_map.mpr (e.mObjects.sorted.imp ne_of_lt))
  refine ⟨titles, e', ?_, removals, fun n => ?_⟩
  · unfold removeGameObjectByTag
    rw [bind_get_run, bind_of_returned returned, pure_run]
  · rw [names, and_iff_right_iff_imp]
    rintro ⟨p, -, found, -⟩
    exact List.mem_map.mpr ⟨(n, p), (e.mObjects.mem_entries_iff n p).mpr found, rfl⟩

theorem removeGameObject_run (title : Name) (h : e.WellFormed) :
    ∃ titles e' code, (removeGameObject title).run e = .returned code e' ∧
      Removals e titles e' ∧ ∀ n, n ∈ titles ↔ n = title ∧ ∃ p, e.mObjects.find? n = some p := by
  unfold removeGameObject
  rw [bind_get_run]
  cases found : e.mObjects.find? title with
  | none =>
      refine ⟨[], e, 0, rfl, .nil e, fun n => ?_⟩
      simp only [List.not_mem_nil, false_iff, not_and]
      rintro rfl
      simp [found]
  | some p =>
      obtain ⟨o, live, name⟩ := h.stored_object found
      refine ⟨[title], _, 1, bind_of_returned (removeEntry_run h title live) _,
        .cons found live (.nil _), fun n => ?_⟩
      rw [List.mem_singleton, iff_self_and]
      rintro rfl
      exact ⟨p, found⟩

end removal

end Ssuge.Engine

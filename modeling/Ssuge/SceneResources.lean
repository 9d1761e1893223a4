import Ssuge.EngineRuns
import Ssuge.NameLedger

/-! The named resources that game objects create in the scene manager: scene nodes,
entities, cameras, animations and animation states, each kind with its own names.
A constructor builds the name from the name of the object; a destructor names what
it destroys again. `created` is no data of the program: it records which resources
have been created under each live object and not been destroyed by its own calls. -/

namespace Ssuge

open CString Procedure GuardedRun NameLedger

inductive ResourceKind
  | sceneNode | entity | camera | animation | animationState
deriving DecidableEq, Repr

def ResourceKind.suffix : ResourceKind → Name
  | .sceneNode => []
  | .entity => chars "_mesh"
  | .camera => chars "_camera"
  | .animation => chars "an1"
  | .animationState => chars "an1"

def ResourceKind.nameFor (name : Name) (kind : ResourceKind) : Name := name ++ kind.suffix

structure Scene where
  engine : Engine
  entities : List Name
  animations : List Name
  animationStates : List Name
  /-- The entity of a mesh component, by its name. -/
  mEntity : Ptr → Option Name
  mAnimation : Ptr → Bool
  created : Ptr → List (Resource ResourceKind Name)

abbrev SceneProc := Proc Stop Scene

namespace Scene

def names (s : Scene) : ResourceKind → List Name
  | .sceneNode => s.engine.sceneNodes
  | .entity => s.entities
  | .camera => s.engine.cameras
  | .animation => s.animations
  | .animationState => s.animationStates

structure Foreign where
  names : ResourceKind → List Name
  nodup : ∀ kind, (names kind).Nodup

def start (foreign : Foreign) : Scene where
  engine := .start (foreign.names .sceneNode) (foreign.names .camera)
  entities := foreign.names .entity
  animations := foreign.names .animation
  animationStates := foreign.names .animationState
  mEntity _ := none
  mAnimation _ := false
  created _ := []

def onEngine {α : Type} (p : EngineProc α) : SceneProc α :=
  within Scene.engine (fun s e => { s with engine := e }) p

def record (obj : Ptr) (r : Resource ResourceKind Name) : SceneProc Unit :=
  modify fun s => { s with created := Function.update s.created obj (r :: s.created obj) }

def createGameObject (address : Ptr) (tag : UInt32) (title : Name) : SceneProc Ptr := do
  let obj ← onEngine (Engine.createGameObject address tag title)
  modify fun s => { s with
    mAnimation := Function.update s.mAnimation obj false
    created := Function.update s.created obj [⟨.sceneNode, title⟩] }
  pure obj

/-- A new mesh component has no entity; a camera component has created its camera. -/
def createComponent (t : ComponentType) (address owner : Ptr) : SceneProc Ptr := do
  let component ← onEngine (Engine.createComponent t address owner)
  modify fun s => { s with mEntity := Function.update s.mEntity component none }
  let o ← onEngine (Engine.object owner)
  if t = .camera then record owner ⟨.camera, o.mName ++ chars "_camera"⟩ else pure ()
  pure component

def createEntity (name : Name) : SceneProc Name := do
  require (name ∉ (← get).entities) (.threw .ogre)
  modify fun s => { s with entities := name :: s.entities }
  pure name

/-- `MeshComponent::loadMesh` of a mesh file that Ogre finds -/
def loadMesh (component : Ptr) : SceneProc Nat := do
  let c ← orStop ((← get).engine.components component) .undefined
  require (c.type = .mesh) .undefined
  let owner ← onEngine (Engine.object c.mOwner)
  let entity ← createEntity (owner.mName ++ chars "_mesh")
  modify fun s => { s with mEntity := Function.update s.mEntity component (some entity) }
  record c.mOwner ⟨.entity, entity⟩
  pure 0

/-- `GameObject::createAnimation`; an animation whose state cannot be created stays. -/
def createAnimation (obj : Ptr) : SceneProc Unit := do
  let o ← onEngine (Engine.object obj)
  require (o.mName ++ chars "an1" ∉ (← get).animations) (.threw .ogre)
  modify fun s => { s with animations := (o.mName ++ chars "an1") :: s.animations }
  record obj ⟨.animation, o.mName ++ chars "an1"⟩
  require (o.mName ++ chars "an1" ∉ (← get).animationStates) (.threw .ogre)
  modify fun s => { s with animationStates := (o.mName ++ chars "an1") :: s.animationStates }
  record obj ⟨.animationState, o.mName ++ chars "an1"⟩
  modify fun s => { s with mAnimation := Function.update s.mAnimation obj true }

/-- Strike a resource that its own object has destroyed. -/
def strike (obj : Ptr) (r : Resource ResourceKind Name) : SceneProc Unit :=
  modify fun s => { s with created := Function.update s.created obj ((s.created obj).erase r) }

/-- `GameObject::destroyAnimation`; Ogre throws when there is no such animation. -/
def destroyAnimation (obj : Ptr) : SceneProc Unit := do
  let o ← onEngine (Engine.object obj)
  modify fun s => { s with animationStates := s.animationStates.erase (o.mName ++ chars "an1") }
  strike obj ⟨.animationState, o.mName ++ chars "an1"⟩
  require (o.mName ++ chars "an1" ∈ (← get).animations) (.threw .ogre)
  modify fun s => { s with animations := s.animations.erase (o.mName ++ chars "an1") }
  strike obj ⟨.animation, o.mName ++ chars "an1"⟩
  modify fun s => { s with mAnimation := Function.update s.mAnimation obj false }

/-- `~MeshComponent` -/
def destroyEntity (component : Ptr) : SceneProc Unit := do
  match (← get).mEntity component with
  | some entity => modify fun s => { s with entities := s.entities.erase entity }
  | none => pure ()

def deleteComponent (p : Ptr) : SceneProc Unit :=
  if p = 0 then pure ()
  else do
    let c ← orStop ((← get).engine.components p) .undefined
    if c.type = .mesh then destroyEntity p else pure ()
    onEngine (Engine.deleteComponent p)

/-- One pass of the loop of `~GameObject`. -/
def destroySlot (o : GameObject) (t : ComponentType) : SceneProc Unit := do
  onEngine (Engine.deallocate (Engine.registryOf t) (o.mComponents t))
  deleteComponent (o.mComponents t)

def deleteGameObject (p : Ptr) : SceneProc Unit := do
  let o ← onEngine (Engine.object p)
  onEngine (modify fun e => { e with sceneNodes := e.sceneNodes.erase o.mName })
  destroySlot o .mesh
  destroySlot o .sound
  destroySlot o .camera
  destroySlot o .physics
  onEngine (modify fun e => e.setObject p none)
  modify fun s => { s with created := Function.update s.created p [] }

def removeGameObject (title : Name) : SceneProc Nat := do
  match (← get).engine.mObjects.find? title with
  | some obj =>
      deleteGameObject obj
      onEngine (modify fun e => { e with mObjects := e.mObjects.erase title })
      pure 1
  | none => pure 0

inductive Op
  | createGameObject (address : Ptr) (tag : UInt32) (title : Name)
  | createComponent (t : ComponentType) (address owner : Ptr)
  | loadMesh (component : Ptr)
  | createAnimation (obj : Ptr)
  | destroyAnimation (obj : Ptr)
  | removeGameObject (title : Name)

def Op.run : Op → SceneProc Unit
  | .createGameObject address tag title => discard (Scene.createGameObject address tag title)
  | .createComponent t address owner => discard (Scene.createComponent t address owner)
  | .loadMesh component => discard (Scene.loadMesh component)
  | .createAnimation obj => Scene.createAnimation obj
  | .destroyAnimation obj => Scene.destroyAnimation obj
  | .removeGameObject title => discard (Scene.removeGameObject title)

def Op.Allocatable (s : Scene) : Op → Prop
  | .createGameObject address .. | .createComponent _ address _ => s.engine.Fresh address
  | _ => True

instance (s : Scene) : (op : Op) → Decidable (op.Allocatable s)
  | .createGameObject address .. | .createComponent _ address _ =>
      inferInstanceAs (Decidable (s.engine.Fresh address))
  | .loadMesh _ | .createAnimation _ | .destroyAnimation _ | .removeGameObject _ => isTrue trivial

def settle {α : Type} : Ending Stop Scene α → Option Scene
  | .returned _ s => some s
  | .stopped (.threw _) s => some s
  | .stopped _ _ => none

def step (s : Scene) (op : Op) : Option Scene :=
  if op.Allocatable s then settle (op.run.run s) else none

/-- The component of a filled slot again, for the object at `address`. -/
def recreateComponent (o : GameObject) (address : Ptr) (components : ComponentType → Ptr)
    (t : ComponentType) : SceneProc Unit :=
  if o.mComponents t = 0 then pure ()
  else discard (createComponent t (components t) address)

def reloadMesh (s : Scene) (o : GameObject) (components : ComponentType → Ptr) :
    SceneProc Unit :=
  if o.mComponents .mesh ≠ 0 ∧ (s.mEntity (o.mComponents .mesh)).isSome
  then discard (loadMesh (components .mesh)) else pure ()

/-- Create an object again with the components, mesh and animation that it had in the
state `s`, from new memory. -/
def recreate (s : Scene) (p : Ptr) (o : GameObject) (address : Ptr)
    (components : ComponentType → Ptr) : SceneProc Unit := do
  discard (createGameObject address o.mTag o.mName)
  recreateComponent o address components .mesh
  s.reloadMesh o components
  recreateComponent o address components .sound
  recreateComponent o address components .camera
  recreateComponent o address components .physics
  if s.mAnimation p then createAnimation address else pure ()

section runs

variable {s s' : Scene} {α : Type}

theorem onEngine_of_returned {p : EngineProc α} {a : α} {e : Engine}
    (run : p.run s.engine = .returned a e) :
    (onEngine p).run s = .returned a { s with engine := e } := by
  rw [onEngine, within_run, run]

theorem onEngine_of_stopped {p : EngineProc α} {reason : Stop} {e : Engine}
    (run : p.run s.engine = .stopped reason e) :
    (onEngine p).run s = .stopped reason { s with engine := e } := by
  rw [onEngine, within_run, run]

theorem object_run {p : Ptr} {o : GameObject} (live : s.engine.objects p = some o) :
    (onEngine (Engine.object p)).run s = .returned o s :=
  onEngine_of_returned (Engine.object_run live)

theorem object_dead {p : Ptr} (dead : s.engine.objects p = none) :
    (onEngine (Engine.object p)).run s = .stopped .undefined s :=
  onEngine_of_stopped (Engine.object_dead dead)

def withObject (s : Scene) (address : Ptr) (tag : UInt32) (title : Name) : Scene :=
  { s with
    engine := s.engine.withObject address tag title
    mAnimation := Function.update s.mAnimation address false
    created := Function.update s.created address [⟨.sceneNode, title⟩] }

theorem createGameObject_taken (address : Ptr) (tag : UInt32) {title : Name}
    (taken : title ∈ s.engine.sceneNodes) :
    (createGameObject address tag title).run s = .stopped (.threw .ogre) s := by
  have refused := onEngine_of_stopped (Engine.createGameObject_taken address tag taken)
  unfold createGameObject
  rw [bind_of_stopped refused]

theorem createGameObject_free (h : s.engine.WellFormed) (address : Ptr) (tag : UInt32)
    {title : Name} (free : title ∉ s.engine.sceneNodes) :
    (createGameObject address tag title).run s =
      .returned address (s.withObject address tag title) := by
  have made := onEngine_of_returned (Engine.createGameObject_free h address tag free)
  unfold createGameObject
  rw [bind_of_returned made, bind_modify_run, pure_run]
  rfl

def withComponent (s : Scene) (t : ComponentType) (address owner : Ptr) (o : GameObject) : Scene :=
  { s with
    engine := s.engine.withComponent t address owner o
    mEntity := Function.update s.mEntity address none
    created := if t = .camera
      then Function.update s.created owner
        (⟨.camera, o.mName ++ chars "_camera"⟩ :: s.created owner)
      else s.created }

theorem createComponent_taken {t : ComponentType} {address owner : Ptr} {o : GameObject}
    (live : s.engine.objects owner = some o) (camera : t = .camera)
    (taken : o.mName ++ chars "_camera" ∈ s.engine.cameras) :
    (createComponent t address owner).run s = .stopped (.threw .ogre) s := by
  have refused : (Engine.createComponent t address owner).run s.engine =
      .stopped (.threw .ogre) s.engine := Engine.createComponent_taken live camera taken
  unfold createComponent
  rw [bind_of_stopped (onEngine_of_stopped refused)]

theorem createComponent_free {t : ComponentType} {address owner : Ptr} {o : GameObject}
    (live : s.engine.objects owner = some o)
    (free : t = .camera → o.mName ++ chars "_camera" ∉ s.engine.cameras) :
    (createComponent t address owner).run s =
      .returned address (s.withComponent t address owner o) := by
  have made : (Engine.createComponent t address owner).run s.engine =
      .returned address (s.engine.withComponent t address owner o) :=
    Engine.createComponent_free live free
  have still : (s.engine.withComponent t address owner o).objects owner =
      some { o with mComponents := Function.update o.mComponents t address } := by
    simp [Engine.withComponent, Engine.setObject]
  unfold createComponent
  rw [bind_of_returned (onEngine_of_returned made), bind_modify_run,
    bind_of_returned (object_run still)]
  by_cases camera : t = .camera
  · rw [if_pos camera, record, bind_modify_run, pure_run, withComponent, if_pos camera]
  · rw [if_neg camera, pure_run, withComponent, if_neg camera]

theorem createComponent_dead {t : ComponentType} {address owner : Ptr}
    (dead : s.engine.objects owner = none) :
    (createComponent t address owner).run s = .stopped .undefined s := by
  have refused : (Engine.createComponent t address owner).run s.engine =
      .stopped .undefined s.engine := by
    have first : (Engine.newComponent t address owner).run s.engine =
        .stopped .undefined s.engine := by
      unfold Engine.newComponent
      rw [bind_of_stopped (Engine.object_dead dead)]
    have second : (Engine.allocate t address owner).run s.engine =
        .stopped .undefined s.engine := by
      unfold Engine.allocate
      rw [bind_of_stopped first]
    unfold Engine.createComponent
    rw [bind_of_stopped second]
  unfold createComponent
  rw [bind_of_stopped (onEngine_of_stopped refused)]

def withEntity (s : Scene) (component owner : Ptr) (entity : Name) : Scene :=
  { s with
    entities := entity :: s.entities
    mEntity := Function.update s.mEntity component (some entity)
    created := Function.update s.created owner (⟨.entity, entity⟩ :: s.created owner) }

theorem loadMesh_run {component : Ptr} {c : Component} {o : GameObject}
    (held : s.engine.components component = some c) (mesh : c.type = .mesh)
    (live : s.engine.objects c.mOwner = some o) :
    (loadMesh component).run s = if o.mName ++ chars "_mesh" ∈ s.entities
      then .stopped (.threw .ogre) s
      else .returned 0 (s.withEntity component c.mOwner (o.mName ++ chars "_mesh")) := by
  unfold loadMesh
  rw [bind_get_run, held, bind_some_run, bind_of_returned (require_pos mesh _ _),
    bind_of_returned (object_run live)]
  unfold createEntity
  split
  next taken =>
    rw [bind_of_stopped]
    rw [bind_get_run, bind_of_stopped (require_neg (not_not.mpr taken) _ _)]
  next free =>
    have made : (do
        require (o.mName ++ chars "_mesh" ∉ (← get).entities) (.threw .ogre)
        modify fun s => { s with entities := (o.mName ++ chars "_mesh") :: s.entities }
        pure (o.mName ++ chars "_mesh") : SceneProc Name).run s =
        .returned (o.mName ++ chars "_mesh")
          { s with entities := (o.mName ++ chars "_mesh") :: s.entities } := by
      rw [bind_get_run, bind_of_returned (require_pos free _ _), bind_modify_run, pure_run]
    rw [bind_of_returned made, bind_modify_run, record, bind_modify_run, pure_run]
    rfl

theorem loadMesh_settled {component : Ptr}
    (returned : settle ((loadMesh component).run s) = some s') :
    ∃ c o, s.engine.components component = some c ∧ c.type = .mesh ∧
      s.engine.objects c.mOwner = some o := by
  unfold loadMesh at returned
  rw [bind_get_run] at returned
  cases held : s.engine.components component with
  | none => simp [held, settle] at returned
  | some c =>
      rw [held, bind_some_run] at returned
      by_cases mesh : c.type = .mesh
      · rw [bind_of_returned (require_pos mesh _ _)] at returned
        cases live : s.engine.objects c.mOwner with
        | none =>
            rw [bind_of_stopped (object_dead live)] at returned
            simp [settle] at returned
        | some o => exact ⟨c, o, rfl, mesh, live⟩
      · rw [bind_of_stopped (require_neg mesh _ _)] at returned
        simp [settle] at returned

def withAnimation (s : Scene) (obj : Ptr) (name : Name) : Scene :=
  { s with
    animations := name :: s.animations
    created := Function.update s.created obj (⟨.animation, name⟩ :: s.created obj) }

def withAnimationState (s : Scene) (obj : Ptr) (name : Name) : Scene :=
  { s with
    animationStates := name :: s.animationStates
    created := Function.update s.created obj (⟨.animationState, name⟩ :: s.created obj) }

def withScript (s : Scene) (obj : Ptr) (animated : Bool) : Scene :=
  { s with mAnimation := Function.update s.mAnimation obj animated }

theorem createAnimation_run {obj : Ptr} {o : GameObject}
    (live : s.engine.objects obj = some o) :
    (createAnimation obj).run s = if o.mName ++ chars "an1" ∈ s.animations
      then .stopped (.threw .ogre) s
      else if o.mName ++ chars "an1" ∈ s.animationStates
      then .stopped (.threw .ogre) (s.withAnimation obj (o.mName ++ chars "an1"))
      else .returned () (((s.withAnimation obj (o.mName ++ chars "an1")).withAnimationState obj
        (o.mName ++ chars "an1")).withScript obj true) := by
  unfold createAnimation
  rw [bind_of_returned (object_run live), bind_get_run]
  split
  next taken => rw [bind_of_stopped (require_neg (not_not.mpr taken) _ _)]
  next free =>
    rw [bind_of_returned (require_pos free _ _), bind_modify_run, record, bind_modify_run,
      bind_get_run]
    split
    next taken =>
      rw [bind_of_stopped (require_neg (not_not.mpr taken) _ _)]
      rfl
    next free =>
      rw [bind_of_returned (require_pos free _ _), bind_modify_run, record, bind_modify_run,
        modify_run]
      rfl

def withoutAnimation (s : Scene) (obj : Ptr) (name : Name) : Scene :=
  { s with
    animations := s.animations.erase name
    created := Function.update s.created obj ((s.created obj).erase ⟨.animation, name⟩) }

def withoutAnimationState (s : Scene) (obj : Ptr) (name : Name) : Scene :=
  { s with
    animationStates := s.animationStates.erase name
    created := Function.update s.created obj ((s.created obj).erase ⟨.animationState, name⟩) }

theorem destroyAnimation_run {obj : Ptr} {o : GameObject}
    (live : s.engine.objects obj = some o) :
    (destroyAnimation obj).run s = if o.mName ++ chars "an1" ∈ s.animations
      then .returned () (((s.withoutAnimationState obj (o.mName ++ chars "an1")).withoutAnimation
        obj (o.mName ++ chars "an1")).withScript obj false)
      else .stopped (.threw .ogre) (s.withoutAnimationState obj (o.mName ++ chars "an1")) := by
  unfold destroyAnimation
  rw [bind_of_returned (object_run live), bind_modify_run, strike, bind_modify_run, bind_get_run]
  split
  next found =>
    rw [bind_of_returned (require_pos found _ _), bind_modify_run, strike, bind_modify_run,
      modify_run]
    rfl
  next absent =>
    rw [bind_of_stopped (require_neg absent _ _)]
    rfl

def entitiesWithout (s : Scene) (o : GameObject) (t : ComponentType) : List Name :=
  if t = .mesh ∧ o.mComponents t ≠ 0 then
    match s.mEntity (o.mComponents t) with
    | some entity => s.entities.erase entity
    | none => s.entities
  else s.entities

def withoutSlot (s : Scene) (o : GameObject) (t : ComponentType) : Scene :=
  { s with engine := s.engine.withoutSlot o t, entities := s.entitiesWithout o t }

theorem destroyEntity_run (component : Ptr) : (destroyEntity component).run s = .returned ()
    { s with entities := match s.mEntity component with
      | some entity => s.entities.erase entity
      | none => s.entities } := by
  unfold destroyEntity
  rw [bind_get_run]
  cases s.mEntity component <;> rfl

theorem destroySlot_run {p : Ptr} {o : GameObject} {t : ComponentType}
    (live : s.engine.objects p = some o) (valid : s.engine.SlotValid p o t) :
    (destroySlot o t).run s = .returned () (s.withoutSlot o t) := by
  have taken : (Engine.deallocate (Engine.registryOf t) (o.mComponents t)).run s.engine =
      .returned () (s.engine.deregistered o t) := rfl
  have gone := Engine.deleteComponent_run (e := s.engine.deregistered o t) live valid
  unfold destroySlot
  rw [bind_of_returned (onEngine_of_returned taken), deleteComponent]
  split
  next empty =>
    rw [pure_run, withoutSlot, entitiesWithout, if_neg (fun h => h.2 empty), Engine.withoutSlot,
      Engine.withoutComponent, if_pos empty]
  next filled =>
    obtain ⟨c, found, type, owns⟩ := valid filled
    have component : (s.engine.deregistered o t).components (o.mComponents t) = some c := found
    rw [bind_get_run, component, bind_some_run, type]
    by_cases mesh : t = .mesh
    · rw [if_pos mesh, bind_of_returned (destroyEntity_run _), onEngine_of_returned gone,
        withoutSlot, entitiesWithout, if_pos ⟨mesh, filled⟩]
      rfl
    · rw [if_neg mesh, onEngine_of_returned gone, withoutSlot, entitiesWithout,
        if_neg (fun h => mesh h.1)]
      rfl

def removed (s : Scene) (title : Name) (p : Ptr) (o : GameObject) : Scene :=
  { s with
    engine := s.engine.removed title p o
    entities := s.entitiesWithout o .mesh
    created := Function.update s.created p [] }

theorem removeGameObject_run (h : s.engine.WellFormed) {title : Name} {p : Ptr} {o : GameObject}
    (found : s.engine.mObjects.find? title = some p) (live : s.engine.objects p = some o) :
    (removeGameObject title).run s = .returned 1 (s.removed title p o) := by
  set s₀ : Scene := { s with engine := { s.engine with
    sceneNodes := s.engine.sceneNodes.erase o.mName } }
  have valid : ∀ t, s₀.engine.SlotValid p o t := fun t => h.slots p o t live
  have first := destroySlot_run (s := s₀) live (valid .mesh)
  have valid₁ : ∀ t ≠ .mesh, (s₀.withoutSlot o .mesh).engine.SlotValid p o t :=
    fun t apart => (valid .mesh).withoutSlot (valid t) apart
  have second := destroySlot_run (s := s₀.withoutSlot o .mesh) (by simpa [withoutSlot] using live)
    (valid₁ .sound (by decide))
  have valid₂ : ∀ t ≠ .mesh, t ≠ .sound →
      ((s₀.withoutSlot o .mesh).withoutSlot o .sound).engine.SlotValid p o t :=
    fun t apart => (valid₁ .sound (by decide)).withoutSlot (valid₁ t apart)
  have third := destroySlot_run (s := (s₀.withoutSlot o .mesh).withoutSlot o .sound)
    (by simpa [withoutSlot] using live) (valid₂ .camera (by decide) (by decide))
  have fourth := destroySlot_run
    (s := ((s₀.withoutSlot o .mesh).withoutSlot o .sound).withoutSlot o .camera)
    (by simpa [withoutSlot] using live) ((valid₂ .camera (by decide) (by decide)).withoutSlot
      (valid₂ .physics (by decide) (by decide)) (by decide))
  have node : (modify fun e : Engine => { e with sceneNodes := e.sceneNodes.erase o.mName } :
      EngineProc Unit).run s.engine = .returned () s₀.engine := rfl
  have deletion : (deleteGameObject p).run s = .returned ()
      { s with
        engine := s.engine.deleted p o
        entities := s.entitiesWithout o .mesh
        created := Function.update s.created p [] } := by
    unfold deleteGameObject
    rw [bind_of_returned (object_run live), bind_of_returned (onEngine_of_returned node),
      bind_of_returned first, bind_of_returned second, bind_of_returned third,
      bind_of_returned fourth, bind_of_returned (onEngine_of_returned (modify_run _ _)),
      modify_run]
    rfl
  unfold removeGameObject
  rw [bind_get_run, found]
  change (deleteGameObject p >>= _).run s = _
  rw [bind_of_returned deletion, bind_of_returned (onEngine_of_returned (modify_run _ _)),
    pure_run]
  rfl

theorem removeGameObject_absent {title : Name} (absent : s.engine.mObjects.find? title = none) :
    (removeGameObject title).run s = .returned 0 s := by
  unfold removeGameObject
  rw [bind_get_run, absent]
  rfl

end runs

end Scene

end Ssuge

import Ssuge.SceneResources

/-! What removing an object leaves of the scene manager's resources. A ledger of what each
object has created stays sound along every run in which only objects without camera
and animation are removed; and a removal leaves exactly the resources of the other
objects, and of the others, if and only if the object is such a one. -/

namespace Ssuge.Scene

open CString Procedure GuardedRun NameLedger

section ledger

variable {s s' : Scene}

def ledger (s : Scene) : Ledger ResourceKind Name Ptr := ⟨s.names, s.created⟩

def nameOf (s : Scene) (p : Ptr) : Option Name := (s.engine.objects p).map GameObject.mName

/-- The ledger of a well-formed scene: it is sound, and lists every resource that a live
object would destroy. -/
structure Accounted (s : Scene) : Prop where
  wellFormed : s.engine.WellFormed
  sound : Sound ResourceKind.nameFor s.nameOf s.ledger
  node : ∀ p o, s.engine.objects p = some o → ⟨.sceneNode, o.mName⟩ ∈ s.created p
  camera : ∀ p o, s.engine.objects p = some o → o.mComponents .camera ≠ 0 →
    ∃ n, ⟨.camera, n⟩ ∈ s.created p
  animation : ∀ p, s.mAnimation p = true → ∀ o, s.engine.objects p = some o →
    ⟨.animation, o.mName ++ chars "an1"⟩ ∈ s.created p
  entity : ∀ p o n, s.engine.objects p = some o → o.mComponents .mesh ≠ 0 →
    s.mEntity (o.mComponents .mesh) = some n → ⟨.entity, n⟩ ∈ s.created p

theorem nameFor_inj (kind : ResourceKind) (m n : Name)
    (same : ResourceKind.nameFor m kind = ResourceKind.nameFor n kind) : m = n :=
  List.append_cancel_right same

theorem Accounted.nameOf_inj (h : s.Accounted) (p q : Ptr) (n : Name)
    (first : s.nameOf p = some n) (second : s.nameOf q = some n) : p = q := by
  obtain ⟨o, live, rfl⟩ := Option.map_eq_some_iff.mp first
  obtain ⟨o', live', name⟩ := Option.map_eq_some_iff.mp second
  have stored := h.wellFormed.listed q o' live'
  rw [name, h.wellFormed.listed p o live] at stored
  exact Option.some.inj stored

theorem Accounted.name_of (h : s.Accounted) {p : Ptr} {o : GameObject}
    (live : s.engine.objects p = some o) {r : Resource ResourceKind Name}
    (member : r ∈ s.created p) : r.name = o.mName ++ r.kind.suffix := by
  obtain ⟨n, named, name⟩ := h.sound.named p r member
  rw [nameOf, live] at named
  obtain rfl := Option.some.inj named
  exact name

theorem ledger_ext {l l' : Ledger ResourceKind Name Ptr}
    (names : ∀ kind, l.names kind = l'.names kind) (created : l.created = l'.created) : l = l' := by
  obtain ⟨n, c⟩ := l
  obtain ⟨n', c'⟩ := l'
  obtain rfl : n = n' := funext names
  obtain rfl : c = c' := created
  rfl

theorem withEntity_ledger (component owner : Ptr) (n : Name) :
    (s.withEntity component owner n).ledger = create s.ledger owner ⟨.entity, n⟩ :=
  ledger_ext (fun kind => by cases kind <;> simp [ledger, withEntity, names, create]) rfl

theorem withAnimation_ledger (obj : Ptr) (n : Name) :
    (s.withAnimation obj n).ledger = create s.ledger obj ⟨.animation, n⟩ :=
  ledger_ext (fun kind => by cases kind <;> simp [ledger, withAnimation, names, create]) rfl

theorem withAnimationState_ledger (obj : Ptr) (n : Name) :
    (s.withAnimationState obj n).ledger = create s.ledger obj ⟨.animationState, n⟩ :=
  ledger_ext (fun kind => by cases kind <;> simp [ledger, withAnimationState, names, create]) rfl

theorem withoutAnimation_ledger (obj : Ptr) (n : Name) :
    (s.withoutAnimation obj n).ledger = destroy s.ledger obj ⟨.animation, n⟩ :=
  ledger_ext (fun kind => by cases kind <;> simp [ledger, withoutAnimation, names, destroy]) rfl

theorem withoutAnimationState_ledger (obj : Ptr) (n : Name) :
    (s.withoutAnimationState obj n).ledger = destroy s.ledger obj ⟨.animationState, n⟩ :=
  ledger_ext (fun kind => by cases kind <;> simp [ledger, withoutAnimationState, names, destroy])
    rfl

theorem withObject_ledger {address : Ptr} (unowned : s.created address = []) (tag : UInt32)
    (title : Name) : (s.withObject address tag title).ledger =
      create s.ledger address ⟨.sceneNode, title⟩ := by
  refine ledger_ext (fun kind => ?_) ?_
  · cases kind <;> simp [ledger, withObject, names, create, Engine.withObject, Engine.constructed,
      Engine.setObject]
  · simp [ledger, withObject, create, unowned]

theorem withComponent_ledger (t : ComponentType) (address owner : Ptr) (o : GameObject) :
    (s.withComponent t address owner o).ledger = if t = .camera
      then create s.ledger owner ⟨.camera, o.mName ++ chars "_camera"⟩ else s.ledger := by
  by_cases camera : t = .camera
  · rw [if_pos camera]
    refine ledger_ext (fun kind => ?_) ?_
    · cases kind <;> simp [ledger, withComponent, names, create, Engine.withComponent,
        Engine.allocated, Engine.setObject, Engine.setComponent, camera]
    · simp [ledger, withComponent, create, camera]
  · rw [if_neg camera]
    refine ledger_ext (fun kind => ?_) ?_
    · cases kind <;> simp [ledger, withComponent, names, Engine.withComponent,
        Engine.allocated, Engine.setObject, Engine.setComponent, camera]
    · simp [ledger, withComponent, camera]

end ledger

section removal

variable {s s' : Scene}

/-- Exactly the resources of the object at `p` are gone: every other name is in use as
before, others keep their resources, and the object can be created again. -/
structure Released (s : Scene) (p : Ptr) (s' : Scene) : Prop where
  exact : ∀ kind n, n ∈ s'.names kind ↔ n ∈ s.names kind ∧ ⟨kind, n⟩ ∉ s.created p
  others : ∀ q ≠ p, ∀ r ∈ s.created q, r.name ∈ s'.names r.kind
  again : ∀ o, s.engine.objects p = some o → ∀ address components,
    ((s.recreate p o address components).run s').returns = true

/-- Removing an object releases exactly its resources. -/
def Releases (s : Scene) : Op → Prop
  | .removeGameObject title => ∀ p, s.engine.mObjects.find? title = some p →
      ∃ s', (removeGameObject title).run s = .returned 1 s' ∧ Released s p s'
  | _ => True

/-- The mesh component in the slot of the object at `p` holds the entity. -/
def HoldsEntity (s : Scene) (p : Ptr) (entity : Name) : Prop :=
  ∃ o, s.engine.objects p = some o ∧ o.mComponents .mesh ≠ 0 ∧
    s.mEntity (o.mComponents .mesh) = some entity

/-- All that the object has created and not destroyed is its scene node and an entity
that the component in its mesh slot holds. -/
def Releasable (s : Scene) (p : Ptr) : Prop :=
  ∀ r ∈ s.created p, r.kind = .sceneNode ∨ r.kind = .entity ∧ s.HoldsEntity p r.name

/-- An object is removed only while it has no camera and no animation, and no entity
but that of its mesh component. -/
def ReleaseGuard (s : Scene) : Op → Prop
  | .removeGameObject title => ∀ p, s.engine.mObjects.find? title = some p → s.Releasable p
  | _ => True

theorem removed_names (title : Name) (p : Ptr) (o : GameObject) (kind : ResourceKind) :
    (s.removed title p o).names kind = match kind with
      | .sceneNode => s.engine.sceneNodes.erase o.mName
      | .entity => s.entitiesWithout o .mesh
      | .camera => if o.mComponents .camera = 0 then s.engine.cameras
          else s.engine.cameras.erase o.mName
      | .animation => s.animations
      | .animationState => s.animationStates := by
  cases kind with
  | sceneNode => exact Engine.removed_sceneNodes ..
  | camera => exact Engine.removed_cameras ..
  | entity | animation | animationState => rfl

variable {p : Ptr} {o : GameObject}

theorem Accounted.entitiesWithout (h : s.Accounted) (live : s.engine.objects p = some o) :
    s.HoldsEntity p (o.mName ++ chars "_mesh") ∧
        s.entitiesWithout o .mesh = s.entities.erase (o.mName ++ chars "_mesh") ∨
      (∀ n, ¬ s.HoldsEntity p n) ∧ s.entitiesWithout o .mesh = s.entities := by
  by_cases empty : o.mComponents .mesh = 0
  · refine .inr ⟨?_, by rw [Scene.entitiesWithout, if_neg (fun h => h.2 empty)]⟩
    rintro n ⟨o', live', filled, -⟩
    obtain rfl := Option.some.inj (live.symm.trans live')
    exact filled empty
  · rw [Scene.entitiesWithout, if_pos ⟨rfl, empty⟩]
    cases held : s.mEntity (o.mComponents .mesh) with
    | none =>
        refine .inr ⟨?_, rfl⟩
        rintro n ⟨o', live', -, held'⟩
        obtain rfl := Option.some.inj (live.symm.trans live')
        simp [held] at held'
    | some n =>
        obtain rfl : n = o.mName ++ chars "_mesh" :=
          h.name_of live (h.entity p o n live empty held)
        exact .inl ⟨⟨o, live, empty, held⟩, rfl⟩

theorem Accounted.releasable_of (h : s.Accounted) (title : Name)
    (live : s.engine.objects p = some o)
    (gone : ∀ r ∈ s.created p, r.name ∉ (s.removed title p o).names r.kind) :
    s.Releasable p := by
  intro r member
  have present := h.sound.present p r member
  have name := h.name_of live member
  have absent := gone r member
  rw [removed_names] at absent
  obtain ⟨kind, n⟩ := r
  cases kind with
  | sceneNode => exact .inl rfl
  | entity =>
      obtain rfl : n = o.mName ++ chars "_mesh" := name
      rcases h.entitiesWithout live with ⟨holds, -⟩ | ⟨-, kept⟩
      · exact .inr ⟨rfl, holds⟩
      · rw [kept] at absent
        exact absurd present absent
  | camera =>
      -- the destructor names the object itself, which is no name of its camera
      obtain rfl : n = o.mName ++ chars "_camera" := name
      have apart : o.mName ++ chars "_camera" ≠ o.mName := by simp [chars]
      refine absurd ?_ absent
      dsimp only
      split
      · exact present
      · exact (List.mem_erase_of_ne apart).mpr present
  | animation => exact absurd present absent
  | animationState => exact absurd present absent

theorem spared_none {kind : ResourceKind} (none : ∀ n, ⟨kind, n⟩ ∉ s.created p) :
    spared s.ledger p kind = s.names kind :=
  spared_eq_self none

theorem Accounted.spared_one (h : s.Accounted) {kind : ResourceKind} {name : Name}
    (only : ∀ n, ⟨kind, n⟩ ∈ s.created p ↔ n = name) :
    spared s.ledger p kind = (s.names kind).erase name :=
  spared_eq_erase (r := ⟨kind, name⟩) (h.sound.nodup kind) only

/-- What is left after a releasable object is removed is all that was not its own. -/
theorem Accounted.removed_ledger (h : s.Accounted) (title : Name)
    (live : s.engine.objects p = some o) (releasable : s.Releasable p) :
    (s.removed title p o).ledger = drop s.ledger p := by
  have noCamera : o.mComponents .camera = 0 := by
    by_contra filled
    obtain ⟨n, member⟩ := h.camera p o live filled
    simpa using releasable _ member
  have others : ∀ kind, kind ≠ .sceneNode → kind ≠ .entity →
      spared s.ledger p kind = s.names kind := by
    intro kind noNode noEntity
    refine spared_none fun n member => ?_
    rcases releasable _ member with node | ⟨entity, -⟩
    · exact noNode node
    · exact noEntity entity
  refine ledger_ext (fun kind => ?_) rfl
  change (s.removed title p o).names kind = spared s.ledger p kind
  rw [removed_names]
  cases kind with
  | sceneNode =>
      have only : ∀ n, ⟨.sceneNode, n⟩ ∈ s.created p ↔ n = o.mName := by
        intro n
        constructor
        · exact fun member => by simpa [ResourceKind.suffix] using h.name_of live member
        · rintro rfl
          exact h.node p o live
      exact (h.spared_one only).symm
  | entity =>
      rcases h.entitiesWithout live with ⟨⟨o', live', filled, held⟩, erased⟩ | ⟨none, kept⟩
      · obtain rfl := Option.some.inj (live.symm.trans live')
        have only : ∀ n, ⟨.entity, n⟩ ∈ s.created p ↔ n = o.mName ++ chars "_mesh" := by
          intro n
          constructor
          · exact fun member => h.name_of live member
          · rintro rfl
            exact h.entity p o _ live filled held
        exact erased.trans (h.spared_one only).symm
      · have nothing : ∀ n, ⟨.entity, n⟩ ∉ s.created p := by
          intro n member
          rcases releasable _ member with node | ⟨-, holds⟩
          · simp at node
          · exact none n holds
        exact kept.trans (spared_none nothing).symm
  | camera =>
      dsimp only
      rw [if_pos noCamera]
      exact (others .camera (by decide) (by decide)).symm
  | animation => exact (others .animation (by decide) (by decide)).symm
  | animationState => exact (others .animationState (by decide) (by decide)).symm

end removal

section accounts

variable {s : Scene}

theorem withObject_nameOf (address : Ptr) (tag : UInt32) (title : Name) :
    (s.withObject address tag title).nameOf = Function.update s.nameOf address (some title) := by
  funext q
  by_cases same : q = address <;> simp [nameOf, withObject, same]

theorem object_of_withObject {address q : Ptr} {tag : UInt32} {title : Name} {o : GameObject}
    (live : (s.withObject address tag title).engine.objects q = some o) :
    (q = address ∧ o = ⟨tag, title, false, fun _ => 0⟩) ∨
      (q ≠ address ∧ s.engine.objects q = some o ∧
        (s.withObject address tag title).created q = s.created q) := by
  by_cases same : q = address
  · subst same
    refine .inl ⟨rfl, Option.some.inj (live.symm.trans ?_)⟩
    simp [Scene.withObject]
  · exact .inr ⟨same, by simpa [Scene.withObject, same] using live,
      by simp [Scene.withObject, same]⟩

theorem Accounted.withObject (h : s.Accounted) {address : Ptr} (fresh : s.engine.Fresh address)
    (tag : UInt32) {title : Name} (free : title ∉ s.engine.sceneNodes) :
    (s.withObject address tag title).Accounted := by
  have unnamed : s.nameOf address = none := by simp [nameOf, fresh.2.1]
  have unowned : s.created address = [] := h.sound.nameless unnamed
  refine ⟨Engine.withObject_wellFormed h.wellFormed fresh tag free, ?_, fun q o live => ?_,
    fun q o live filled => ?_, fun q animated o live => ?_, fun q o n live filled held => ?_⟩
  · rw [withObject_nameOf, withObject_ledger unowned]
    have more : ∀ q n, s.nameOf q = some n →
        Function.update s.nameOf address (some title) q = some n := by
      intro q n named
      have apart : q ≠ address := by
        rintro rfl
        simp [unnamed] at named
      rw [Function.update_of_ne apart, named]
    exact (h.sound.mono more).create (Function.update_self ..)
      (by simp [ResourceKind.nameFor, ResourceKind.suffix]) free
  · rcases object_of_withObject live with ⟨rfl, rfl⟩ | ⟨-, before, created⟩
    · simp [Scene.withObject]
    · rw [created]
      exact h.node q o before
  · rcases object_of_withObject live with ⟨rfl, rfl⟩ | ⟨-, before, created⟩
    · exact absurd rfl filled
    · rw [created]
      exact h.camera q o before filled
  · rcases object_of_withObject live with ⟨rfl, rfl⟩ | ⟨apart, before, created⟩
    · simp [Scene.withObject] at animated
    · rw [created]
      exact h.animation q (by simpa [Scene.withObject, apart] using animated) o before
  · rcases object_of_withObject live with ⟨rfl, rfl⟩ | ⟨-, before, created⟩
    · exact absurd rfl filled
    · rw [created]
      exact h.entity q o n before filled held

theorem withComponent_object (t : ComponentType) {address owner : Ptr} {o : GameObject} (q : Ptr) :
    (s.withComponent t address owner o).engine.objects q = if q = owner
      then some { o with mComponents := Function.update o.mComponents t address }
      else s.engine.objects q := by
  simp [withComponent, Engine.withComponent, Engine.setObject, Engine.allocated,
    Engine.setComponent, Function.update_apply]

theorem object_of_withComponent {t : ComponentType} (address : Ptr) {owner q : Ptr}
    {o o' : GameObject} (live : s.engine.objects owner = some o)
    (alive : (s.withComponent t address owner o).engine.objects q = some o') :
    ∃ o₀, s.engine.objects q = some o₀ ∧ o'.mName = o₀.mName ∧
      ∀ u, o'.mComponents u = o₀.mComponents u ∨
        q = owner ∧ u = t ∧ o'.mComponents u = address := by
  rw [withComponent_object] at alive
  by_cases same : q = owner
  · rw [if_pos same] at alive
    obtain rfl := Option.some.inj alive
    refine ⟨o, same ▸ live, rfl, fun u => ?_⟩
    by_cases slot : u = t
    · exact .inr ⟨same, slot, by simp [slot]⟩
    · exact .inl (by simp [slot])
  · rw [if_neg same] at alive
    exact ⟨o', alive, rfl, fun _ => .inl rfl⟩

theorem withComponent_created {t : ComponentType} {address owner q : Ptr} {o : GameObject}
    {r : Resource ResourceKind Name} (member : r ∈ s.created q) :
    r ∈ (s.withComponent t address owner o).created q := by
  by_cases camera : t = .camera
  · by_cases same : q = owner
    · subst same
      simp [withComponent, camera, member]
    · simp [withComponent, camera, same, member]
  · simp [withComponent, camera, member]

theorem Accounted.withComponent (h : s.Accounted) {t : ComponentType} {address owner : Ptr}
    {o : GameObject} (fresh : s.engine.Fresh address) (live : s.engine.objects owner = some o)
    (free : t = .camera → o.mName ++ chars "_camera" ∉ s.engine.cameras) :
    (s.withComponent t address owner o).Accounted := by
  have name : s.nameOf owner = some o.mName := by simp [nameOf, live]
  have names : (s.withComponent t address owner o).nameOf = s.nameOf := by
    funext q
    rw [nameOf, withComponent_object]
    by_cases same : q = owner
    · rw [if_pos same, same, name]
      rfl
    · rw [if_neg same, nameOf]
  refine ⟨Engine.withComponent_wellFormed h.wellFormed fresh live, ?_, fun q o' alive => ?_,
    fun q o' alive filled => ?_, fun q animated o' alive => ?_, fun q o' n alive filled held => ?_⟩
  · rw [names, withComponent_ledger]
    split
    next camera => exact h.sound.create name rfl (free camera)
    · exact h.sound
  · obtain ⟨o₀, alive₀, same, -⟩ := object_of_withComponent address live alive
    exact withComponent_created (same ▸ h.node q o₀ alive₀)
  · obtain ⟨o₀, alive₀, -, slots⟩ := object_of_withComponent address live alive
    rcases slots .camera with kept | ⟨rfl, rfl, -⟩
    · obtain ⟨n, member⟩ := h.camera q o₀ alive₀ (kept ▸ filled)
      exact ⟨n, withComponent_created member⟩
    · exact ⟨o.mName ++ chars "_camera", by simp [Scene.withComponent]⟩
  · obtain ⟨o₀, alive₀, same, -⟩ := object_of_withComponent address live alive
    exact withComponent_created (same ▸ h.animation q animated o₀ alive₀)
  · obtain ⟨o₀, alive₀, -, slots⟩ := object_of_withComponent address live alive
    rcases slots .mesh with kept | ⟨rfl, rfl, slot⟩
    · rw [kept] at filled held
      have apart := Engine.slot_apart h.wellFormed fresh alive₀ filled
      exact withComponent_created (h.entity q o₀ n alive₀ filled
        (by simpa [Scene.withComponent, apart] using held))
    · simp [Scene.withComponent, slot] at held

theorem Accounted.relist (h : s.Accounted) {s' : Scene} (engine : s'.engine = s.engine)
    (sound : Sound ResourceKind.nameFor s.nameOf s'.ledger)
    (kept : ∀ q, ∀ r ∈ s.created q, r.kind ≠ .animation → r.kind ≠ .animationState →
      r ∈ s'.created q)
    (animation : ∀ q, s'.mAnimation q = true → ∀ o, s.engine.objects q = some o →
      ⟨.animation, o.mName ++ chars "an1"⟩ ∈ s'.created q)
    (entity : ∀ q o n, s.engine.objects q = some o → o.mComponents .mesh ≠ 0 →
      s'.mEntity (o.mComponents .mesh) = some n → ⟨.entity, n⟩ ∈ s'.created q) :
    s'.Accounted := by
  have names : s'.nameOf = s.nameOf := by
    funext q
    rw [nameOf, nameOf, engine]
  refine ⟨engine ▸ h.wellFormed, names ▸ sound, fun q o live => ?_, fun q o live filled => ?_,
    fun q animated o live => animation q animated o (engine ▸ live),
    fun q o n live => entity q o n (engine ▸ live)⟩
  · exact kept q _ (h.node q o (engine ▸ live)) (by simp) (by simp)
  · obtain ⟨n, member⟩ := h.camera q o (engine ▸ live) filled
    exact ⟨n, kept q _ member (by simp) (by simp)⟩

theorem mem_created_cons {created : Ptr → List (Resource ResourceKind Name)} {p q : Ptr}
    {r r' : Resource ResourceKind Name} (member : r ∈ created q) :
    r ∈ Function.update created p (r' :: created p) q := by
  by_cases same : q = p
  · subst same
    simp [member]
  · simpa [same] using member

theorem nameOf_live {p : Ptr} {o : GameObject}
    (live : s.engine.objects p = some o) : s.nameOf p = some o.mName := by
  rw [nameOf, live]
  rfl

theorem Accounted.withEntity (h : s.Accounted) {component : Ptr} {c : Component} {o : GameObject}
    (held : s.engine.components component = some c) (live : s.engine.objects c.mOwner = some o)
    (free : o.mName ++ chars "_mesh" ∉ s.entities) :
    (s.withEntity component c.mOwner (o.mName ++ chars "_mesh")).Accounted := by
  refine h.relist rfl ?_ (fun q r member _ _ => mem_created_cons member)
    (fun q animated u alive => mem_created_cons (h.animation q animated u alive))
    fun q u n alive filled loaded => ?_
  · rw [withEntity_ledger]
    exact h.sound.create (nameOf_live live) rfl free
  · by_cases same : u.mComponents .mesh = component
    · -- the component belongs to the object whose slot it is in
      obtain ⟨c', held', -, owns⟩ := h.wellFormed.slots q u .mesh alive filled
      rw [same, held] at held'
      obtain rfl := Option.some.inj held'
      have entity : n = o.mName ++ chars "_mesh" := by
        simpa [Scene.withEntity, same, eq_comm] using loaded
      simp [Scene.withEntity, owns, entity]
    · exact mem_created_cons (h.entity q u n alive filled
        (by simpa [Scene.withEntity, same] using loaded))

theorem Accounted.withAnimation (h : s.Accounted) {obj : Ptr} {o : GameObject}
    (live : s.engine.objects obj = some o) (free : o.mName ++ chars "an1" ∉ s.animations) :
    (s.withAnimation obj (o.mName ++ chars "an1")).Accounted := by
  refine h.relist rfl ?_ (fun q r member _ _ => mem_created_cons member)
    (fun q animated u alive => mem_created_cons (h.animation q animated u alive))
    fun q u n alive filled loaded => mem_created_cons (h.entity q u n alive filled loaded)
  rw [withAnimation_ledger]
  exact h.sound.create (nameOf_live live) rfl free

theorem Accounted.withAnimationState (h : s.Accounted) {obj : Ptr} {o : GameObject}
    (live : s.engine.objects obj = some o) (free : o.mName ++ chars "an1" ∉ s.animationStates)
    (animation : ⟨.animation, o.mName ++ chars "an1"⟩ ∈ s.created obj) :
    ((s.withAnimationState obj (o.mName ++ chars "an1")).withScript obj true).Accounted := by
  refine h.relist rfl ?_ (fun q r member _ _ => mem_created_cons member) (fun q animated u alive =>
    mem_created_cons ?_) fun q u n alive filled loaded =>
      mem_created_cons (h.entity q u n alive filled loaded)
  · change Sound _ _ (s.withAnimationState obj (o.mName ++ chars "an1")).ledger
    rw [withAnimationState_ledger]
    exact h.sound.create (nameOf_live live) rfl free
  · by_cases same : q = obj
    · subst same
      obtain rfl := Option.some.inj (live.symm.trans alive)
      exact animation
    · exact h.animation q (by simpa [withScript, Scene.withAnimationState, same] using animated)
        u alive

theorem mem_created_erase {created : Ptr → List (Resource ResourceKind Name)} {p q : Ptr}
    {r r' : Resource ResourceKind Name} (member : r ∈ created q) (other : r ≠ r') :
    r ∈ Function.update created p ((created p).erase r') q := by
  by_cases same : q = p
  · subst same
    simpa using (List.mem_erase_of_ne other).mpr member
  · simpa [same] using member

theorem Accounted.withoutAnimationState (h : s.Accounted) {obj : Ptr} {o : GameObject}
    (live : s.engine.objects obj = some o) :
    (s.withoutAnimationState obj (o.mName ++ chars "an1")).Accounted := by
  refine h.relist rfl ?_ (fun q r member _ noState => mem_created_erase member ?_)
    (fun q animated u alive => mem_created_erase (h.animation q animated u alive) (by simp))
    fun q u n alive filled loaded =>
      mem_created_erase (h.entity q u n alive filled loaded) (by simp)
  · rw [withoutAnimationState_ledger]
    exact h.sound.destroy h.nameOf_inj nameFor_inj (nameOf_live live) rfl
  · rintro rfl
    exact noState rfl

theorem Accounted.withoutAnimation (h : s.Accounted) {obj : Ptr} {o : GameObject}
    (live : s.engine.objects obj = some o) :
    ((s.withoutAnimation obj (o.mName ++ chars "an1")).withScript obj false).Accounted := by
  refine h.relist rfl ?_ (fun q r member noAnimation _ => mem_created_erase member ?_)
    (fun q animated u alive => ?_) fun q u n alive filled loaded =>
      mem_created_erase (h.entity q u n alive filled loaded) (by simp)
  · change Sound _ _ (s.withoutAnimation obj (o.mName ++ chars "an1")).ledger
    rw [withoutAnimation_ledger]
    exact h.sound.destroy h.nameOf_inj nameFor_inj (nameOf_live live) rfl
  · rintro rfl
    exact noAnimation rfl
  · by_cases same : q = obj
    · subst same
      simp [withScript] at animated
    · have member := h.animation q (by simpa [withScript, Scene.withoutAnimation, same]
        using animated) u alive
      simpa [withScript, Scene.withoutAnimation, same] using member

theorem Accounted.removed (h : s.Accounted) {title : Name} {p : Ptr} {o : GameObject}
    (found : s.engine.mObjects.find? title = some p) (live : s.engine.objects p = some o)
    (releasable : s.Releasable p) : (s.removed title p o).Accounted := by
  have objects : ∀ q u, (s.removed title p o).engine.objects q = some u →
      q ≠ p ∧ s.engine.objects q = some u := by
    intro q u alive
    have old : (if q = p then none else s.engine.objects q) = some u :=
      (Engine.removed_objects title p o q).symm.trans alive
    split at old
    · simp at old
    next other => exact ⟨other, old⟩
  have created : ∀ q ≠ p, (s.removed title p o).created q = s.created q := by
    intro q other
    simp [Scene.removed, other]
  have names : (s.removed title p o).nameOf = Function.update s.nameOf p none := by
    funext q
    by_cases same : q = p <;> simp [nameOf, Scene.removed, same]
  refine ⟨Engine.removed_wellFormed h.wellFormed found live, ?_, fun q u alive => ?_,
    fun q u alive filled => ?_, fun q animated u alive => ?_, fun q u n alive filled held => ?_⟩
  · rw [names, h.removed_ledger title live releasable]
    exact h.sound.drop h.nameOf_inj nameFor_inj
  · obtain ⟨other, old⟩ := objects q u alive
    rw [created q other]
    exact h.node q u old
  · obtain ⟨other, old⟩ := objects q u alive
    rw [created q other]
    exact h.camera q u old filled
  · obtain ⟨other, old⟩ := objects q u alive
    rw [created q other]
    exact h.animation q animated u old
  · obtain ⟨other, old⟩ := objects q u alive
    rw [created q other]
    exact h.entity q u n old filled held

end accounts

section recreation

variable {s u : Scene} {p address : Ptr} {o : GameObject} (components : ComponentType → Ptr)

def Named (u : Scene) (address : Ptr) (name : Name) : Prop :=
  ∃ o, u.engine.objects address = some o ∧ o.mName = name

theorem recreateComponent_run (named : u.Named address o.mName) (t : ComponentType)
    (noCamera : t = .camera → o.mComponents t = 0) :
    ∃ u', (recreateComponent o address components t).run u = .returned () u' ∧
      u'.Named address o.mName ∧ u'.entities = u.entities ∧
      (o.mComponents t ≠ 0 →
        u'.engine.components (components t) = some ⟨t, address, true⟩) := by
  by_cases empty : o.mComponents t = 0
  · exact ⟨u, by rw [recreateComponent, if_pos empty, pure_run], named, rfl,
      fun filled => absurd empty filled⟩
  · obtain ⟨o', live, name⟩ := named
    refine ⟨u.withComponent t (components t) address o', ?_,
      ⟨{ o' with mComponents := Function.update o'.mComponents t (components t) },
        by rw [withComponent_object, if_pos rfl], name⟩, rfl, fun _ => ?_⟩
    · rw [recreateComponent, if_neg empty, discard_returned]
      exact ⟨_, createComponent_free live fun camera => absurd (noCamera camera) empty⟩
    · simp [withComponent, Engine.withComponent, Engine.setObject, Engine.allocated,
        Engine.setComponent]

theorem reloadMesh_run (named : u.Named address o.mName)
    (component : o.mComponents .mesh ≠ 0 →
      u.engine.components (components .mesh) = some ⟨.mesh, address, true⟩)
    (free : s.HoldsEntity p (o.mName ++ chars "_mesh") → o.mName ++ chars "_mesh" ∉ u.entities)
    (h : s.Accounted) (live : s.engine.objects p = some o) :
    ∃ u', (s.reloadMesh o components).run u = .returned () u' ∧ u'.Named address o.mName := by
  rw [reloadMesh]
  split
  next loaded =>
    obtain ⟨filled, some⟩ := loaded
    obtain ⟨n, held⟩ := Option.isSome_iff_exists.mp some
    obtain rfl : n = o.mName ++ chars "_mesh" := h.name_of live (h.entity p o n live filled held)
    obtain ⟨o', live', name⟩ := named
    have run := loadMesh_run (component filled) rfl live'
    rw [name, if_neg (free ⟨o, live, filled, held⟩)] at run
    exact ⟨_, discard_returned.mpr ⟨0, run⟩, o', live', name⟩
  · exact ⟨u, pure_run .., named⟩

theorem Accounted.recreates (h : s.Accounted) {title : Name}
    (found : s.engine.mObjects.find? title = some p) (live : s.engine.objects p = some o)
    (releasable : s.Releasable p) (address : Ptr) :
    ((s.recreate p o address components).run (s.removed title p o)).returns = true := by
  have noCamera : o.mComponents .camera = 0 := by
    by_contra filled
    obtain ⟨n, member⟩ := h.camera p o live filled
    simpa using releasable _ member
  have still : s.mAnimation p = false := by
    cases animated : s.mAnimation p with
    | false => rfl
    | true => simpa using releasable _ (h.animation p animated o live)
  have freed : ∀ r ∈ s.created p, r.name ∉ (s.removed title p o).names r.kind := by
    intro r member inUse
    change r.name ∈ (s.removed title p o).ledger.names r.kind at inUse
    rw [h.removed_ledger title live releasable] at inUse
    exact (mem_spared.mp inUse).2 member
  have made := createGameObject_free (h.removed found live releasable).wellFormed address o.mTag
    (freed _ (h.node p o live))
  have first : (discard (createGameObject address o.mTag o.mName)).run (s.removed title p o) =
      .returned () ((s.removed title p o).withObject address o.mTag o.mName) :=
    discard_returned.mpr ⟨address, made⟩
  have named : ((s.removed title p o).withObject address o.mTag o.mName).Named address o.mName :=
    ⟨⟨o.mTag, o.mName, false, fun _ => 0⟩, by simp [Scene.withObject], rfl⟩
  obtain ⟨u₁, mesh, named₁, entities, component⟩ := recreateComponent_run components
    named .mesh (by simp)
  obtain ⟨u₂, reload, named₂⟩ := reloadMesh_run (s := s) (p := p) components named₁ component
    (by
      rintro ⟨o', live', filled, held⟩
      rw [entities]
      exact freed _ (h.entity p o' _ live' filled held)) h live
  obtain ⟨u₃, sound, named₃, -⟩ := recreateComponent_run components named₂ .sound
    (by simp)
  obtain ⟨u₄, camera, named₄, -⟩ := recreateComponent_run components named₃
    .camera fun _ => noCamera
  obtain ⟨u₅, physics, -⟩ := recreateComponent_run components named₄ .physics
    (by simp)
  unfold recreate
  rw [bind_of_returned first, bind_of_returned mesh, bind_of_returned reload,
    bind_of_returned sound, bind_of_returned camera, bind_of_returned physics, still]
  rfl

end recreation

section releases

variable {s s' : Scene}

theorem releases_iff (h : s.Accounted) (op : Op) : s.Releases op ↔ s.ReleaseGuard op := by
  cases op with
  | removeGameObject title =>
      refine forall₂_congr fun p found => ?_
      obtain ⟨o, live, -⟩ := h.wellFormed.stored_object found
      have run := removeGameObject_run h.wellFormed found live
      constructor
      · rintro ⟨s', returned, released⟩
        obtain ⟨-, rfl⟩ := Ending.returned.inj (run.symm.trans returned)
        refine h.releasable_of title live fun r member inUse => ?_
        exact ((released.exact r.kind r.name).mp inUse).2 member
      · intro releasable
        have ledger := h.removed_ledger title live releasable
        have exact : ∀ kind n, n ∈ (s.removed title p o).names kind ↔
            n ∈ s.names kind ∧ ⟨kind, n⟩ ∉ s.created p := by
          intro kind n
          change n ∈ (s.removed title p o).ledger.names kind ↔ _
          rw [ledger]
          exact mem_spared
        refine ⟨_, run, exact, fun q other r member => ?_, fun o' live' address components => ?_⟩
        · have kept := h.sound.spared h.nameOf_inj nameFor_inj other member
          change r.name ∈ (s.removed title p o).ledger.names r.kind
          rw [ledger]
          exact kept
        · obtain rfl := Option.some.inj (live.symm.trans live')
          exact h.recreates components found live releasable address
  | createGameObject _ _ _ | createComponent _ _ _ | loadMesh _ | createAnimation _
  | destroyAnimation _ => exact Iff.rfl

theorem settle_discard {α : Type} {q : SceneProc α} :
    settle ((discard q).run s) = settle (q.run s) := by
  rw [discard_run]
  cases q.run s with
  | returned a s' => rfl
  | stopped reason s' => cases reason <;> rfl

theorem createGameObject_accounted (h : s.Accounted) {address : Ptr}
    (fresh : s.engine.Fresh address) {tag : UInt32} {title : Name}
    (returned : settle ((createGameObject address tag title).run s) = some s') : s'.Accounted := by
  by_cases taken : title ∈ s.engine.sceneNodes
  · rw [createGameObject_taken address tag taken] at returned
    obtain rfl := Option.some.inj returned
    exact h
  · rw [createGameObject_free h.wellFormed address tag taken] at returned
    obtain rfl := Option.some.inj returned
    exact h.withObject fresh tag taken

theorem createComponent_accounted (h : s.Accounted) {t : ComponentType} {address owner : Ptr}
    (fresh : s.engine.Fresh address)
    (returned : settle ((createComponent t address owner).run s) = some s') : s'.Accounted := by
  cases live : s.engine.objects owner with
  | none => simp [createComponent_dead live, settle] at returned
  | some o =>
      by_cases taken : t = .camera ∧ o.mName ++ chars "_camera" ∈ s.engine.cameras
      · rw [createComponent_taken live taken.1 taken.2] at returned
        obtain rfl := Option.some.inj returned
        exact h
      · have free : t = .camera → o.mName ++ chars "_camera" ∉ s.engine.cameras :=
          fun camera inUse => taken ⟨camera, inUse⟩
        rw [createComponent_free live free] at returned
        obtain rfl := Option.some.inj returned
        exact h.withComponent fresh live free

theorem loadMesh_accounted (h : s.Accounted) {component : Ptr}
    (returned : settle ((loadMesh component).run s) = some s') : s'.Accounted := by
  obtain ⟨c, o, held, mesh, live⟩ := loadMesh_settled returned
  rw [loadMesh_run held mesh live] at returned
  split at returned
  · obtain rfl := Option.some.inj returned
    exact h
  next free =>
    obtain rfl := Option.some.inj returned
    exact h.withEntity held live free

theorem createAnimation_accounted (h : s.Accounted) {obj : Ptr}
    (returned : settle ((createAnimation obj).run s) = some s') : s'.Accounted := by
  cases live : s.engine.objects obj with
  | none =>
      rw [createAnimation, bind_of_stopped (object_dead live)] at returned
      simp [settle] at returned
  | some o =>
      rw [createAnimation_run live] at returned
      split at returned
      · obtain rfl := Option.some.inj returned
        exact h
      next free =>
        have half := h.withAnimation live free
        split at returned
        · obtain rfl := Option.some.inj returned
          exact half
        next freeState =>
          obtain rfl := Option.some.inj returned
          exact half.withAnimationState live freeState (by simp [withAnimation])

theorem destroyAnimation_accounted (h : s.Accounted) {obj : Ptr}
    (returned : settle ((destroyAnimation obj).run s) = some s') : s'.Accounted := by
  cases live : s.engine.objects obj with
  | none =>
      rw [destroyAnimation, bind_of_stopped (object_dead live)] at returned
      simp [settle] at returned
  | some o =>
      have half := h.withoutAnimationState live
      rw [destroyAnimation_run live] at returned
      split at returned
      · obtain rfl := Option.some.inj returned
        exact half.withoutAnimation live
      · obtain rfl := Option.some.inj returned
        exact half

theorem removeGameObject_accounted (h : s.Accounted) {title : Name}
    (guard : s.ReleaseGuard (.removeGameObject title))
    (returned : settle ((removeGameObject title).run s) = some s') : s'.Accounted := by
  cases found : s.engine.mObjects.find? title with
  | none =>
      rw [removeGameObject_absent found] at returned
      obtain rfl := Option.some.inj returned
      exact h
  | some p =>
      obtain ⟨o, live, -⟩ := h.wellFormed.stored_object found
      rw [removeGameObject_run h.wellFormed found live] at returned
      obtain rfl := Option.some.inj returned
      exact h.removed found live (guard p found)

/-- Every step keeps the accounts, as long as only releasable objects are removed. -/
theorem step_accounted (h : s.Accounted) {op : Op} (guard : s.ReleaseGuard op)
    (returned : s.step op = some s') : s'.Accounted := by
  rw [step] at returned
  split at returned
  case isFalse => simp at returned
  next allocatable =>
  cases op with
  | createGameObject address tag title =>
      rw [Op.run, settle_discard] at returned
      exact createGameObject_accounted h allocatable returned
  | createComponent t address owner =>
      rw [Op.run, settle_discard] at returned
      exact createComponent_accounted h allocatable returned
  | loadMesh component =>
      rw [Op.run, settle_discard] at returned
      exact loadMesh_accounted h returned
  | createAnimation obj => exact createAnimation_accounted h returned
  | destroyAnimation obj => exact destroyAnimation_accounted h returned
  | removeGameObject title =>
      rw [Op.run, settle_discard] at returned
      exact removeGameObject_accounted h guard returned

theorem start_accounted (foreign : Foreign) : (start foreign).Accounted where
  wellFormed := Engine.start_wellFormed _ _
  sound :=
    { nodup kind := by cases kind <;> exact foreign.nodup _
      once p := List.nodup_nil
      present p r member := by simp [ledger, start] at member
      named p r member := by simp [ledger, start] at member }
  node p o live := by simp [start, Engine.start] at live
  camera p o live := by simp [start, Engine.start] at live
  animation p animated := by simp [start] at animated
  entity p o n live := by simp [start, Engine.start] at live

/-- Over any run, whatever names others use: every removal releases exactly the
resources of its object if and only if every object is removed without a camera and
without an animation, and with no entity but that of the component in its mesh slot. -/
theorem releasesExactly_iff (foreign : Foreign) (ops : List Op) :
    Along step Releases (start foreign) ops ↔ Along step ReleaseGuard (start foreign) ops :=
  along_iff (I := Accounted) (L := fun _ => True) (fun _ op h _ => releases_iff h op)
    (fun _ _ _ h _ guard returned => step_accounted h guard returned)
    (start_accounted foreign) (fun _ _ => trivial)

/-- The camera of an object stays when the object is removed. -/
theorem not_releasesExactly :
    ¬ Along step Releases (start ⟨fun _ => [], fun _ => List.nodup_nil⟩)
      [.createGameObject 16 0 (chars "A"), .createComponent .camera 32 16,
        .removeGameObject (chars "A")] := by
  rintro ⟨-, all⟩
  obtain ⟨-, all⟩ := all _ rfl
  obtain ⟨last, -⟩ := all _ rfl
  obtain ⟨s', run, released⟩ := last 16 rfl
  have state := congrArg Ending.state run
  have stays : chars "A_camera" ∈ s'.names .camera := by
    rw [← show _ = s' from state]
    decide
  exact ((released.exact .camera (chars "A_camera")).mp stays).2 (by decide)

end releases

end Ssuge.Scene

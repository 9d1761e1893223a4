import Ssuge.EngineRuns

/-! The registries of `factory.h` over whole runs. The destructor of a game object
routes the component of the physics slot to the cameras' registry, where it is not,
so its own registry keeps a pointer to a deleted component. All other slots are
routed to their own registry, in any order of creations and deletions. -/

namespace Ssuge.Engine

open CString Procedure GuardedRun

/-- A registry lists live components of its type, each once. -/
def RegistriesLive (e : Engine) : Prop :=
  ∀ t, (e.msInstances t).Nodup ∧
    ∀ q ∈ e.msInstances t, ∃ c, e.components q = some c ∧ c.type = t

def NoPhysics (e : Engine) (title : Name) : Prop :=
  ∀ p ∈ e.mObjects.find? title, ∀ o ∈ e.objects p, o.mComponents .physics = 0

def RegistriesGuard (e : Engine) : Op → Prop
  | .removeGameObject title => e.NoPhysics title
  | .removeGameObjectByTag tag => ∀ entry ∈ e.mObjects.entries, ∀ o ∈ e.objects entry.2,
      getTag o = tag → o.mComponents .physics = 0
  | _ => True

/-- Every filled slot is listed in the registry of its type, and nothing is at NULL. -/
structure Registered (e : Engine) : Prop where
  listed : ∀ p o t, e.objects p = some o → o.mComponents t ≠ 0 →
    o.mComponents t ∈ e.msInstances t
  null : e.components 0 = none

variable {e e' : Engine}

theorem RegistriesLive.ne_zero (live : e.RegistriesLive) (registered : e.Registered)
    {t : ComponentType} {q : Ptr} (member : q ∈ e.msInstances t) : q ≠ 0 := by
  rintro rfl
  obtain ⟨c, held, -⟩ := (live t).2 0 member
  rw [registered.null] at held
  simp at held

/-- What a deletion leaves in a registry was there before; the object's own component
is gone from the registries of meshes, sounds and cameras. -/
theorem removed_msInstances_sub (h : e.RegistriesLive) (title : Name) (p : Ptr) (o : GameObject)
    (t : ComponentType) : ((e.removed title p o).msInstances t).Nodup ∧
      ∀ q ∈ (e.removed title p o).msInstances t, q ∈ e.msInstances t ∧
        (t ≠ .physics → q ≠ o.mComponents t) := by
  have nodup := (h t).1
  rw [removed_msInstances]
  cases t with
  | mesh =>
      exact ⟨nodup.erase _, fun q member =>
        ⟨List.mem_of_mem_erase member, fun _ => (nodup.mem_erase_iff.mp member).1⟩⟩
  | sound =>
      exact ⟨nodup.erase _, fun q member =>
        ⟨List.mem_of_mem_erase member, fun _ => (nodup.mem_erase_iff.mp member).1⟩⟩
  | camera =>
      refine ⟨(nodup.erase _).erase _, fun q member => ?_⟩
      have first := List.mem_of_mem_erase member
      exact ⟨List.mem_of_mem_erase first, fun _ => (nodup.mem_erase_iff.mp first).1⟩
  | physics => exact ⟨nodup, fun q member => ⟨member, fun other => absurd rfl other⟩⟩

theorem removed_registriesLive (h : e.WellFormed) (registered : e.Registered)
    (live : e.RegistriesLive) {title : Name} {p : Ptr} {o : GameObject}
    (alive : e.objects p = some o) (empty : o.mComponents .physics = 0) :
    (e.removed title p o).RegistriesLive := by
  intro t
  obtain ⟨nodup, sub⟩ := removed_msInstances_sub live title p o t
  refine ⟨nodup, fun q member => ?_⟩
  obtain ⟨before, own⟩ := sub q member
  obtain ⟨c, held, type⟩ := (live t).2 q before
  refine ⟨c, ?_, type⟩
  rw [removed_component_other, held]
  -- a component of this registry can only be in the slot of its type
  rintro u rfl
  have filled := live.ne_zero registered before
  obtain ⟨c', held', type', -⟩ := h.slots p o u alive filled
  obtain rfl := Option.some.inj (held.symm.trans held')
  obtain rfl : u = t := type'.symm.trans type
  by_cases physics : u = .physics
  · subst physics
    exact filled empty
  · exact own physics rfl

theorem removed_registered (h : e.WellFormed) (registered : e.Registered) {title : Name} {p : Ptr}
    {o : GameObject} (alive : e.objects p = some o) : (e.removed title p o).Registered := by
  refine ⟨fun q u t living filled => ?_, removed_component_none title p o registered.null⟩
  rw [removed_objects] at living
  split at living
  · simp at living
  next apart =>
    have before := registered.listed q u t living filled
    obtain ⟨c, held, type, owner⟩ := h.slots q u t living filled
    have others : ∀ s, o.mComponents s ≠ u.mComponents t := by
      intro s same
      obtain ⟨c', held', -, owner'⟩ := h.slots p o s alive (same ▸ filled)
      rw [same, held] at held'
      obtain rfl := Option.some.inj held'
      exact apart (owner.symm.trans owner')
    rw [removed_msInstances]
    cases t with
    | mesh => exact (List.mem_erase_of_ne (others .mesh).symm).mpr before
    | sound => exact (List.mem_erase_of_ne (others .sound).symm).mpr before
    | camera =>
        exact (List.mem_erase_of_ne (others .physics).symm).mpr
          ((List.mem_erase_of_ne (others .camera).symm).mpr before)
    | physics => exact before

theorem removed_noPhysics {title : Name} {p : Ptr} {o : GameObject} {n : Name}
    (guard : e.NoPhysics n) : (e.removed title p o).NoPhysics n := by
  intro q found u living
  rw [Option.mem_def, removed_find?] at found
  rw [Option.mem_def, removed_objects] at living
  split at found
  · simp at found
  · split at living
    · simp at living
    · exact guard q found u living

theorem removals_registriesLive {titles : List Name} (removals : Removals e titles e')
    (h : e.WellFormed) (registered : e.Registered) (live : e.RegistriesLive)
    (guard : ∀ n ∈ titles, e.NoPhysics n) : e'.RegistriesLive ∧ e'.Registered := by
  induction removals with
  | nil e => exact ⟨live, registered⟩
  | @cons e e' title titles p o found alive _ ih =>
      have empty := guard title (by simp) p found o alive
      exact ih (removed_wellFormed h found alive) (removed_registered h registered alive)
        (removed_registriesLive h registered live alive empty)
        fun n member => removed_noPhysics (guard n (by simp [member]))

theorem removals_physics {titles : List Name} (removals : Removals e titles e') :
    e'.msInstances .physics = e.msInstances .physics := by
  induction removals with
  | nil e => rfl
  | cons _ _ _ ih => rw [ih, removed_msInstances]

theorem removals_component_none {titles : List Name} (removals : Removals e titles e') {q : Ptr}
    (dead : e.components q = none) : e'.components q = none := by
  induction removals with
  | nil e => exact dead
  | cons _ _ _ ih => exact ih (removed_component_none _ _ _ dead)

theorem removals_component_slot {titles : List Name} (removals : Removals e titles e')
    (h : e.WellFormed) {n : Name} (member : n ∈ titles) {p : Ptr} {o : GameObject}
    (found : e.mObjects.find? n = some p) (alive : e.objects p = some o) {t : ComponentType}
    (filled : o.mComponents t ≠ 0) : e'.components (o.mComponents t) = none := by
  induction removals with
  | nil e => simp at member
  | @cons e e' title titles q u first living rest ih =>
      by_cases same : n = title
      · subst same
        obtain rfl := Option.some.inj (found.symm.trans first)
        obtain rfl := Option.some.inj (alive.symm.trans living)
        exact removals_component_none rest (removed_component_slot n p o filled)
      · have apart : p ≠ q := by
          rintro rfl
          exact same (h.name_unique found first)
        exact ih (removed_wellFormed h first living)
          ((List.mem_cons.mp member).resolve_left same)
          (by rw [removed_find?, if_neg same, found])
          (by rw [removed_objects, if_neg apart, alive])

theorem removals_registriesLive_iff {titles : List Name} (removals : Removals e titles e')
    (h : e.WellFormed) (registered : e.Registered) (live : e.RegistriesLive) :
    e'.RegistriesLive ↔ ∀ n ∈ titles, e.NoPhysics n := by
  constructor
  · intro after n member p found o alive
    by_contra filled
    have dead := removals_component_slot removals h member found alive filled
    have kept : o.mComponents .physics ∈ e'.msInstances .physics := by
      rw [removals_physics removals]
      exact registered.listed p o .physics alive filled
    obtain ⟨c, held, -⟩ := (after .physics).2 _ kept
    rw [dead] at held
    simp at held
  · exact fun guard => (removals_registriesLive removals h registered live guard).1

theorem withComponent_msInstances (t u : ComponentType) (address owner : Ptr) (o : GameObject) :
    (e.withComponent t address owner o).msInstances u =
      if u = t then e.msInstances t ++ [address] else e.msInstances u := by
  by_cases same : u = t
  · subst same
    simp [withComponent, allocated, setObject]
  · simp [withComponent, allocated, setObject, same]

theorem withComponent_registriesLive (live : e.RegistriesLive) {t : ComponentType}
    {address owner : Ptr} {o : GameObject} (fresh : e.Fresh address) :
    (e.withComponent t address owner o).RegistriesLive := by
  have absent : ∀ u, address ∉ e.msInstances u := by
    intro u member
    obtain ⟨c, held, -⟩ := (live u).2 address member
    rw [fresh.2.2] at held
    simp at held
  have old : ∀ u, ∀ q ∈ e.msInstances u,
      ∃ c, (e.withComponent t address owner o).components q = some c ∧ c.type = u := by
    intro u q member
    obtain ⟨c, held, type⟩ := (live u).2 q member
    have apart : q ≠ address := fun same => absent u (same ▸ member)
    exact ⟨c, (allocated_components (o := o) apart).trans held, type⟩
  intro u
  rw [withComponent_msInstances]
  split
  next same =>
    subst same
    refine ⟨List.nodup_append.mpr ⟨(live u).1, by simp, ?_⟩, fun q member => ?_⟩
    · intro q member other final
      rw [List.mem_singleton.mp final]
      exact fun equal => absent u (equal ▸ member)
    · rcases List.mem_append.mp member with before | final
      · exact old u q before
      · rw [List.mem_singleton.mp final]
        exact ⟨⟨u, owner, true⟩, by simp [withComponent, allocated, setObject, setComponent], rfl⟩
  · exact ⟨(live u).1, old u⟩

theorem withComponent_registered (registered : e.Registered) {t : ComponentType}
    {address owner : Ptr} {o : GameObject} (fresh : e.Fresh address)
    (alive : e.objects owner = some o) : (e.withComponent t address owner o).Registered := by
  refine ⟨fun p u s living filled => ?_, ?_⟩
  · rw [withComponent_msInstances]
    have objects : (e.withComponent t address owner o).objects p = if p = owner
        then some { o with mComponents := Function.update o.mComponents t address }
        else e.objects p := by
      simp [withComponent, allocated, setObject, setComponent, Function.update_apply]
    rw [objects] at living
    have listed : s = t ∧ u.mComponents s = address ∨ u.mComponents s ∈ e.msInstances s := by
      split at living
      next same =>
        obtain rfl := Option.some.inj living
        by_cases own : s = t
        · subst own
          exact .inl ⟨rfl, Function.update_self ..⟩
        · have kept : (Function.update o.mComponents t address) s = o.mComponents s :=
            Function.update_of_ne own ..
          simp only [kept] at filled ⊢
          exact .inr (registered.listed owner o s alive filled)
      · exact .inr (registered.listed p u s living filled)
    rcases listed with ⟨own, same⟩ | before
    · simp [own, ← same]
    · split
      next own => exact own ▸ List.mem_append_left _ before
      · exact before
  · exact (allocated_components (o := o) fresh.1.symm).trans registered.null

theorem withObject_registered (registered : e.Registered) {address : Ptr} {tag : UInt32}
    {title : Name} : (e.withObject address tag title).Registered := by
  refine ⟨fun p o t living filled => ?_, registered.null⟩
  rw [withObject_objects] at living
  split at living
  · obtain rfl := Option.some.inj living
    exact absurd rfl filled
  · exact registered.listed p o t living filled

theorem withScripted_registered (registered : e.Registered) {address : Ptr} {tag : Int32}
    {name : Name} {hasScript : Bool} :
    (e.withScripted address tag name hasScript).Registered := by
  refine ⟨fun p o t living filled => ?_, registered.null⟩
  have objects : (e.withScripted address tag name hasScript).objects p = if p = address
      then some ⟨tag.toUInt32, name, hasScript, fun _ => 0⟩ else e.objects p := by
    by_cases same : p = address <;>
      simp [withScripted, withObject, withLuaObject, constructed, setObject, same]
  rw [objects] at living
  split at living
  · obtain rfl := Option.some.inj living
    exact absurd rfl filled
  · exact registered.listed p o t living filled

theorem taggedNoPhysics_iff (tag : Int32) :
    (∀ n, e.Tagged tag n → e.NoPhysics n) ↔ e.RegistriesGuard (.removeGameObjectByTag tag) := by
  constructor
  · rintro none_ ⟨n, p⟩ member o alive tagged
    have found := (e.mObjects.mem_entries_iff n p).mp member
    exact none_ n ⟨p, o, found, alive, tagged⟩ p found o alive
  · rintro guard n ⟨p, o, found, alive, tagged⟩ q stored u living
    obtain rfl := Option.some.inj (found.symm.trans stored)
    obtain rfl := Option.some.inj (alive.symm.trans living)
    exact guard (n, p) ((e.mObjects.mem_entries_iff n p).mpr found) o alive tagged

/-- What is known of the states of a run besides the registries' contents. -/
structure RegistriesKept (e : Engine) : Prop where
  formed : e.WellFormed
  registered : e.Registered

/-- One step: the registries stay live exactly when the guard holds. -/
theorem step_registriesLive (kept : e.RegistriesKept) (live : e.RegistriesLive) (op : Op) :
    (∀ e', step e op = some e' → e'.RegistriesLive) ↔ e.RegistriesGuard op := by
  obtain ⟨h, registered⟩ := kept
  cases op with
  | removeGameObject title =>
      obtain ⟨titles, e₁, value, removals, names⟩ := step_removeGameObject h title
      simp only [value, Option.some.injEq, forall_eq',
        removals_registriesLive_iff removals h registered live, names]
      constructor
      · intro none_ p found
        exact none_ title ⟨rfl, p, found⟩ p found
      · rintro guard n ⟨rfl, -⟩
        exact guard
  | removeGameObjectByTag tag =>
      obtain ⟨titles, e₁, value, removals, names⟩ := step_removeGameObjectByTag h tag
      simp only [value, Option.some.injEq, forall_eq',
        removals_registriesLive_iff removals h registered live, names]
      exact taggedNoPhysics_iff tag
  | createComponent t address owner =>
      refine iff_of_true (fun e' returned => ?_) trivial
      cases step_effect h returned with
      | componentTaken => exact live
      | component fresh alive => exact withComponent_registriesLive live fresh
  | _ =>
      refine iff_of_true (fun e' returned => ?_) trivial
      cases step_effect h returned <;> exact live

theorem step_registriesKept (kept : e.RegistriesKept) (live : e.RegistriesLive) {op : Op}
    (guard : e.RegistriesGuard op) (returned : step e op = some e') : e'.RegistriesKept := by
  obtain ⟨h, registered⟩ := kept
  have effect := step_effect h returned
  refine ⟨effect.wellFormed h, ?_⟩
  cases effect with
  | create fresh free => exact withObject_registered registered
  | luaCreate fresh free => exact withScripted_registered registered
  | component fresh alive => exact withComponent_registered registered fresh alive
  | remove removals names =>
      refine (removals_registriesLive removals h registered live fun n member => ?_).2
      exact ((names n).mp member).1 ▸ guard
  | removeByTag removals names =>
      refine (removals_registriesLive removals h registered live fun n member => ?_).2
      exact (taggedNoPhysics_iff _).mpr guard n ((names n).mp member)
  | createTaken | componentTaken | setActiveCamera | frame => exact registered
  | luaTaken | addListener | removeListener | luaInputRegister | setListener | collect =>
      exact ⟨registered.listed, registered.null⟩

theorem start_registriesKept (sceneNodes cameras : List Name) :
    (start sceneNodes cameras).RegistriesKept :=
  ⟨start_wellFormed sceneNodes cameras, fun p o t living => by simp [start] at living, rfl⟩

theorem start_registriesLive (sceneNodes cameras : List Name) :
    (start sceneNodes cameras).RegistriesLive :=
  fun t => ⟨List.nodup_nil, fun q member => by simp [start] at member⟩

/-- From an engine without objects on, over any operations: every registry lists live
components of its type, each once, in every state, if and only if no object is
removed while it has a physics component. -/
theorem registriesLive_iff (sceneNodes cameras : List Name) (ops : List Op) :
    Throughout step RegistriesLive (start sceneNodes cameras) ops ↔
      Along step RegistriesGuard (start sceneNodes cameras) ops :=
  throughout_iff (I := RegistriesKept) (L := fun _ => True)
    (fun _ op kept live _ => step_registriesLive kept live op)
    (fun _ _ _ kept live _ guard returned => step_registriesKept kept live guard returned)
    (start_registriesKept sceneNodes cameras) (start_registriesLive sceneNodes cameras)
    (fun _ _ => trivial)

/-- A physics component stays registered after its object is removed. -/
theorem not_registriesLive :
    ¬ Throughout step RegistriesLive (start [] [])
      [.createGameObject 16 3 (chars "Box"), .createComponent .physics 32 16,
        .removeGameObject (chars "Box")] := by
  intro all
  obtain ⟨c, held, -⟩ :=
    (all _ (List.prefix_refl _) _ rfl .physics).2 32 (by decide)
  have dead : ∀ c : Component, ¬ (none : Option Component) = some c := by simp
  exact dead c held

end Ssuge.Engine

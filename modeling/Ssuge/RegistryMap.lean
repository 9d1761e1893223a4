import Ssuge.ObjectRegistry
import Ssuge.Refinement
import Mathlib.Data.List.Perm.Basic

/-! The registry of game objects against a finite map from names to objects and tags.
Besides the engine the registry counts the objects that were constructed, numbers
them in that order, and lists the numbers of those that were deleted: an address
can be used again, a number cannot. -/

namespace Ssuge

open CString Procedure Refinement

structure Registry where
  engine : Engine
  constructed : Nat
  /-- The number of the object that was last constructed at an address. -/
  serial : Ptr → Nat
  deleted : List Nat

abbrev RegistryProc := Proc Stop Registry

namespace Registry

def start (sceneNodes cameras : List Name) : Registry where
  engine := .start sceneNodes cameras
  constructed := 0
  serial _ := 0
  deleted := []

def onEngine {α : Type} (p : EngineProc α) : RegistryProc α :=
  within Registry.engine (fun r e => { r with engine := e }) p

def newGameObject (address : Ptr) (tag : UInt32) (name : Name) : RegistryProc Unit := do
  onEngine (Engine.newGameObject address tag name)
  modify fun r => { r with
    constructed := r.constructed + 1
    serial := Function.update r.serial address r.constructed }

def createGameObject (address : Ptr) (tag : UInt32) (title : Name) : RegistryProc Ptr := do
  newGameObject address tag title
  onEngine (Engine.addGameObject title address)
  pure address

def deleteGameObject (obj : Ptr) : RegistryProc Unit := do
  onEngine (Engine.deleteGameObject obj)
  modify fun r => { r with deleted := r.serial obj :: r.deleted }

/-- `delete iter->second; mObjects.erase(iter);` -/
def removeEntry (title : Name) (obj : Ptr) : RegistryProc Unit := do
  deleteGameObject obj
  onEngine (modify fun e => { e with mObjects := e.mObjects.erase title })

def removeGameObject (title : Name) : RegistryProc Nat := do
  match (← get).engine.mObjects.find? title with
  | some obj =>
      removeEntry title obj
      pure 1
  | none => pure 0

/-- The entry that `++iter` and `mObjects.erase(iter)` lead to from a key; `none` is
`mObjects.end()`. -/
def successor (r : Registry) (title : Name) : Option (Name × Ptr) :=
  (r.engine.mObjects.above title).head?

/-- The loop of `removeGameObjectByTag` from an iterator on, for at most so many passes. -/
def removeTaggedFrom (tag : Int32) : (passes : Nat) → (iter : Option (Name × Ptr)) →
    RegistryProc Unit
  | _, none => pure ()
  | 0, some _ => stop .undefined
  | passes + 1, some (title, obj) => do
      let o ← onEngine (Engine.object obj)
      if Engine.getTag o = tag then do
        removeEntry title obj
        removeTaggedFrom tag passes ((← get).successor title)
      else removeTaggedFrom tag passes ((← get).successor title)

def removeGameObjectByTag (tag : Int32) : RegistryProc Nat := do
  let entries := (← get).engine.mObjects.entries
  removeTaggedFrom tag entries.length entries.head?
  pure 0

/-- `if (iter->second->get_tag() == tag) v.push_back(iter->second);` for each entry -/
def pushTagged (tag : Int32) : List (Name × Ptr) → List Ptr → RegistryProc (List Ptr)
  | [], v => pure v
  | (_, obj) :: rest, v => do
      let o ← onEngine (Engine.object obj)
      pushTagged tag rest (if Engine.getTag o = tag then v ++ [obj] else v)

/-- The vector is returned with the code. -/
def findObjectsByTag (v : List Ptr) (tag : Int32) : RegistryProc (Nat × List Ptr) := do
  let v ← pushTagged tag (← get).engine.mObjects.entries v
  pure (0, v)

def findGameObject (title : Name) : RegistryProc Ptr := do
  match (← get).engine.mObjects.find? title with
  | none => pure 0
  | some obj => pure obj

inductive Call
  | createGameObject (address : Ptr) (tag : UInt32) (title : Name)
  | removeGameObject (title : Name)
  | removeGameObjectByTag (tag : Int32)
  | findObjectsByTag (v : List Ptr) (tag : Int32)
  | findGameObject (title : Name)

inductive Reply
  | threw
  | code (n : Nat)
  | object (obj : Ptr)
  | objects (code : Nat) (v : List Ptr)
deriving DecidableEq, Repr

def Call.run : Call → RegistryProc Reply
  | .createGameObject address tag title => do
      pure (.object (← Registry.createGameObject address tag title))
  | .removeGameObject title => do pure (.code (← Registry.removeGameObject title))
  | .removeGameObjectByTag tag => do pure (.code (← Registry.removeGameObjectByTag tag))
  | .findObjectsByTag v tag => do
      let (code, v) ← Registry.findObjectsByTag v tag
      pure (.objects code v)
  | .findGameObject title => do pure (.object (← Registry.findGameObject title))

def Call.Allocatable (r : Registry) : Call → Prop
  | .createGameObject address .. => r.engine.Fresh address
  | _ => True

instance (r : Registry) : (call : Call) → Decidable (call.Allocatable r)
  | .createGameObject address .. => inferInstanceAs (Decidable (r.engine.Fresh address))
  | .removeGameObject _ | .removeGameObjectByTag _ | .findObjectsByTag _ _
  | .findGameObject _ => isTrue trivial

def answer : Ending Stop Registry Reply → Option (Reply × Registry)
  | .returned x r => some (x, r)
  | .stopped (.threw _) r => some (.threw, r)
  | .stopped _ _ => none

def step (r : Registry) (call : Call) : Option (Reply × Registry) :=
  if call.Allocatable r then answer (call.run.run r) else none

end Registry

/-- What the registry is for: a map from names to objects with their tags. No object
can have a name that others gave to a scene node. -/
structure ObjectMap where
  reserved : List Name
  entries : OrderedMap Name (Ptr × UInt32)

namespace ObjectMap

open Registry

def empty (reserved : List Name) : ObjectMap := ⟨reserved, ∅⟩

/-- `tag` is compared as an `int`. -/
def tagged (tag : Int32) (entry : Name × Ptr × UInt32) : Bool := entry.2.2.toInt32 = tag

def step (m : ObjectMap) : Call → Reply × ObjectMap
  | .createGameObject address tag title =>
      if title ∈ m.reserved ∨ (m.entries.find? title).isSome then (.threw, m)
      else (.object address, { m with entries := m.entries.insert title (address, tag) })
  | .removeGameObject title =>
      match m.entries.find? title with
      | some _ => (.code 1, { m with entries := m.entries.erase title })
      | none => (.code 0, m)
  | .removeGameObjectByTag tag =>
      (.code 0, { m with entries := m.entries.filter fun entry => !tagged tag entry })
  | .findObjectsByTag v tag =>
      (.objects 0 (v ++ (m.entries.entries.filter (tagged tag)).map fun entry => entry.2.1), m)
  | .findGameObject title => (.object (((m.entries.find? title).map Prod.fst).getD 0), m)

end ObjectMap

namespace Registry

variable {r r' : Registry} {reserved : List Name}

section invariant

/-- The names of the scene nodes are those of the objects and the reserved ones, and every
object constructed so far is in the map or has been deleted, in one of them and once. -/
structure Consistent (reserved : List Name) (r : Registry) : Prop where
  wellFormed : r.engine.WellFormed
  nodes : r.engine.sceneNodes.Perm (r.engine.mObjects.entries.map Prod.fst ++ reserved)
  unreserved : ∀ n p, r.engine.mObjects.find? n = some p → n ∉ reserved
  accounted : (r.deleted ++ r.engine.mObjects.values.map r.serial).Perm (List.range r.constructed)

theorem start_consistent (sceneNodes cameras : List Name) :
    Consistent sceneNodes (start sceneNodes cameras) where
  wellFormed := Engine.start_wellFormed _ _
  nodes := List.Perm.refl _
  unreserved n p found := by simp [start, Engine.start] at found
  accounted := List.Perm.refl _

theorem values_nodup {e : Engine} (h : e.WellFormed) : e.mObjects.values.Nodup := by
  rw [OrderedMap.values, List.Nodup, List.pairwise_map]
  refine e.mObjects.sorted.imp_of_mem fun {a b} first second less same => ?_
  have firstFound := (e.mObjects.mem_entries_iff a.1 a.2).mp first
  have secondFound := (e.mObjects.mem_entries_iff b.1 b.2).mp second
  rw [← same] at secondFound
  exact ne_of_lt less (h.name_unique firstFound secondFound)

theorem mem_keys {e : Engine} {n : Name} :
    n ∈ e.mObjects.entries.map Prod.fst ↔ (e.mObjects.find? n).isSome := by
  rw [Option.isSome_iff_exists]
  constructor
  · intro member
    obtain ⟨⟨k, p⟩, inside, rfl⟩ := List.mem_map.mp member
    exact ⟨p, (e.mObjects.mem_entries_iff k p).mp inside⟩
  · rintro ⟨p, found⟩
    exact List.mem_map.mpr ⟨(n, p), (e.mObjects.mem_entries_iff n p).mpr found, rfl⟩

theorem Consistent.mem_sceneNodes (h : Consistent reserved r) (n : Name) :
    n ∈ r.engine.sceneNodes ↔ n ∈ reserved ∨ (r.engine.mObjects.find? n).isSome := by
  rw [h.nodes.mem_iff, List.mem_append, mem_keys, or_comm]

end invariant

section creation

variable {α : Type}

theorem onEngine_of_returned {p : EngineProc α} {a : α} {e : Engine}
    (run : p.run r.engine = .returned a e) :
    (onEngine p).run r = .returned a { r with engine := e } := by
  rw [onEngine, within_run, run]

theorem onEngine_of_stopped {p : EngineProc α} {reason : Stop} {e : Engine}
    (run : p.run r.engine = .stopped reason e) :
    (onEngine p).run r = .stopped reason { r with engine := e } := by
  rw [onEngine, within_run, run]

def withObject (r : Registry) (address : Ptr) (tag : UInt32) (title : Name) : Registry where
  engine := r.engine.withObject address tag title
  constructed := r.constructed + 1
  serial := Function.update r.serial address r.constructed
  deleted := r.deleted

theorem createGameObject_taken (address : Ptr) (tag : UInt32) {title : Name}
    (taken : title ∈ r.engine.sceneNodes) :
    (createGameObject address tag title).run r = .stopped (.threw .ogre) r := by
  have refused : (newGameObject address tag title).run r = .stopped (.threw .ogre) r := by
    unfold newGameObject
    rw [bind_of_stopped (onEngine_of_stopped (Engine.newGameObject_taken address tag taken))]
  unfold createGameObject
  rw [bind_of_stopped refused]

/-- A scene node that can be created has a name that no entry has, so `addGameObject` finds
its title free. -/
theorem createGameObject_free (h : Consistent reserved r) (address : Ptr) (tag : UInt32)
    {title : Name} (free : title ∉ r.engine.sceneNodes) :
    (createGameObject address tag title).run r =
      .returned address (r.withObject address tag title) := by
  have made : (newGameObject address tag title).run r = .returned ()
      { r with
        engine := r.engine.constructed address tag title
        constructed := r.constructed + 1
        serial := Function.update r.serial address r.constructed } := by
    unfold newGameObject
    rw [bind_of_returned (onEngine_of_returned (Engine.newGameObject_free address tag free)),
      modify_run]
  have absent : (r.engine.constructed address tag title).mObjects.find? title = none :=
    h.wellFormed.absent free
  unfold createGameObject
  rw [bind_of_returned made]
  refine (bind_of_returned (a := ()) (t := r.withObject address tag title) ?_ _).trans
    (pure_run _ _)
  rw [onEngine, within_run, Engine.addGameObject_free address absent]
  rfl

theorem Consistent.not_stored (h : Consistent reserved r) {address : Ptr}
    (fresh : r.engine.Fresh address) {n : Name} {p : Ptr}
    (found : r.engine.mObjects.find? n = some p) : p ≠ address := by
  obtain ⟨o, live, -⟩ := h.wellFormed.stored_object found
  rintro rfl
  simp [fresh.2.1] at live

theorem Consistent.withObject (h : Consistent reserved r) {address : Ptr}
    (fresh : r.engine.Fresh address) (tag : UInt32) {title : Name}
    (free : title ∉ r.engine.sceneNodes) :
    Consistent reserved (r.withObject address tag title) := by
  have absent := h.wellFormed.absent free
  have entries : (r.withObject address tag title).engine.mObjects.entries.Perm
      ((title, address) :: r.engine.mObjects.entries) :=
    r.engine.mObjects.insert_perm absent address
  refine ⟨Engine.withObject_wellFormed h.wellFormed fresh tag free, ?_, fun n p found => ?_, ?_⟩
  · exact (h.nodes.cons title).trans ((entries.map Prod.fst).symm.append_right reserved)
  · have found' : (if n = title then some address else r.engine.mObjects.find? n) = some p :=
      (Engine.withObject_find? address tag title n).symm.trans found
    split at found'
    next same =>
      rw [same]
      exact fun inside => free ((h.mem_sceneNodes title).mpr (.inl inside))
    · exact h.unreserved n p found'
  · have others : r.engine.mObjects.values.map (r.withObject address tag title).serial =
        r.engine.mObjects.values.map r.serial := by
      refine List.map_congr_left fun p member => ?_
      obtain ⟨n, found⟩ := (r.engine.mObjects.mem_values_iff p).mp member
      exact Function.update_of_ne (h.not_stored fresh found) ..
    have numbers : ((r.withObject address tag title).engine.mObjects.values.map
        (r.withObject address tag title).serial).Perm
        (r.constructed :: r.engine.mObjects.values.map r.serial) := by
      refine ((entries.map Prod.snd).map _).trans ?_
      rw [List.map_cons, List.map_cons]
      change List.Perm (Function.update r.serial address r.constructed address ::
        r.engine.mObjects.values.map (r.withObject address tag title).serial) _
      rw [others, Function.update_self]
    calc
      List.Perm _ (r.deleted ++ r.constructed :: r.engine.mObjects.values.map r.serial) :=
        numbers.append_left _
      List.Perm _ (r.constructed :: (r.deleted ++ r.engine.mObjects.values.map r.serial)) :=
        List.perm_middle
      List.Perm _ (r.constructed :: List.range r.constructed) := h.accounted.cons _
      List.Perm _ (List.range r.constructed ++ [r.constructed]) :=
        (List.perm_append_singleton _ _).symm
      _ = List.range (r.constructed + 1) := (List.range_succ ..).symm

end creation

section removal

def removed (r : Registry) (title : Name) (p : Ptr) (o : GameObject) : Registry :=
  { r with engine := r.engine.removed title p o, deleted := r.serial p :: r.deleted }

structure Deletes (r : Registry) (ps : List Ptr) (r' : Registry) : Prop where
  deleted : r'.deleted.Perm (ps.map r.serial ++ r.deleted)
  objects : ∀ p, r'.engine.objects p = if p ∈ ps then none else r.engine.objects p
  constructed : r'.constructed = r.constructed
  serial : r'.serial = r.serial

theorem Deletes.refl (r : Registry) : Deletes r [] r := ⟨.refl _, by simp, rfl, rfl⟩

theorem Deletes.trans {r₁ r₂ : Registry} {ps qs : List Ptr} (first : Deletes r ps r₁)
    (second : Deletes r₁ qs r₂) : Deletes r (ps ++ qs) r₂ where
  deleted := by
    have numbers : r₂.deleted.Perm (qs.map r.serial ++ (ps.map r.serial ++ r.deleted)) :=
      (first.serial ▸ second.deleted).trans (first.deleted.append_left _)
    rw [List.map_append, List.append_assoc]
    refine numbers.trans ?_
    rw [← List.append_assoc, ← List.append_assoc]
    exact List.perm_append_comm.append_right _
  objects p := by
    rw [second.objects, first.objects]
    by_cases early : p ∈ ps <;> by_cases late : p ∈ qs <;> simp [early, late]
  constructed := second.constructed.trans first.constructed
  serial := second.serial.trans first.serial

theorem removed_deletes (title : Name) (p : Ptr) (o : GameObject) :
    Deletes r [p] (r.removed title p o) where
  deleted := .refl _
  objects q := by
    rw [removed, Engine.removed_objects]
    simp
  constructed := rfl
  serial := rfl

theorem removeEntry_run (h : r.engine.WellFormed) (title : Name) {p : Ptr} {o : GameObject}
    (live : r.engine.objects p = some o) :
    (removeEntry title p).run r = .returned () (r.removed title p o) := by
  have gone : (deleteGameObject p).run r = .returned ()
      { r with engine := r.engine.deleted p o, deleted := r.serial p :: r.deleted } := by
    unfold deleteGameObject
    rw [bind_of_returned (onEngine_of_returned (Engine.deleteGameObject_run h live)), modify_run]
  unfold removeEntry
  rw [bind_of_returned gone]
  rfl

variable {title : Name} {p : Ptr} {o : GameObject}

theorem removed_mObjects :
    (r.removed title p o).engine.mObjects = r.engine.mObjects.erase title := by
  simp [removed, Engine.removed, Engine.deleted, Engine.setObject, Engine.withoutSlot_mObjects]

theorem removed_entries {before after : List (Name × Ptr)}
    (split : r.engine.mObjects.entries = before ++ (title, p) :: after) :
    (r.removed title p o).engine.mObjects.entries = before ++ after := by
  rw [removed_mObjects, r.engine.mObjects.erase_split split]

theorem Consistent.removed (h : Consistent reserved r) {before after : List (Name × Ptr)}
    (split : r.engine.mObjects.entries = before ++ (title, p) :: after)
    (live : r.engine.objects p = some o) : Consistent reserved (r.removed title p o) := by
  have found : r.engine.mObjects.find? title = some p :=
    (r.engine.mObjects.mem_entries_iff title p).mp (by simp [split])
  have name : o.mName = title := h.wellFormed.name_unique (h.wellFormed.listed p o live) found
  refine ⟨Engine.removed_wellFormed h.wellFormed found live, ?_, fun n q stored => ?_, ?_⟩
  · rw [removed_entries split, Registry.removed, Engine.removed_sceneNodes, name]
    have nodes := h.nodes
    rw [split, List.map_append, List.map_cons, List.append_assoc, List.cons_append] at nodes
    have erased := (nodes.trans List.perm_middle).erase title
    rwa [List.erase_cons_head, ← List.append_assoc, ← List.map_append] at erased
  · have stored' : (if n = title then none else r.engine.mObjects.find? n) = some q :=
      (Engine.removed_find? title n p o).symm.trans stored
    split at stored'
    · simp at stored'
    · exact h.unreserved n q stored'
  · have accounted := h.accounted
    rw [OrderedMap.values, split, List.map_append, List.map_append, List.map_cons, List.map_cons]
      at accounted
    rw [OrderedMap.values, removed_entries split, List.map_append, List.map_append]
    refine List.Perm.trans ?_ accounted
    change List.Perm (r.serial p :: (r.deleted ++ _)) _
    rw [← List.append_assoc, ← List.append_assoc]
    exact List.perm_middle.symm

def hasTag (r : Registry) (tag : Int32) (entry : Name × Ptr) : Bool :=
  match r.engine.objects entry.2 with
  | some o => Engine.getTag o = tag
  | none => false

theorem hasTag_of_live (tag : Int32) {entry : Name × Ptr}
    (live : r.engine.objects entry.2 = some o) :
    r.hasTag tag entry = decide (Engine.getTag o = tag) := by
  rw [hasTag, live]

theorem distinct_of_split (h : r.engine.WellFormed) {before after : List (Name × Ptr)}
    (split : r.engine.mObjects.entries = before ++ (title, p) :: after) {entry : Name × Ptr}
    (member : entry ∈ after) : entry.2 ≠ p := by
  have nodup := values_nodup h
  rw [OrderedMap.values, split, List.map_append, List.map_cons, List.nodup_append] at nodup
  have fresh := (List.nodup_cons.mp nodup.2.1).1
  intro same
  exact fresh (List.mem_map.mpr ⟨entry, member, same⟩)

/-- The loop from an iterator on: what comes before it stays, of the rest exactly the
objects with the tag go, and the rest keeps its order. -/
theorem removeTaggedFrom_run (tag : Int32) (h : Consistent reserved r)
    {before rest : List (Name × Ptr)} (split : r.engine.mObjects.entries = before ++ rest)
    {passes : Nat} (enough : rest.length ≤ passes) :
    ∃ r', (removeTaggedFrom tag passes rest.head?).run r = .returned () r' ∧
      Consistent reserved r' ∧
      r'.engine.mObjects.entries = before ++ rest.filter (fun entry => !r.hasTag tag entry) ∧
      Deletes r ((rest.filter (r.hasTag tag)).map Prod.snd) r' := by
  induction rest generalizing r before passes with
  | nil =>
      refine ⟨r, ?_, h, by simpa using split, Deletes.refl r⟩
      cases passes <;> exact pure_run _ _
  | cons entry rest ih =>
      obtain ⟨title, obj⟩ := entry
      obtain ⟨passes, rfl⟩ : ∃ n, passes = n + 1 :=
        Nat.exists_eq_succ_of_ne_zero (by simp at enough; omega)
      have enough' : rest.length ≤ passes := by simpa using enough
      have found : r.engine.mObjects.find? title = some obj :=
        (r.engine.mObjects.mem_entries_iff title obj).mp (by simp [split])
      obtain ⟨o, live, -⟩ := h.wellFormed.stored_object found
      have read : (onEngine (Engine.object obj)).run r = .returned o r :=
        onEngine_of_returned (Engine.object_run live)
      have tagged : r.hasTag tag (title, obj) = _ := hasTag_of_live tag live
      rw [List.head?_cons, removeTaggedFrom, bind_of_returned read]
      by_cases same : Engine.getTag o = tag
      · have next : (r.removed title obj o).successor title = rest.head? := by
          rw [successor, removed_mObjects, OrderedMap.above_erase, OrderedMap.above_split _ split]
        have kept : ∀ entry ∈ rest,
            (r.removed title obj o).hasTag tag entry = r.hasTag tag entry := by
          intro entry member
          rw [hasTag, hasTag, (removed_deletes title obj o).objects, if_neg]
          simpa using distinct_of_split h.wellFormed split member
        obtain ⟨r', returned, consistent, entries, deletes⟩ :=
          ih (h.removed split live) (removed_entries split) enough'
        rw [if_pos same, bind_of_returned (removeEntry_run h.wellFormed title live), bind_get_run,
          next]
        refine ⟨r', returned, consistent, ?_, ?_⟩
        · rw [entries, List.filter_cons_of_neg (by simp [tagged, same])]
          congr 1
          exact List.filter_congr fun entry member => by rw [kept entry member]
        · rw [List.filter_cons_of_pos (by simp [tagged, same]), List.map_cons]
          have rest' := List.filter_congr kept
          rw [rest'] at deletes
          exact (removed_deletes title obj o).trans deletes
      · have next : r.successor title = rest.head? := by
          rw [successor, OrderedMap.above_split _ split]
        have passed : r.engine.mObjects.entries = (before ++ [(title, obj)]) ++ rest := by
          rw [split, List.append_assoc, List.singleton_append]
        obtain ⟨r', returned, consistent, entries, deletes⟩ := ih h passed enough'
        rw [if_neg same, bind_get_run, next]
        refine ⟨r', returned, consistent, ?_, ?_⟩
        · rw [entries, List.filter_cons_of_pos (by simp [tagged, same]), List.append_assoc,
            List.singleton_append]
        · rwa [List.filter_cons_of_neg (by simp [tagged, same])]

end removal

section calls

theorem removeGameObject_found (h : Consistent reserved r) {title : Name} {p : Ptr}
    (found : r.engine.mObjects.find? title = some p) :
    ∃ r', (removeGameObject title).run r = .returned 1 r' ∧ Consistent reserved r' ∧
      r'.engine.mObjects = r.engine.mObjects.erase title ∧ Deletes r [p] r' := by
  obtain ⟨o, live, -⟩ := h.wellFormed.stored_object found
  obtain ⟨before, after, split⟩ :=
    List.append_of_mem ((r.engine.mObjects.mem_entries_iff title p).mpr found)
  refine ⟨r.removed title p o, ?_, h.removed split live, removed_mObjects,
    removed_deletes title p o⟩
  unfold removeGameObject
  rw [bind_get_run, found]
  change (removeEntry title p >>= fun _ => pure 1).run r = _
  rw [bind_of_returned (removeEntry_run h.wellFormed title live), pure_run]

theorem removeGameObject_absent {title : Name} (absent : r.engine.mObjects.find? title = none) :
    (removeGameObject title).run r = .returned 0 r := by
  unfold removeGameObject
  rw [bind_get_run, absent]
  rfl

theorem removeGameObjectByTag_run (h : Consistent reserved r) (tag : Int32) :
    ∃ r', (removeGameObjectByTag tag).run r = .returned 0 r' ∧ Consistent reserved r' ∧
      r'.engine.mObjects.entries =
        r.engine.mObjects.entries.filter (fun entry => !r.hasTag tag entry) ∧
      Deletes r ((r.engine.mObjects.entries.filter (r.hasTag tag)).map Prod.snd) r' := by
  have whole : r.engine.mObjects.entries = [] ++ r.engine.mObjects.entries := rfl
  obtain ⟨r', returned, rest⟩ := removeTaggedFrom_run tag h whole (Nat.le_refl _)
  refine ⟨r', ?_, rest⟩
  unfold removeGameObjectByTag
  rw [bind_get_run, bind_of_returned returned, pure_run]

theorem pushTagged_run (tag : Int32) {entries : List (Name × Ptr)}
    (live : ∀ entry ∈ entries, ∃ o, r.engine.objects entry.2 = some o) (v : List Ptr) :
    (pushTagged tag entries v).run r =
      .returned (v ++ (entries.filter (r.hasTag tag)).map Prod.snd) r := by
  induction entries generalizing v with
  | nil => simp [pushTagged]
  | cons entry entries ih =>
      obtain ⟨o, alive⟩ := live entry List.mem_cons_self
      have tagged := hasTag_of_live tag alive
      have read : (onEngine (Engine.object entry.2)).run r = .returned o r :=
        onEngine_of_returned (Engine.object_run alive)
      rw [pushTagged, bind_of_returned read,
        ih fun other member => live other (List.mem_cons_of_mem _ member)]
      by_cases same : Engine.getTag o = tag
      · rw [if_pos same, List.filter_cons_of_pos (by simp [tagged, same]), List.map_cons,
          List.append_assoc, List.singleton_append]
      · rw [if_neg same, List.filter_cons_of_neg (by simp [tagged, same])]

theorem findObjectsByTag_run (h : r.engine.WellFormed) (v : List Ptr) (tag : Int32) :
    (findObjectsByTag v tag).run r = .returned
      (0, v ++ (r.engine.mObjects.entries.filter (r.hasTag tag)).map Prod.snd) r := by
  have live : ∀ entry ∈ r.engine.mObjects.entries, ∃ o, r.engine.objects entry.2 = some o := by
    intro entry member
    obtain ⟨o, alive, -⟩ :=
      h.stored_object ((r.engine.mObjects.mem_entries_iff entry.1 entry.2).mp member)
    exact ⟨o, alive⟩
  unfold findObjectsByTag
  rw [bind_get_run, bind_of_returned (pushTagged_run tag live v), pure_run]

theorem findGameObject_run (title : Name) :
    (findGameObject title).run r =
      .returned ((r.engine.mObjects.find? title).getD 0) r := by
  unfold findGameObject
  rw [bind_get_run]
  cases r.engine.mObjects.find? title <;> rfl

/-- What the registry is in a state and what each call does there. -/
structure Conforms (r : Registry) : Prop where
  /-- Every key is the name of the object stored under it. -/
  keys : ∀ n p, r.engine.mObjects.find? n = some p → ∃ o, r.engine.objects p = some o ∧ o.mName = n
  once : r.engine.mObjects.values.Nodup
  /-- Every object constructed so far is in the map or was deleted, once. -/
  accounted : (r.deleted ++ r.engine.mObjects.values.map r.serial).Perm (List.range r.constructed)
  taken : ∀ address tag title,
    title ∈ r.engine.sceneNodes ∨ (r.engine.mObjects.find? title).isSome →
      (createGameObject address tag title).run r = .stopped (.threw .ogre) r
  created : ∀ address tag title,
    ¬ (title ∈ r.engine.sceneNodes ∨ (r.engine.mObjects.find? title).isSome) →
      (createGameObject address tag title).run r =
        .returned address (r.withObject address tag title)
  removed : ∀ title p, r.engine.mObjects.find? title = some p →
    ∃ r', (removeGameObject title).run r = .returned 1 r' ∧
      r'.engine.mObjects = r.engine.mObjects.erase title ∧ Deletes r [p] r'
  absent : ∀ title, r.engine.mObjects.find? title = none →
    (removeGameObject title).run r = .returned 0 r
  removedByTag : ∀ tag, ∃ r', (removeGameObjectByTag tag).run r = .returned 0 r' ∧
    r'.engine.mObjects.entries =
      r.engine.mObjects.entries.filter (fun entry => !r.hasTag tag entry) ∧
    Deletes r ((r.engine.mObjects.entries.filter (r.hasTag tag)).map Prod.snd) r'
  foundByTag : ∀ v tag, (findObjectsByTag v tag).run r = .returned
    (0, v ++ (r.engine.mObjects.entries.filter (r.hasTag tag)).map Prod.snd) r
  found : ∀ title, (findGameObject title).run r =
    .returned ((r.engine.mObjects.find? title).getD 0) r

theorem Consistent.conforms (h : Consistent reserved r) : Conforms r := by
  have node : ∀ title, title ∈ r.engine.sceneNodes ∨ (r.engine.mObjects.find? title).isSome →
      title ∈ r.engine.sceneNodes := by
    rintro title (inUse | stored)
    · exact inUse
    · exact (h.mem_sceneNodes title).mpr (.inr stored)
  exact {
    keys := fun n p => h.wellFormed.stored_object
    once := values_nodup h.wellFormed
    accounted := h.accounted
    taken := fun address tag title inUse => createGameObject_taken address tag (node title inUse)
    created := fun address tag title free =>
      createGameObject_free h address tag fun inUse => free (.inl inUse)
    removed := fun title p stored => by
      obtain ⟨r', returned, -, rest⟩ := removeGameObject_found h stored
      exact ⟨r', returned, rest⟩
    absent := fun title => removeGameObject_absent
    removedByTag := fun tag => by
      obtain ⟨r', returned, -, rest⟩ := removeGameObjectByTag_run h tag
      exact ⟨r', returned, rest⟩
    foundByTag := findObjectsByTag_run h.wellFormed
    found := findGameObject_run }

end calls

section refinement

def tagOf (r : Registry) (p : Ptr) : UInt32 := ((r.engine.objects p).map GameObject.mTag).getD 0

structure Represents (r : Registry) (m : ObjectMap) : Prop where
  consistent : Consistent m.reserved r
  entries : m.entries = r.engine.mObjects.mapValues fun p => (p, r.tagOf p)

variable {m : ObjectMap}

theorem Represents.find? (h : Represents r m) (n : Name) :
    m.entries.find? n = (r.engine.mObjects.find? n).map fun p => (p, r.tagOf p) := by
  rw [h.entries, OrderedMap.find?_mapValues]

theorem Represents.live (h : Represents r m) {entry : Name × Ptr}
    (member : entry ∈ r.engine.mObjects.entries) : ∃ o, r.engine.objects entry.2 = some o := by
  obtain ⟨o, alive, -⟩ := h.consistent.wellFormed.stored_object
    ((r.engine.mObjects.mem_entries_iff entry.1 entry.2).mp member)
  exact ⟨o, alive⟩

theorem Represents.tagged (h : Represents r m) (tag : Int32) {entry : Name × Ptr}
    (member : entry ∈ r.engine.mObjects.entries) :
    r.hasTag tag entry = ObjectMap.tagged tag (entry.1, entry.2, r.tagOf entry.2) := by
  obtain ⟨o, alive⟩ := h.live member
  rw [hasTag_of_live _ alive, ObjectMap.tagged, tagOf, alive]
  rfl

theorem Deletes.tagOf {ps : List Ptr} (deletes : Deletes r ps r') {p : Ptr} (kept : p ∉ ps) :
    r'.tagOf p = r.tagOf p := by
  rw [Registry.tagOf, deletes.objects, if_neg kept]
  rfl

theorem Represents.withObject (h : Represents r m) {address : Ptr}
    (fresh : r.engine.Fresh address) (tag : UInt32) {title : Name}
    (free : title ∉ r.engine.sceneNodes) :
    Represents (r.withObject address tag title)
      { m with entries := m.entries.insert title (address, tag) } where
  consistent := h.consistent.withObject fresh tag free
  entries := by
    have own : (r.withObject address tag title).tagOf address = tag := by
      simp [tagOf, Registry.withObject]
    have others : r.engine.mObjects.mapValues
        (fun p => (p, (r.withObject address tag title).tagOf p)) = m.entries := by
      rw [h.entries]
      refine OrderedMap.mapValues_congr fun entry member => ?_
      have apart := h.consistent.not_stored fresh
        ((r.engine.mObjects.mem_entries_iff entry.1 entry.2).mp member)
      simp [tagOf, Registry.withObject, apart]
    change m.entries.insert title (address, tag) =
      (r.engine.mObjects.insert title address).mapValues _
    rw [OrderedMap.mapValues_insert, others, own]

theorem Represents.filter (h : Represents r m) (consistent : Consistent m.reserved r')
    (gone : Name × Ptr → Bool) {ps : List Ptr} (deletes : Deletes r ps r')
    (entries : r'.engine.mObjects.entries =
      r.engine.mObjects.entries.filter fun entry => !gone entry)
    (kept : ∀ entry ∈ r.engine.mObjects.entries, gone entry = false → entry.2 ∉ ps)
    (goes : Name × Ptr × UInt32 → Bool)
    (same : ∀ entry ∈ r.engine.mObjects.entries,
      gone entry = goes (entry.1, entry.2, r.tagOf entry.2)) :
    Represents r' { m with entries := m.entries.filter fun entry => !goes entry } where
  consistent := consistent
  entries := by
    refine OrderedMap.ext_entries ?_
    have left : r.engine.mObjects.entries.filter
          (fun entry => !goes (entry.1, entry.2, r.tagOf entry.2)) =
        r'.engine.mObjects.entries := by
      rw [entries]
      exact List.filter_congr fun entry member => by rw [same entry member]
    change m.entries.entries.filter _ = r'.engine.mObjects.entries.map _
    rw [h.entries, ← left]
    simp only [OrderedMap.mapValues, List.filter_map, Function.comp_def]
    refine List.map_congr_left fun entry member => ?_
    obtain ⟨inside, stays⟩ := List.mem_filter.mp member
    have spared : gone entry = false := by
      rw [same entry inside]
      simpa using stays
    rw [deletes.tagOf (kept entry inside spared)]

theorem Represents.erase (h : Represents r m) {title : Name} {p : Ptr}
    (found : r.engine.mObjects.find? title = some p) (consistent : Consistent m.reserved r')
    (deletes : Deletes r [p] r')
    (entries : r'.engine.mObjects = r.engine.mObjects.erase title) :
    Represents r' { m with entries := m.entries.erase title } := by
  have erased : m.entries.erase title = m.entries.filter fun entry => !decide (entry.1 = title) :=
    OrderedMap.ext_entries (List.filter_congr fun entry _ => by simp)
  rw [erased]
  refine h.filter consistent (fun entry => decide (entry.1 = title)) deletes ?_ ?_
    (fun entry => decide (entry.1 = title)) fun _ _ => rfl
  · rw [entries]
    exact List.filter_congr fun entry _ => by simp
  · intro entry member other inside
    have stored := (r.engine.mObjects.mem_entries_iff entry.1 entry.2).mp member
    rw [List.mem_singleton.mp inside] at stored
    exact of_decide_eq_false other
      (h.consistent.wellFormed.name_unique stored found)

theorem Represents.removeTagged (h : Represents r m) (tag : Int32)
    (consistent : Consistent m.reserved r')
    (deletes : Deletes r ((r.engine.mObjects.entries.filter (r.hasTag tag)).map Prod.snd) r')
    (entries : r'.engine.mObjects.entries =
      r.engine.mObjects.entries.filter fun entry => !r.hasTag tag entry) :
    Represents r'
      { m with entries := m.entries.filter fun entry => !ObjectMap.tagged tag entry } := by
  refine h.filter consistent (r.hasTag tag) deletes entries ?_ (ObjectMap.tagged tag)
    fun entry member => h.tagged tag member
  intro entry member untagged inside
  obtain ⟨other, otherMember, same⟩ := List.mem_map.mp inside
  -- the tag is the object's, whatever entry it is reached through
  have sameTag : r.hasTag tag other = r.hasTag tag entry := by rw [hasTag, hasTag, same]
  rw [(List.mem_filter.mp otherMember).2, untagged] at sameTag
  simp at sameTag

theorem Represents.inUse_iff (h : Represents r m) (title : Name) :
    title ∈ r.engine.sceneNodes ↔ title ∈ m.reserved ∨ (m.entries.find? title).isSome := by
  rw [h.consistent.mem_sceneNodes, h.find?, Option.isSome_map]

theorem Represents.foundByTag (h : Represents r m) (tag : Int32) :
    (m.entries.entries.filter (ObjectMap.tagged tag)).map (fun entry => entry.2.1) =
      (r.engine.mObjects.entries.filter (r.hasTag tag)).map Prod.snd := by
  have same : r.engine.mObjects.entries.filter
      (ObjectMap.tagged tag ∘ fun entry => (entry.1, entry.2, r.tagOf entry.2)) =
      r.engine.mObjects.entries.filter (r.hasTag tag) :=
    List.filter_congr fun entry member => (h.tagged tag member).symm
  rw [h.entries]
  simp only [OrderedMap.mapValues, List.filter_map, List.map_map]
  rw [same]
  rfl

/-- One call: the same answer, and the map again. -/
theorem step_simulates {x : Reply} {call : Call} (h : Represents r m)
    (answered : step r call = some (x, r')) :
    (m.step call).1 = x ∧ Represents r' (m.step call).2 := by
  rw [step] at answered
  split at answered
  case isFalse => simp at answered
  next allocatable =>
  cases call with
  | createGameObject address tag title =>
      rw [ObjectMap.step, Call.run] at *
      by_cases taken : title ∈ r.engine.sceneNodes
      · rw [bind_of_stopped (createGameObject_taken address tag taken)] at answered
        obtain ⟨rfl, rfl⟩ := Prod.mk.inj (Option.some.inj answered)
        rw [if_pos ((h.inUse_iff title).mp taken)]
        exact ⟨rfl, h⟩
      · rw [bind_of_returned (createGameObject_free h.consistent address tag taken)] at answered
        obtain ⟨rfl, rfl⟩ := Prod.mk.inj (Option.some.inj answered)
        rw [if_neg fun reserved => taken ((h.inUse_iff title).mpr reserved)]
        exact ⟨rfl, h.withObject allocatable tag taken⟩
  | removeGameObject title =>
      rw [ObjectMap.step, Call.run] at *
      cases found : r.engine.mObjects.find? title with
      | none =>
          rw [bind_of_returned (removeGameObject_absent found)] at answered
          obtain ⟨rfl, rfl⟩ := Prod.mk.inj (Option.some.inj answered)
          rw [h.find?, found]
          exact ⟨rfl, h⟩
      | some p =>
          obtain ⟨r₁, returned, consistent, entries, deletes⟩ :=
            removeGameObject_found h.consistent found
          rw [bind_of_returned returned] at answered
          obtain ⟨rfl, rfl⟩ := Prod.mk.inj (Option.some.inj answered)
          rw [h.find?, found]
          exact ⟨rfl, h.erase found consistent deletes entries⟩
  | removeGameObjectByTag tag =>
      obtain ⟨r₁, returned, consistent, entries, deletes⟩ :=
        removeGameObjectByTag_run h.consistent tag
      rw [Call.run, bind_of_returned returned] at answered
      obtain ⟨rfl, rfl⟩ := Prod.mk.inj (Option.some.inj answered)
      exact ⟨rfl, h.removeTagged tag consistent deletes entries⟩
  | findObjectsByTag v tag =>
      rw [Call.run, bind_of_returned (findObjectsByTag_run h.consistent.wellFormed v tag)]
        at answered
      obtain ⟨rfl, rfl⟩ := Prod.mk.inj (Option.some.inj answered)
      rw [ObjectMap.step, h.foundByTag]
      exact ⟨rfl, h⟩
  | findGameObject title =>
      rw [Call.run, bind_of_returned (findGameObject_run title)] at answered
      obtain ⟨rfl, rfl⟩ := Prod.mk.inj (Option.some.inj answered)
      refine ⟨?_, h⟩
      rw [ObjectMap.step, h.find?, Option.map_map]
      simp [Function.comp_def]

theorem start_represents (sceneNodes cameras : List Name) :
    Represents (start sceneNodes cameras) (ObjectMap.empty sceneNodes) where
  consistent := start_consistent sceneNodes cameras
  entries := rfl

/-- Over any calls from the empty registry: the answers are those of the map, the registry
holds the map after them, and there every call does what it is specified to do. -/
theorem registry_refines_map (sceneNodes cameras : List Name) (calls : List Call)
    (replies : List Reply) (r : Registry)
    (run : answers step (start sceneNodes cameras) calls = some (replies, r)) :
    (specAnswers ObjectMap.step (ObjectMap.empty sceneNodes) calls).1 = replies ∧
      Represents r (specAnswers ObjectMap.step (ObjectMap.empty sceneNodes) calls).2 ∧
      Conforms r := by
  have simulates : ∀ r m call x r', Represents r m → step r call = some (x, r') →
      (ObjectMap.step m call).1 = x ∧ Represents r' (ObjectMap.step m call).2 :=
    fun _ _ _ _ _ => step_simulates
  obtain ⟨same, represents⟩ := answers_refine simulates (start_represents sceneNodes cameras) run
  exact ⟨same, represents, represents.consistent.conforms⟩

def someCalls : List Call :=
  [.createGameObject 16 5 (chars "B"), .createGameObject 32 5 (chars "B"),
    .createGameObject 32 7 (chars "A"), .findObjectsByTag [] 7, .removeGameObjectByTag 5,
    .findGameObject (chars "B")]

theorem registry_refines_map_some :
    ∃ r, answers step (start [] []) someCalls =
        some ([.object 16, .threw, .object 32, .objects 0 [32], .code 0, .object 0], r) ∧
      Conforms r :=
  ⟨_, rfl, (registry_refines_map [] [] someCalls _ _ rfl).2.2⟩

end refinement

end Registry

end Ssuge

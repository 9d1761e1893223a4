import Ssuge.Engine
import Ssuge.Forest
import Ssuge.GuardedRun

/-! Game objects whose scene nodes are nested: the two constructors of `GameObject`, its
destructor, and the functions of `BaseApplication` that delete objects. The destructor
of an object destroys the nodes below its own and leaves the objects of these as they
are, with a pointer to a node that is no more. Of the managers of `~BaseApplication`
nothing is modelled, and of the components nothing either. -/

namespace Ssuge.Nested

open CString Procedure GuardedRun

structure SceneNode where
  name : Name
  listener : Ptr

structure GameObject where
  mTag : UInt32
  mName : Name
  mNode : Nat

structure NestedScene where
  /-- The scene nodes; what is felled was destroyed. -/
  forest : Forest SceneNode
  objects : Ptr → Option GameObject
  mObjects : OrderedMap Name Ptr
  /-- The nodes of the objects whose destructor has run, the latest first. -/
  gone : List Nat

abbrev NestedProc := Proc Stop NestedScene

/-- `obj->...` -/
def object (p : Ptr) : NestedProc GameObject := do
  orStop ((← get).objects p) .undefined

def sceneNode (n : Nat) : NestedProc Unit := do
  require ((← get).forest.Standing n) .undefined

def setObject (s : NestedScene) (p : Ptr) (o : Option GameObject) : NestedScene :=
  { s with objects := Function.update s.objects p o }

def nameTaken (s : NestedScene) (name : Name) : Bool :=
  (List.range s.forest.nodes.length).any fun n =>
    s.forest.Standing n && (s.forest.nodes[n]?.any fun node => node.value.name = name)

/-- The receiver of `createChildSceneNode`: a node, or the root node, which stays. -/
def receiver : Option Nat → NestedProc Unit
  | none => pure ()
  | some n => sceneNode n

def createChildSceneNode (parent : Option Nat) (name : Name) : NestedProc Nat := do
  receiver parent
  require (nameTaken (← get) name = false) (.threw .ogre)
  let mNode := (← get).forest.nodes.length
  modify fun s => { s with forest := s.forest.plant parent ⟨name, 0⟩ }
  pure mNode

def setListener (n : Nat) (listener : Ptr) : NestedProc Unit := do
  sceneNode n
  modify fun s => { s with forest := s.forest.mapValue n fun node => { node with listener } }

def newGameObject (address : Ptr) (tag : UInt32) (name : Name) : NestedProc Unit := do
  let mNode ← createChildSceneNode none name
  setListener mNode address
  modify fun s => setObject s address (some ⟨tag, name, mNode⟩)

/-- `new GameObject(tag, name, parent)`: the object does not listen to its node. -/
def newChildObject (address : Ptr) (tag : UInt32) (name : Name) (parent : Nat) :
    NestedProc Unit := do
  let mNode ← createChildSceneNode (some parent) name
  modify fun s => setObject s address (some ⟨tag, name, mNode⟩)

def addGameObject (title : Name) (obj : Ptr) : NestedProc Unit := do
  match (← get).mObjects.find? title with
  | none => modify fun s => { s with mObjects := s.mObjects.insert title obj }
  | some _ => stop (.threw (.ssuge
      (chars "An object with name '" ++ title ++ chars "' already exists!")))

def createGameObject (address : Ptr) (tag : UInt32) (title : Name) : NestedProc Unit := do
  newGameObject address tag title
  addGameObject title address

/-- `addGameObject(title, new GameObject(tag, name, parent->getSceneNode()))` -/
def createChildObject (address : Ptr) (tag : UInt32) (name : Name) (parent : Ptr) (title : Name) :
    NestedProc Unit := do
  let o ← object parent
  newChildObject address tag name o.mNode
  addGameObject title address

/-- Every descendant of the node is destroyed. -/
def removeAndDestroyAllChildren (n : Nat) : NestedProc Unit := do
  sceneNode n
  modify fun s => { s with forest := s.forest.fellBelow n }

def destroySceneNode (n : Nat) : NestedProc Unit := do
  sceneNode n
  modify fun s => { s with forest := s.forest.fellNode n }

def deleteGameObject (p : Ptr) : NestedProc Unit := do
  let o ← object p
  setListener o.mNode 0
  removeAndDestroyAllChildren o.mNode
  destroySceneNode o.mNode
  modify fun s => { setObject s p none with gone := o.mNode :: s.gone }

def removeGameObject (title : Name) : NestedProc Nat := do
  match (← get).mObjects.find? title with
  | some obj =>
      deleteGameObject obj
      modify fun s => { s with mObjects := s.mObjects.erase title }
      pure 1
  | none => pure 0

/-- The loops that delete objects of the map in the order of their names: which object
is deleted, and what becomes of its entry. -/
def deleteEntries (chosen : GameObject → Bool)
    (forget : Name → OrderedMap Name Ptr → OrderedMap Name Ptr) :
    List (Name × Ptr) → NestedProc Unit
  | [] => pure ()
  | (title, obj) :: rest => do
      let o ← object obj
      if chosen o then do
        deleteGameObject obj
        modify fun s => { s with mObjects := forget title s.mObjects }
        deleteEntries chosen forget rest
      else deleteEntries chosen forget rest

def getTag (o : GameObject) : Int32 := o.mTag.toInt32

def removeGameObjectByTag (tag : Int32) : NestedProc Nat := do
  deleteEntries (fun o => getTag o = tag) (fun title m => m.erase title)
    (← get).mObjects.entries
  pure 0

/-- The objects of `~BaseApplication`: an entry stays until all are deleted, with NULL. -/
def destroyApplication : NestedProc Unit := do
  deleteEntries (fun _ => true) (fun title m => m.insert title 0) (← get).mObjects.entries
  modify fun s => { s with mObjects := ∅ }

def start : NestedScene := ⟨⟨[], []⟩, fun _ => none, ∅, []⟩

inductive Op
  | createGameObject (address : Ptr) (tag : UInt32) (title : Name)
  | createChildObject (address : Ptr) (tag : UInt32) (name : Name) (parent : Ptr) (title : Name)
  | removeGameObject (title : Name)
  | removeGameObjectByTag (tag : Int32)
  | destroyApplication

def Op.run : Op → NestedProc Unit
  | .createGameObject address tag title => Nested.createGameObject address tag title
  | .createChildObject address tag name parent title =>
      Nested.createChildObject address tag name parent title
  | .removeGameObject title => discard (Nested.removeGameObject title)
  | .removeGameObjectByTag tag => discard (Nested.removeGameObjectByTag tag)
  | .destroyApplication => Nested.destroyApplication

def Op.Allocatable (s : NestedScene) : Op → Prop
  | .createGameObject address .. | .createChildObject address .. =>
      address ≠ 0 ∧ s.objects address = none
  | _ => True

instance (s : NestedScene) : (op : Op) → Decidable (op.Allocatable s)
  | .createGameObject address .. | .createChildObject address .. =>
      decidable_of_iff (address ≠ 0 ∧ (s.objects address).isNone) (by simp [Op.Allocatable])
  | .removeGameObject _ | .removeGameObjectByTag _ | .destroyApplication => isTrue trivial

def step (s : NestedScene) (op : Op) : Option NestedScene :=
  if op.Allocatable s then (op.run.run s).resumes Stop.caught else none

def deletes (s : NestedScene) : Op → List Ptr
  | .createGameObject .. | .createChildObject .. => []
  | .removeGameObject title => (s.mObjects.find? title).toList
  | .removeGameObjectByTag tag =>
      s.mObjects.values.filter fun p => (s.objects p).any fun o => getTag o = tag
  | .destroyApplication => s.mObjects.values

def lineage (s : NestedScene) (p : Ptr) : List Nat :=
  match s.objects p with
  | some o => s.forest.above o.mNode
  | none => []

/-- The node of the first object is below that of the second. -/
def Under (s : NestedScene) (p q : Ptr) : Prop :=
  ∃ o, s.objects q = some o ∧ o.mNode ∈ lineage s p

/-- No object of the list comes after one that it is nested under, deleted before or
in the list. -/
structure InOrder (s : NestedScene) (ps : List Ptr) : Prop where
  before : ∀ p ∈ ps, ∀ a ∈ lineage s p, a ∉ s.gone
  within : ps.Pairwise fun p q => ¬ Under s q p

structure DestroysOnce (s : NestedScene) (op : Op) : Prop where
  /-- No destructor uses a node that was destroyed. -/
  defined : deletes s op ≠ [] → ∀ s', op.run.run s ≠ .stopped .undefined s'
  /-- The nodes of the deleted objects are among those of all the objects deleted so far... -/
  deleted : ∀ s', step s op = some s' → ∀ p ∈ deletes s op, ∀ o, s.objects p = some o →
    o.mNode ∈ s'.gone
  /-- ...and each of these was destroyed once. -/
  once : ∀ s', step s op = some s' → ∀ n ∈ s'.gone, s'.forest.felled.count n = 1

def DeletionGuard (s : NestedScene) (op : Op) : Prop := InOrder s (deletes s op)

section deletion

variable {s s' : NestedScene} {p q : Ptr} {o : GameObject}

/-- The nodes that have fallen are those of deleted objects and what is below them; every
object has a node of its own. -/
structure Nodes (s : NestedScene) : Prop where
  grown : s.forest.Grown s.gone
  placed : ∀ p o, s.objects p = some o → o.mNode < s.forest.nodes.length ∧ o.mNode ∉ s.gone
  apart : ∀ p q o u, s.objects p = some o → s.objects q = some u → o.mNode = u.mNode → p = q

def without (s : NestedScene) (p : Ptr) (o : GameObject) : NestedScene :=
  let silent := s.forest.mapValue o.mNode fun node => { node with listener := 0 }
  { setObject s p none with
    forest := (silent.fellBelow o.mNode).fellNode o.mNode
    gone := o.mNode :: s.gone }

theorem object_run (live : s.objects p = some o) : (object p).run s = .returned o s := by
  unfold object
  rw [bind_get_run, live, orStop_some]

theorem sceneNode_standing {n : Nat} (stands : s.forest.Standing n) :
    (sceneNode n).run s = .returned () s := by
  unfold sceneNode
  rw [bind_get_run, require_pos stands]

theorem sceneNode_fallen {n : Nat} (fallen : ¬ s.forest.Standing n) :
    (sceneNode n).run s = .stopped .undefined s := by
  unfold sceneNode
  rw [bind_get_run, require_neg fallen]

theorem lineage_of_live (live : s.objects p = some o) :
    lineage s p = s.forest.above o.mNode := by
  rw [lineage, live]

/-- The node of a live object stands exactly when no object above it was deleted. -/
theorem Nodes.standing_iff (h : Nodes s) (live : s.objects p = some o) :
    s.forest.Standing o.mNode ↔ ∀ a ∈ lineage s p, a ∉ s.gone := by
  obtain ⟨bound, kept⟩ := h.placed p o live
  rw [h.grown.standing_iff bound, and_iff_right kept, lineage_of_live live]

theorem deleteGameObject_standing (h : Nodes s) (live : s.objects p = some o)
    (stands : s.forest.Standing o.mNode) :
    (deleteGameObject p).run s = .returned () (without s p o) := by
  set silent := s.forest.mapValue o.mNode fun node => { node with listener := 0 }
  have silently : silent.Standing o.mNode := (Forest.standing_mapValue _ _ _).mpr stands
  have alone : (silent.fellBelow o.mNode).Standing o.mNode :=
    (h.grown.mapValue _ _).standing_fellBelow silently
  have quiet : (setListener o.mNode 0).run s = .returned () { s with forest := silent } := by
    unfold setListener
    rw [bind_of_returned (sceneNode_standing stands), modify_run]
  have cleared : (removeAndDestroyAllChildren o.mNode).run { s with forest := silent } =
      .returned () { s with forest := silent.fellBelow o.mNode } := by
    unfold removeAndDestroyAllChildren
    rw [bind_of_returned (sceneNode_standing (s := { s with forest := silent }) silently),
      modify_run]
  unfold deleteGameObject
  rw [bind_of_returned (object_run live), bind_of_returned quiet, bind_of_returned cleared,
    destroySceneNode, bind_of_returned (a := ()) (by
      rw [bind_of_returned (sceneNode_standing
        (s := { s with forest := silent.fellBelow o.mNode }) alone), modify_run]),
    modify_run]
  rfl

theorem deleteGameObject_fallen (live : s.objects p = some o)
    (fallen : ¬ s.forest.Standing o.mNode) :
    (deleteGameObject p).run s = .stopped .undefined s := by
  unfold deleteGameObject
  rw [bind_of_returned (object_run live), bind_of_stopped]
  unfold setListener
  rw [bind_of_stopped (sceneNode_fallen fallen)]

@[simp] theorem without_objects (p : Ptr) (o : GameObject) (q : Ptr) :
    (without s p o).objects q = if q = p then none else s.objects q := by
  simp [without, setObject, Function.update_apply]

theorem without_above (p : Ptr) (o : GameObject) (n : Nat) :
    (without s p o).forest.above n = s.forest.above n := by
  rw [without, Forest.above_fell, Forest.above_mapValue]

theorem without_length (p : Ptr) (o : GameObject) :
    (without s p o).forest.nodes.length = s.forest.nodes.length := by
  rw [without, Forest.length_fell, Forest.length_mapValue]

theorem lineage_without (apart : q ≠ p) : lineage (without s p o) q = lineage s q := by
  rw [lineage, lineage, without_objects, if_neg apart]
  cases s.objects q with
  | none => rfl
  | some u => exact without_above p o u.mNode

theorem Nodes.without (h : Nodes s) (live : s.objects p = some o)
    (stands : s.forest.Standing o.mNode) : Nodes (without s p o) := by
  have fewer : ∀ q u, (Nested.without s p o).objects q = some u →
      q ≠ p ∧ s.objects q = some u := by
    intro q u alive
    rw [without_objects] at alive
    split at alive
    · simp at alive
    next apart => exact ⟨apart, alive⟩
  refine ⟨?_, fun q u alive => ?_, fun q r u v first second => ?_⟩
  · exact (h.grown.mapValue _ _).fell ((Forest.standing_mapValue _ _ _).mpr stands)
  · obtain ⟨apart, before⟩ := fewer q u alive
    obtain ⟨bound, kept⟩ := h.placed q u before
    refine ⟨lt_of_lt_of_eq bound (without_length p o).symm, fun member => ?_⟩
    rcases List.mem_cons.mp member with same | earlier
    · exact apart (h.apart q p u o before live same)
    · exact kept earlier
  · exact h.apart q r u v (fewer q u first).2 (fewer r v second).2

theorem under_without {r : Ptr} (first : q ≠ p) (second : r ≠ p) :
    Under (without s p o) q r ↔ Under s q r := by
  simp only [Under, lineage_without first, without_objects, if_neg second]

theorem inOrder_cons (live : s.objects p = some o) {ps : List Ptr} (once : p ∉ ps) :
    InOrder s (p :: ps) ↔
      (∀ a ∈ lineage s p, a ∉ s.gone) ∧ InOrder (without s p o) ps := by
  have others : ∀ {q}, q ∈ ps → q ≠ p := fun member same => once (same ▸ member)
  have same : ps.Pairwise (fun q r => ¬ Under (without s p o) r q) ↔
      ps.Pairwise (fun q r => ¬ Under s r q) :=
    List.Pairwise.iff_of_mem fun first second => by
      rw [under_without (others second) (others first)]
  have later : (∀ q ∈ ps, ∀ a ∈ lineage (without s p o) q, a ∉ (without s p o).gone) ↔
      (∀ q ∈ ps, ∀ a ∈ lineage s q, a ∉ s.gone) ∧ ∀ q ∈ ps, ¬ Under s q p := by
    constructor
    · intro kept
      refine ⟨fun q member a higher gone => ?_, ?_⟩
      · exact kept q member a ((lineage_without (others member)).symm ▸ higher)
          (List.mem_cons_of_mem _ gone)
      · rintro q member ⟨u, alive, higher⟩
        obtain rfl := Option.some.inj (live.symm.trans alive)
        exact kept q member o.mNode ((lineage_without (others member)).symm ▸ higher)
          List.mem_cons_self
    · rintro ⟨earlier, free⟩ q member a higher gone
      rw [lineage_without (others member)] at higher
      rcases List.mem_cons.mp gone with rfl | before
      · exact free q member ⟨o, live, higher⟩
      · exact earlier q member a higher before
  constructor
  · rintro ⟨before, within⟩
    obtain ⟨first, rest⟩ := List.pairwise_cons.mp within
    exact ⟨before p List.mem_cons_self, later.mpr
      ⟨fun q member => before q (List.mem_cons_of_mem p member), first⟩, same.mpr rest⟩
  · rintro ⟨first, before, within⟩
    obtain ⟨earlier, free⟩ := later.mp before
    refine ⟨fun q member => ?_, List.pairwise_cons.mpr ⟨free, same.mp within⟩⟩
    rcases List.mem_cons.mp member with rfl | rest
    · exact first
    · exact earlier q rest

structure Deleted (s : NestedScene) (ps : List Ptr) (s' : NestedScene) : Prop where
  nodes : Nodes s'
  objects : ∀ q, s'.objects q = if q ∈ ps then none else s.objects q
  recorded : ∀ p ∈ ps, ∀ o, s.objects p = some o → o.mNode ∈ s'.gone
  kept : ∀ n ∈ s.gone, n ∈ s'.gone

theorem Nodes.withMap (h : Nodes s) (m : OrderedMap Name Ptr) : Nodes { s with mObjects := m } :=
  ⟨h.grown, h.placed, h.apart⟩

theorem inOrder_withMap {m : OrderedMap Name Ptr} {ps : List Ptr} :
    InOrder { s with mObjects := m } ps ↔ InOrder s ps :=
  ⟨fun h => ⟨h.before, h.within⟩, fun h => ⟨h.before, h.within⟩⟩

theorem Deleted.nil (h : Nodes s) : Deleted s [] s where
  nodes := h
  objects q := by simp
  recorded p member := by simp at member
  kept n member := member

theorem Deleted.cons (live : s.objects p = some o) {m : OrderedMap Name Ptr} {ps : List Ptr}
    (rest : Deleted { without s p o with mObjects := m } ps s') : Deleted s (p :: ps) s' where
  nodes := rest.nodes
  objects q := by
    rw [rest.objects]
    by_cases same : q = p <;> simp [same]
  recorded q member u alive := by
    by_cases same : q = p
    · subst same
      obtain rfl := Option.some.inj (live.symm.trans alive)
      exact rest.kept o.mNode List.mem_cons_self
    · exact rest.recorded q ((List.mem_cons.mp member).resolve_left same) u
        (by simp [same, alive])
  kept n member := rest.kept n (List.mem_cons_of_mem _ member)

/-- The loops: they return when what they delete is in order, and else they use a node
that was destroyed. -/
theorem deleteEntries_run (chosen : GameObject → Bool)
    (forget : Name → OrderedMap Name Ptr → OrderedMap Name Ptr) {entries : List (Name × Ptr)}
    (h : Nodes s) (live : ∀ entry ∈ entries, ∃ o, s.objects entry.2 = some o)
    (nodup : (entries.map Prod.snd).Nodup) {picked : List (Name × Ptr)}
    (picks : picked = entries.filter fun entry => (s.objects entry.2).any chosen) :
    (InOrder s (picked.map Prod.snd) ∧
      ∃ s', (deleteEntries chosen forget entries).run s = .returned () s' ∧
        Deleted s (picked.map Prod.snd) s' ∧
        s'.mObjects = picked.foldl (fun m entry => forget entry.1 m) s.mObjects) ∨
    (¬ InOrder s (picked.map Prod.snd) ∧
      ∃ s', (deleteEntries chosen forget entries).run s = .stopped .undefined s') := by
  induction entries generalizing s picked with
  | nil =>
      subst picks
      exact .inl ⟨⟨by simp, by simp⟩, s, rfl, Deleted.nil h, rfl⟩
  | cons entry rest ih =>
      obtain ⟨title, p⟩ := entry
      obtain ⟨o, alive⟩ := live (title, p) List.mem_cons_self
      obtain ⟨fresh, nodup⟩ := List.nodup_cons.mp nodup
      have later : ∀ entry ∈ rest, ∃ o, s.objects entry.2 = some o :=
        fun entry member => live entry (List.mem_cons_of_mem _ member)
      rw [deleteEntries, bind_of_returned (object_run alive)]
      by_cases choose : chosen o = true
      · have others : ∀ entry ∈ rest, entry.2 ≠ p := fun entry member same =>
          fresh (List.mem_map.mpr ⟨entry, member, same⟩)
        obtain ⟨tail, tail_eq⟩ : ∃ tail, tail = rest.filter fun entry =>
            (s.objects entry.2).any chosen := ⟨_, rfl⟩
        have split : picked = (title, p) :: tail := by
          rw [picks, tail_eq, List.filter_cons_of_pos (by simp [alive, choose])]
        have outside : p ∉ tail.map Prod.snd := by
          intro member
          obtain ⟨entry, inside, same⟩ := List.mem_map.mp member
          exact others entry (List.mem_filter.mp (tail_eq ▸ inside)).1 same
        rw [split, List.map_cons, inOrder_cons alive outside, if_pos choose,
          ← h.standing_iff alive]
        by_cases stands : s.forest.Standing o.mNode
        · rw [bind_of_returned (deleteGameObject_standing h alive stands), bind_modify_run,
            and_iff_right stands]
          have same : tail = rest.filter fun entry =>
              ((without s p o).objects entry.2).any chosen := by
            rw [tail_eq]
            refine List.filter_congr fun entry member => ?_
            rw [without_objects, if_neg (others entry member)]
          rcases ih (s := { without s p o with mObjects := forget title s.mObjects })
              ((h.without alive stands).withMap _) (fun entry member => by
                rw [without_objects, if_neg (others entry member)]
                exact later entry member) nodup same with
            ⟨order, s', returned, deleted, map⟩ | ⟨disorder, stopped⟩
          · exact .inl ⟨inOrder_withMap.mp order, s', returned, deleted.cons alive, map⟩
          · exact .inr ⟨fun order => disorder (inOrder_withMap.mpr order), stopped⟩
        · exact .inr ⟨fun order => stands order.1, s, by
            rw [bind_of_stopped (deleteGameObject_fallen alive stands)]⟩
      · rw [if_neg choose]
        exact ih h later nodup (by rw [picks, List.filter_cons_of_neg (by simp [alive, choose])])

end deletion

section creation

variable {s s' : NestedScene} {address : Ptr} {tag : UInt32} {name : Name}

theorem createChildSceneNode_run (parent : Option Nat) (name : Name) :
    (createChildSceneNode parent name).run s =
      if (∀ p ∈ parent, s.forest.Standing p) then
        if nameTaken s name = false then .returned s.forest.nodes.length
          { s with forest := s.forest.plant parent ⟨name, 0⟩ }
        else .stopped (.threw .ogre) s
      else .stopped .undefined s := by
  have received : (receiver parent).run s =
      if (∀ p ∈ parent, s.forest.Standing p) then .returned () s else .stopped .undefined s := by
    cases parent with
    | none => simp [receiver]
    | some p =>
        by_cases stands : s.forest.Standing p
        · simp [receiver, stands, sceneNode_standing stands]
        · simp [receiver, stands, sceneNode_fallen stands]
  unfold createChildSceneNode
  split
  next stands =>
    rw [if_pos stands] at received
    rw [bind_of_returned received, bind_get_run]
    split
    next free =>
      rw [bind_of_returned (require_pos free _ _), bind_get_run, bind_modify_run, pure_run]
    next taken => rw [bind_of_stopped (require_neg taken _ _)]
  next fallen =>
    rw [if_neg fallen] at received
    rw [bind_of_stopped received]

theorem Nodes.plant (h : Nodes s) {parent : Option Nat}
    (stands : ∀ p ∈ parent, s.forest.Standing p) (node : SceneNode) :
    Nodes { s with forest := s.forest.plant parent node } where
  grown := h.grown.plant stands node
  placed p o live := by
    obtain ⟨bound, kept⟩ := h.placed p o live
    exact ⟨by simpa using Nat.lt_succ_of_lt bound, kept⟩
  apart := h.apart

theorem Nodes.mapValue (h : Nodes s) (n : Nat) (g : SceneNode → SceneNode) :
    Nodes { s with forest := s.forest.mapValue n g } where
  grown := h.grown.mapValue n g
  placed p o live := by simpa using h.placed p o live
  apart := h.apart

theorem Nodes.setObject (h : Nodes s) (tag : UInt32) (name : Name) {n : Nat}
    (bound : n < s.forest.nodes.length) (kept : n ∉ s.gone)
    (vacant : ∀ q u, s.objects q = some u → u.mNode ≠ n) :
    Nodes (setObject s address (some ⟨tag, name, n⟩)) := by
  have cases : ∀ q u, (Nested.setObject s address (some ⟨tag, name, n⟩)).objects q = some u →
      q = address ∧ u.mNode = n ∨ s.objects q = some u := by
    intro q u live
    by_cases same : q = address
    · left
      subst same
      obtain rfl : _ = u := by simpa [Nested.setObject] using live
      exact ⟨rfl, rfl⟩
    · right
      simpa [Nested.setObject, same] using live
  refine ⟨h.grown, fun q u live => ?_, fun q r u v first second same => ?_⟩
  · rcases cases q u live with ⟨-, at_n⟩ | before
    · rw [at_n]
      exact ⟨bound, kept⟩
    · exact h.placed q u before
  · rcases cases q u first with ⟨rfl, node⟩ | before <;>
      rcases cases r v second with ⟨rfl, node'⟩ | before'
    · rfl
    · exact absurd (same.symm.trans node) (vacant r v before')
    · exact absurd (same.trans node') (vacant q u before)
    · exact h.apart q r u v before before' same

structure Added (s : NestedScene) (address : Ptr) (s' : NestedScene) : Prop where
  nodes : Nodes s'
  live : ∃ o, s'.objects address = some o
  others : ∀ q, q ≠ address → s'.objects q = s.objects q
  map : s'.mObjects = s.mObjects

theorem added_setObject {s₁ : NestedScene} (h : Nodes s₁) (objects : s₁.objects = s.objects)
    (map : s₁.mObjects = s.mObjects) (tag : UInt32) (name : Name) {n : Nat}
    (bound : n < s₁.forest.nodes.length) (kept : n ∉ s₁.gone)
    (vacant : ∀ q u, s.objects q = some u → u.mNode ≠ n) :
    Added s address (setObject s₁ address (some ⟨tag, name, n⟩)) where
  nodes := h.setObject tag name bound kept (objects ▸ vacant)
  live := ⟨⟨tag, name, n⟩, by simp [setObject]⟩
  others q apart := by simp [setObject, apart, objects]
  map := map

theorem Nodes.vacant (h : Nodes s) :
    s.forest.nodes.length ∉ s.gone ∧
      ∀ q u, s.objects q = some u → u.mNode ≠ s.forest.nodes.length :=
  ⟨fun member => absurd (h.grown.rooted _ member) (lt_irrefl _),
    fun q u live => (h.placed q u live).1.ne⟩

theorem newGameObject_ends (h : Nodes s) (address : Ptr) (tag : UInt32) (name : Name) :
    (newGameObject address tag name).run s = .stopped (.threw .ogre) s ∨
      ∃ s', (newGameObject address tag name).run s = .returned () s' ∧ Added s address s' := by
  have root : ∀ p ∈ (none : Option Nat), s.forest.Standing p := by simp
  have created := createChildSceneNode_run (s := s) none name
  rw [if_pos root] at created
  unfold newGameObject
  split at created
  next free =>
    have stands : (s.forest.plant none ⟨name, 0⟩).Standing s.forest.nodes.length :=
      ⟨by simp, fun member => absurd (h.grown.planted _ member) (lt_irrefl _)⟩
    right
    rw [bind_of_returned created, setListener, bind_of_returned (a := ())
      (by rw [bind_of_returned (sceneNode_standing stands), modify_run]), modify_run]
    exact ⟨_, rfl, added_setObject (s := s) ((h.plant root _).mapValue _ _) rfl rfl tag name
      (by simp) h.vacant.1 h.vacant.2⟩
  next taken =>
    left
    rw [bind_of_stopped created]

theorem newChildObject_ends (h : Nodes s) (address : Ptr) (tag : UInt32) (name : Name)
    (parent : Nat) :
    (∃ e, (newChildObject address tag name parent).run s = .stopped e s) ∨
      ∃ s', (newChildObject address tag name parent).run s = .returned () s' ∧
        Added s address s' := by
  have created := createChildSceneNode_run (s := s) (some parent) name
  unfold newChildObject
  split at created
  next stands =>
    split at created
    · right
      rw [bind_of_returned created, modify_run]
      exact ⟨_, rfl, added_setObject (s := s) (h.plant stands _) rfl rfl tag name (by simp)
        h.vacant.1 h.vacant.2⟩
    · left
      exact ⟨_, by rw [bind_of_stopped created]⟩
  next fallen =>
    left
    exact ⟨_, by rw [bind_of_stopped created]⟩

structure Sound (s : NestedScene) : Prop where
  nodes : Nodes s
  stored : ∀ n p, s.mObjects.find? n = some p → ∃ o, s.objects p = some o
  unique : ∀ n k p, s.mObjects.find? n = some p → s.mObjects.find? k = some p → n = k

theorem addGameObject_sound (h : Sound s) (fresh : s.objects address = none)
    (added : Added s address s') (title : Name) {s'' : NestedScene}
    (resumed : ((addGameObject title address).run s').resumes Stop.caught = some s'') :
    Sound s'' := by
  have unlisted : ∀ n, s.mObjects.find? n ≠ some address := by
    intro n found
    obtain ⟨o, live⟩ := h.stored n address found
    simp [fresh] at live
  have stored : ∀ n p, s.mObjects.find? n = some p → ∃ o, s'.objects p = some o := by
    intro n p found
    have apart : p ≠ address := fun same => unlisted n (same ▸ found)
    rw [added.others p apart]
    exact h.stored n p found
  unfold addGameObject at resumed
  rw [bind_get_run] at resumed
  split at resumed
  next absent =>
    obtain rfl := Option.some.inj resumed
    refine ⟨added.nodes.withMap _, fun n p found => ?_, fun n k p first second => ?_⟩
    · rw [OrderedMap.find?_insert, added.map] at found
      split at found
      · obtain rfl := Option.some.inj found
        exact added.live
      · exact stored n p found
    · rw [OrderedMap.find?_insert, added.map] at first second
      split at first <;> split at second
      next a b => exact a.trans b.symm
      next a b => exact absurd ((Option.some.inj first) ▸ second) (unlisted k)
      next a b => exact absurd ((Option.some.inj second) ▸ first) (unlisted n)
      next a b => exact h.unique n k p first second
  next p taken =>
    obtain rfl := Option.some.inj resumed
    exact ⟨added.nodes, added.map ▸ stored, added.map ▸ h.unique⟩

end creation

section steps

variable {s s' : NestedScene}

theorem bind_resumes {α β : Type} {p : NestedProc α} {f : α → NestedProc β} {e : Stop}
    {t : NestedScene} (stopped : p.run s = .stopped e t)
    (resumed : ((p >>= f).run s).resumes Stop.caught = some s') : s' = t := by
  rw [bind_of_stopped stopped, Ending.resumes] at resumed
  split at resumed
  · exact (Option.some.inj resumed).symm
  · simp at resumed

theorem createGameObject_sound (h : Sound s) {address : Ptr} (fresh : s.objects address = none)
    {tag : UInt32} {title : Name}
    (resumed : ((createGameObject address tag title).run s).resumes Stop.caught = some s') :
    Sound s' := by
  unfold createGameObject at resumed
  rcases newGameObject_ends h.nodes address tag title with refused | ⟨s₁, created, added⟩
  · exact bind_resumes refused resumed ▸ h
  · rw [bind_of_returned created] at resumed
    exact addGameObject_sound h fresh added title resumed

theorem createChildObject_sound (h : Sound s) {address : Ptr} (fresh : s.objects address = none)
    {tag : UInt32} {name title : Name} {parent : Ptr}
    (resumed : ((createChildObject address tag name parent title).run s).resumes Stop.caught =
      some s') : Sound s' := by
  unfold createChildObject at resumed
  cases live : s.objects parent with
  | none =>
      have dead : (object parent).run s = .stopped .undefined s := by
        unfold object
        rw [bind_get_run, live, orStop_none]
      exact bind_resumes dead resumed ▸ h
  | some o =>
      rw [bind_of_returned (object_run live)] at resumed
      rcases newChildObject_ends h.nodes address tag name o.mNode with
        ⟨e, refused⟩ | ⟨s₁, created, added⟩
      · exact bind_resumes refused resumed ▸ h
      · rw [bind_of_returned created] at resumed
        exact addGameObject_sound h fresh added title resumed

theorem Deleted.sound {ps : List Ptr} (h : Sound s) (deleted : Deleted s ps s')
    (map : ∀ n p, s'.mObjects.find? n = some p → s.mObjects.find? n = some p ∧ p ∉ ps) :
    Sound s' where
  nodes := deleted.nodes
  stored n p found := by
    obtain ⟨before, kept⟩ := map n p found
    rw [deleted.objects, if_neg kept]
    exact h.stored n p before
  unique n k p first second := h.unique n k p (map n p first).1 (map k p second).1

def Ends (s : NestedScene) (op : Op) : Prop :=
  (InOrder s (deletes s op) ∧
    ∃ s', op.run.run s = .returned () s' ∧ Deleted s (deletes s op) s' ∧ Sound s') ∨
  (¬ InOrder s (deletes s op) ∧ ∃ s', op.run.run s = .stopped .undefined s')

theorem removeGameObject_ends (h : Sound s) (title : Name) : Ends s (.removeGameObject title) := by
  unfold Ends
  rw [Op.run, deletes]
  cases found : s.mObjects.find? title with
  | none =>
      refine .inl ⟨⟨by simp, by simp⟩, s, ?_, Deleted.nil h.nodes, h⟩
      rw [discard_run, removeGameObject, bind_get_run, found]
      rfl
  | some p =>
      obtain ⟨o, live⟩ := h.stored title p found
      have alone : InOrder s [p] ↔ s.forest.Standing o.mNode := by
        rw [h.nodes.standing_iff live]
        exact ⟨fun order => order.before p List.mem_cons_self,
          fun free => ⟨by simpa using free, by simp⟩⟩
      rw [Option.toList_some, alone]
      by_cases stands : s.forest.Standing o.mNode
      · have deleted := (Deleted.nil ((h.nodes.without live stands).withMap
          (s.mObjects.erase title))).cons live
        refine .inl ⟨stands, _, ?_, deleted, deleted.sound h fun n q left => ?_⟩
        · have deletion := deleteGameObject_standing h.nodes live stands
          rw [discard_run, removeGameObject, bind_get_run, found]
          simp only [bind_of_returned deletion, bind_modify_run, pure_run]
          rfl
        · rw [OrderedMap.find?_erase] at left
          split at left
          · simp at left
          next other =>
            refine ⟨left, fun member => other ?_⟩
            rw [List.mem_singleton.mp member] at left
            exact h.unique n title p left found
      · refine .inr ⟨stands, s, ?_⟩
        have deletion := deleteGameObject_fallen live stands
        rw [discard_run, removeGameObject, bind_get_run, found]
        simp only [bind_of_stopped deletion]

theorem removeGameObjectByTag_ends (h : Sound s) (tag : Int32) :
    Ends s (.removeGameObjectByTag tag) := by
  have live : ∀ entry ∈ s.mObjects.entries, ∃ o, s.objects entry.2 = some o :=
    fun entry member => h.stored entry.1 entry.2 ((s.mObjects.mem_entries_iff _ _).mp member)
  have listed : deletes s (.removeGameObjectByTag tag) =
      (s.mObjects.entries.filter fun entry =>
        (s.objects entry.2).any fun o => getTag o = tag).map Prod.snd := by
    rw [deletes, OrderedMap.values, List.filter_map]
    rfl
  unfold Ends
  rw [listed]
  rcases deleteEntries_run (fun o => getTag o = tag) (fun title m => m.erase title) h.nodes live
      (s.mObjects.values_nodup h.unique) rfl with
    ⟨order, s', returned, deleted, map⟩ | ⟨disorder, s', stopped⟩
  · refine .inl ⟨order, s', ?_, deleted, deleted.sound h fun n p found => ?_⟩
    · rw [Op.run, discard_returned]
      exact ⟨0, by rw [removeGameObjectByTag, bind_get_run, bind_of_returned returned, pure_run]⟩
    · rw [map, OrderedMap.find?_foldl_erase] at found
      split at found
      · simp at found
      next kept =>
        refine ⟨found, fun member => kept ?_⟩
        obtain ⟨entry, inside, rfl⟩ := List.mem_map.mp member
        have stored := (s.mObjects.mem_entries_iff entry.1 entry.2).mp
          (List.mem_filter.mp inside).1
        exact List.mem_map.mpr ⟨entry, inside, h.unique entry.1 n entry.2 stored found⟩
  · refine .inr ⟨disorder, s', ?_⟩
    rw [Op.run, discard_stopped, removeGameObjectByTag, bind_get_run, bind_of_stopped stopped]

theorem destroyApplication_ends (h : Sound s) : Ends s .destroyApplication := by
  have live : ∀ entry ∈ s.mObjects.entries, ∃ o, s.objects entry.2 = some o :=
    fun entry member => h.stored entry.1 entry.2 ((s.mObjects.mem_entries_iff _ _).mp member)
  have all : s.mObjects.entries =
      s.mObjects.entries.filter fun entry => (s.objects entry.2).any fun _ => true := by
    refine (List.filter_eq_self.mpr fun entry member => ?_).symm
    obtain ⟨o, alive⟩ := live entry member
    rw [alive]
    rfl
  unfold Ends
  rw [show deletes s .destroyApplication = s.mObjects.entries.map Prod.snd from rfl]
  rcases deleteEntries_run (fun _ => true) (fun title m => m.insert title 0) h.nodes live
      (s.mObjects.values_nodup h.unique) all with
    ⟨order, s', returned, deleted, -⟩ | ⟨disorder, s', stopped⟩
  · refine .inl ⟨order, { s' with mObjects := ∅ }, ?_, ?_, ?_⟩
    · rw [Op.run, destroyApplication, bind_get_run, bind_of_returned returned, modify_run]
    · exact ⟨deleted.nodes.withMap ∅, deleted.objects, deleted.recorded, deleted.kept⟩
    · exact ⟨deleted.nodes.withMap ∅, fun n p found => by simp at found,
        fun n k p found => by simp at found⟩
  · refine .inr ⟨disorder, s', ?_⟩
    rw [Op.run, destroyApplication, bind_get_run, bind_of_stopped stopped]

theorem step_of_returned {op : Op} (allocatable : op.Allocatable s)
    (returned : op.run.run s = .returned () s') : step s op = some s' := by
  rw [step, if_pos allocatable, returned]
  rfl

theorem Nodes.once (h : Nodes s) : ∀ n ∈ s.gone, s.forest.felled.count n = 1 := by
  intro n member
  have fallen := (h.grown.felled_iff n (h.grown.rooted n member)).mpr (.inl member)
  exact List.count_eq_one_of_mem h.grown.once fallen

/-- A step that deletes does what it should exactly when its deletions are in order. -/
theorem deletion_step {op : Op} (free : op.Allocatable s) (ends : Ends s op) :
    (DestroysOnce s op ↔ DeletionGuard s op) ∧ ∀ s', step s op = some s' → Sound s' := by
  rcases ends with ⟨order, s₁, returned, deleted, sound⟩ | ⟨disorder, s₁, stopped⟩
  · have stepped := step_of_returned free returned
    refine ⟨iff_of_true ⟨fun _ t stopped => ?_, fun t reached => ?_, fun t reached => ?_⟩ order,
      fun t reached => ?_⟩
    · simp [returned] at stopped
    · obtain rfl := Option.some.inj (stepped.symm.trans reached)
      exact deleted.recorded
    · obtain rfl := Option.some.inj (stepped.symm.trans reached)
      exact sound.nodes.once
    · obtain rfl := Option.some.inj (stepped.symm.trans reached)
      exact sound
  · have some_deleted : deletes s op ≠ [] := by
      intro empty
      rw [empty] at disorder
      exact disorder ⟨by simp, by simp⟩
    have halts : step s op = none := by
      rw [step, if_pos free, stopped]
      rfl
    refine ⟨iff_of_false (fun once => once.defined some_deleted s₁ stopped) disorder,
      fun t reached => ?_⟩
    rw [halts] at reached
    simp at reached

theorem creation_step {op : Op} (none_deleted : deletes s op = [])
    (keeps : ∀ s', step s op = some s' → Sound s') :
    (DestroysOnce s op ↔ DeletionGuard s op) ∧ ∀ s', step s op = some s' → Sound s' := by
  refine ⟨iff_of_true ⟨fun deleting => absurd none_deleted deleting, fun t _ p member => ?_,
    fun t reached => (keeps t reached).nodes.once⟩ ?_, keeps⟩
  · rw [none_deleted] at member
    simp at member
  · rw [DeletionGuard, none_deleted]
    exact ⟨by simp, by simp⟩

theorem step_destroysOnce (h : Sound s) (op : Op) :
    (DestroysOnce s op ↔ DeletionGuard s op) ∧ ∀ s', step s op = some s' → Sound s' := by
  cases op with
  | createGameObject address tag title =>
      refine creation_step rfl fun s' reached => ?_
      rw [step] at reached
      split at reached
      next free => exact createGameObject_sound h free.2 reached
      · simp at reached
  | createChildObject address tag name parent title =>
      refine creation_step rfl fun s' reached => ?_
      rw [step] at reached
      split at reached
      next free => exact createChildObject_sound h free.2 reached
      · simp at reached
  | removeGameObject title => exact deletion_step trivial (removeGameObject_ends h title)
  | removeGameObjectByTag tag => exact deletion_step trivial (removeGameObjectByTag_ends h tag)
  | destroyApplication => exact deletion_step trivial (destroyApplication_ends h)

theorem start_sound : Sound start where
  nodes := ⟨Forest.Grown.empty, fun p o live => by simp [start] at live,
    fun p q o u live => by simp [start] at live⟩
  stored n p found := by simp [start] at found
  unique n k p found := by simp [start] at found

/-- Over any run: every destructor uses nodes that are there and every deleted object's
node was destroyed once, if and only if no object is deleted after one that it is
nested under. -/
theorem destroysOnce_iff (ops : List Op) :
    Along step DestroysOnce start ops ↔ Along step DeletionGuard start ops :=
  along_iff (I := Sound) (L := fun _ => True) (fun _ op h _ => (step_destroysOnce h op).1)
    (fun _ op _ h _ _ reached => (step_destroysOnce h op).2 _ reached) start_sound
    (fun _ _ => trivial)

end steps

/-- The end of the program deletes "Cart" before "Wheel", whose node was below that of
"Cart". -/
theorem not_destroysOnce :
    ¬ Along step DestroysOnce start
      [.createGameObject 16 1 (chars "Cart"),
        .createChildObject 32 1 (chars "Wheel") 16 (chars "Wheel"), .destroyApplication] := by
  rintro ⟨-, all⟩
  obtain ⟨-, all⟩ := all _ rfl
  obtain ⟨once, -⟩ := all _ rfl
  exact once.defined (by decide) _ rfl

end Ssuge.Nested

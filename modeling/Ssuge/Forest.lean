import Mathlib.Data.List.Nodup
import Mathlib.Data.List.Range
import Mathlib.Tactic.Common

/-! Forests that are planted node by node and felled subtree by subtree. Nodes are
numbered as they are planted and a number is not used again; every node knows the
nodes above it. Felling a standing node fells what stands below it. The invariant
`Grown` says which nodes have fallen by the roots that were felled: a node has fallen
exactly when it, or a node above it, is one of them. -/

namespace Ssuge

structure ForestNode (α : Type) where
  value : α
  /-- The nodes above, the nearest first. -/
  above : List Nat

structure Forest (α : Type) where
  nodes : List (ForestNode α)
  /-- The nodes that were felled, the latest first. -/
  felled : List Nat

namespace Forest

variable {α : Type} (f : Forest α)

def above (n : Nat) : List Nat := (f.nodes[n]?.map ForestNode.above).getD []

def Standing (n : Nat) : Prop := n < f.nodes.length ∧ n ∉ f.felled

instance (n : Nat) : Decidable (f.Standing n) := inferInstanceAs (Decidable (_ ∧ _))

def path : Option Nat → List Nat
  | none => []
  | some p => p :: f.above p

def plant (parent : Option Nat) (value : α) : Forest α :=
  { f with nodes := f.nodes ++ [⟨value, f.path parent⟩] }

def below (n : Nat) : List Nat :=
  (List.range f.nodes.length).filter fun m => f.Standing m ∧ n ∈ f.above m

def fellBelow (n : Nat) : Forest α := { f with felled := f.below n ++ f.felled }

def fellNode (n : Nat) : Forest α := { f with felled := n :: f.felled }

def mapValue (n : Nat) (g : α → α) : Forest α :=
  { f with nodes := f.nodes.modify n fun node => { node with value := g node.value } }

variable {f}

theorem mem_below {n m : Nat} : m ∈ f.below n ↔ f.Standing m ∧ n ∈ f.above m := by
  simp only [below, List.mem_filter, List.mem_range, decide_eq_true_eq]
  exact ⟨And.right, fun h => ⟨h.1.1, h⟩⟩

theorem above_plant_old {n : Nat} (old : n < f.nodes.length) (parent : Option Nat) (value : α) :
    (f.plant parent value).above n = f.above n := by
  simp [above, plant, List.getElem?_append_left old]

theorem above_plant_new (parent : Option Nat) (value : α) :
    (f.plant parent value).above f.nodes.length = f.path parent := by
  simp [above, plant]

@[simp] theorem above_mapValue (n m : Nat) (g : α → α) :
    (f.mapValue n g).above m = f.above m := by
  simp only [above, mapValue, List.getElem?_modify]
  cases f.nodes[m]? with
  | none => rfl
  | some node =>
      by_cases same : n = m <;> simp [same]

@[simp] theorem length_mapValue (n : Nat) (g : α → α) :
    (f.mapValue n g).nodes.length = f.nodes.length := by
  simp [mapValue]

@[simp] theorem standing_mapValue (n m : Nat) (g : α → α) :
    (f.mapValue n g).Standing m ↔ f.Standing m := by
  rw [Standing, Standing, length_mapValue]
  rfl

@[simp] theorem length_plant (parent : Option Nat) (value : α) :
    (f.plant parent value).nodes.length = f.nodes.length + 1 := by
  simp [plant]

@[simp] theorem above_fell (n k m : Nat) : ((f.fellBelow n).fellNode k).above m = f.above m := rfl

@[simp] theorem length_fell (n k : Nat) :
    ((f.fellBelow n).fellNode k).nodes.length = f.nodes.length := rfl

theorem above_of_absent {n : Nat} (absent : f.nodes.length ≤ n) : f.above n = [] := by
  simp [above, List.getElem?_eq_none absent]

/-- The nodes that have fallen are those that are, or were planted below, a felled root. -/
structure Grown (f : Forest α) (roots : List Nat) : Prop where
  older : ∀ n, ∀ a ∈ f.above n, a < n
  once : f.felled.Nodup
  planted : ∀ n ∈ f.felled, n < f.nodes.length
  rooted : ∀ r ∈ roots, r < f.nodes.length
  felled_iff : ∀ n < f.nodes.length, n ∈ f.felled ↔ n ∈ roots ∨ ∃ a ∈ f.above n, a ∈ roots

namespace Grown

variable {roots : List Nat}

theorem empty : Grown (⟨[], []⟩ : Forest α) [] where
  older n a member := by simp [above] at member
  once := List.nodup_nil
  planted n member := by simp at member
  rooted r member := by simp at member
  felled_iff n bound := by simp at bound

theorem standing_iff (h : Grown f roots) {n : Nat} (bound : n < f.nodes.length) :
    f.Standing n ↔ n ∉ roots ∧ ∀ a ∈ f.above n, a ∉ roots := by
  rw [Standing, h.felled_iff n bound]
  push Not
  exact and_iff_right bound

theorem mapValue (h : Grown f roots) (n : Nat) (g : α → α) :
    Grown (f.mapValue n g) roots where
  older m a member := h.older m a (above_mapValue n m g ▸ member)
  once := h.once
  planted m member := by simpa using h.planted m member
  rooted r member := by simpa using h.rooted r member
  felled_iff m bound := by
    rw [above_mapValue]
    exact h.felled_iff m (by simpa using bound)

theorem path_standing (h : Grown f roots) {parent : Option Nat}
    (stands : ∀ p ∈ parent, f.Standing p) : ∀ a ∈ f.path parent, a ∉ roots := by
  cases parent with
  | none => simp [path]
  | some p =>
      have free := (h.standing_iff (stands p rfl).1).mp (stands p rfl)
      intro a member
      rcases List.mem_cons.mp member with rfl | higher
      · exact free.1
      · exact free.2 a higher

theorem path_lt (h : Grown f roots) {parent : Option Nat}
    (stands : ∀ p ∈ parent, f.Standing p) : ∀ a ∈ f.path parent, a < f.nodes.length := by
  cases parent with
  | none => simp [path]
  | some p =>
      intro a member
      have bound := (stands p rfl).1
      rcases List.mem_cons.mp member with rfl | higher
      · exact bound
      · exact (h.older p a higher).trans bound

theorem plant (h : Grown f roots) {parent : Option Nat} (stands : ∀ p ∈ parent, f.Standing p)
    (value : α) : Grown (f.plant parent value) roots := by
  have length : (f.plant parent value).nodes.length = f.nodes.length + 1 :=
    length_plant parent value
  refine ⟨fun n a member => ?_, h.once, fun n member => ?_, fun r member => ?_,
    fun n bound => ?_⟩
  · rcases Nat.lt_trichotomy n f.nodes.length with old | rfl | later
    · exact h.older n a (above_plant_old old parent value ▸ member)
    · exact h.path_lt stands a (above_plant_new parent value ▸ member)
    · rw [above_of_absent (by omega)] at member
      simp at member
  · have := h.planted n member
    omega
  · have := h.rooted r member
    omega
  · rcases Nat.lt_or_ge n f.nodes.length with old | new
    · rw [above_plant_old old]
      exact h.felled_iff n old
    · obtain rfl : n = f.nodes.length := by omega
      rw [above_plant_new]
      refine iff_of_false (fun member => ?_) ?_
      · exact absurd (h.planted _ member) (lt_irrefl _)
      · rintro (root | ⟨a, member, root⟩)
        · exact absurd (h.rooted _ root) (lt_irrefl _)
        · exact h.path_standing stands a member root

theorem not_mem_below (h : Grown f roots) (n : Nat) : n ∉ f.below n := fun member =>
  absurd (h.older n n (mem_below.mp member).2) (lt_irrefl _)

theorem standing_fellBelow (h : Grown f roots) {n : Nat} (stands : f.Standing n) :
    (f.fellBelow n).Standing n := by
  refine ⟨stands.1, fun member => ?_⟩
  rcases List.mem_append.mp member with under | before
  · exact h.not_mem_below n under
  · exact stands.2 before

/-- Felling a standing node, with what is below it, makes it a felled root. -/
theorem fell (h : Grown f roots) {n : Nat} (stands : f.Standing n) :
    Grown ((f.fellBelow n).fellNode n) (n :: roots) := by
  refine ⟨h.older, ?_, ?_, ?_, fun m bound => ?_⟩
  · refine List.nodup_cons.mpr
      ⟨(h.standing_fellBelow stands).2, List.nodup_append.mpr ⟨?_, h.once, ?_⟩⟩
    · exact (List.nodup_range).filter _
    · rintro m under m' before rfl
      exact (mem_below.mp under).1.2 before
  · intro m member
    rcases List.mem_cons.mp member with rfl | rest
    · exact stands.1
    · rcases List.mem_append.mp rest with under | before
      · exact (mem_below.mp under).1.1
      · exact h.planted m before
  · intro r member
    rcases List.mem_cons.mp member with rfl | before
    · exact stands.1
    · exact h.rooted r before
  · change m ∈ n :: (f.below n ++ f.felled) ↔ m ∈ n :: roots ∨ ∃ a ∈ f.above m, a ∈ n :: roots
    have before := h.felled_iff m bound
    constructor
    · intro member
      rcases List.mem_cons.mp member with rfl | rest
      · exact .inl List.mem_cons_self
      · rcases List.mem_append.mp rest with under | fallen
        · exact .inr ⟨n, (mem_below.mp under).2, List.mem_cons_self⟩
        · rcases before.mp fallen with root | ⟨a, higher, root⟩
          · exact .inl (List.mem_cons_of_mem n root)
          · exact .inr ⟨a, higher, List.mem_cons_of_mem n root⟩
    · intro rooted
      by_cases fallen : m ∈ f.felled
      · exact List.mem_cons_of_mem n (List.mem_append_right _ fallen)
      · have old := mt before.mpr fallen
        rcases rooted with root | ⟨a, higher, root⟩
        · rcases List.mem_cons.mp root with rfl | earlier
          · exact List.mem_cons_self
          · exact absurd (.inl earlier) old
        · rcases List.mem_cons.mp root with rfl | earlier
          · exact List.mem_cons_of_mem _
              (List.mem_append_left _ (mem_below.mpr ⟨⟨bound, fallen⟩, higher⟩))
          · exact absurd (.inr ⟨a, higher, earlier⟩) old

end Grown

end Forest

end Ssuge

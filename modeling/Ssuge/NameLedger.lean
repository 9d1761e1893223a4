import Mathlib.Data.List.Basic
import Mathlib.Data.List.Nodup
import Mathlib.Logic.Function.Basic
import Mathlib.Tactic.Common

/-! Tables of names in use, one for each kind of resource, and a ledger of which
resources each owner has created. An owner derives the names of its resources from
its own name; a name is in use once, whoever uses it. -/

namespace Ssuge.NameLedger

structure Resource (κ ν : Type) where
  kind : κ
  name : ν
deriving DecidableEq, Repr

structure Ledger (κ ν ω : Type) where
  names : κ → List ν
  created : ω → List (Resource κ ν)

variable {κ ν ω : Type}

/-- Every resource of the ledger is in use, once, under a name that its owner derives. -/
structure Sound (derived : ν → κ → ν) (nameOf : ω → Option ν) (l : Ledger κ ν ω) : Prop where
  nodup : ∀ kind, (l.names kind).Nodup
  once : ∀ owner, (l.created owner).Nodup
  present : ∀ owner, ∀ r ∈ l.created owner, r.name ∈ l.names r.kind
  named : ∀ owner, ∀ r ∈ l.created owner, ∃ n, nameOf owner = some n ∧ r.name = derived n r.kind

variable {derived : ν → κ → ν} {nameOf : ω → Option ν} {l : Ledger κ ν ω} {owner : ω}
  {r : Resource κ ν}

theorem Sound.nameless (h : Sound derived nameOf l) (unnamed : nameOf owner = none) :
    l.created owner = [] := by
  rw [List.eq_nil_iff_forall_not_mem]
  intro r member
  obtain ⟨n, named, -⟩ := h.named owner r member
  simp [unnamed] at named

theorem Sound.mono (h : Sound derived nameOf l) {nameOf' : ω → Option ν}
    (more : ∀ owner n, nameOf owner = some n → nameOf' owner = some n) :
    Sound derived nameOf' l where
  nodup := h.nodup
  once := h.once
  present := h.present
  named owner r member := by
    obtain ⟨n, named, name⟩ := h.named owner r member
    exact ⟨n, more owner n named, name⟩

theorem Sound.apart (h : Sound derived nameOf l)
    (inj : ∀ p q n, nameOf p = some n → nameOf q = some n → p = q)
    (derives : ∀ kind m n, derived m kind = derived n kind → m = n) {q : ω} (other : q ≠ owner)
    (own : r ∈ l.created owner) : r ∉ l.created q := by
  intro member
  obtain ⟨n, named, name⟩ := h.named owner r own
  obtain ⟨m, named', name'⟩ := h.named q r member
  obtain rfl := derives r.kind m n (name'.symm.trans name)
  exact other (inj q owner m named' named)

section tables

variable [DecidableEq κ] [DecidableEq ω]

def create (l : Ledger κ ν ω) (owner : ω) (r : Resource κ ν) : Ledger κ ν ω where
  names := Function.update l.names r.kind (r.name :: l.names r.kind)
  created := Function.update l.created owner (r :: l.created owner)

theorem Sound.create (h : Sound derived nameOf l) {n : ν} (named : nameOf owner = some n)
    (name : r.name = derived n r.kind) (free : r.name ∉ l.names r.kind) :
    Sound derived nameOf (create l owner r) := by
  have absent : r ∉ l.created owner := fun member => free (h.present owner r member)
  refine ⟨fun kind => ?_, fun q => ?_, fun q r' member => ?_, fun q r' member => ?_⟩
  · by_cases same : kind = r.kind
    · subst same
      simpa [NameLedger.create] using ⟨free, h.nodup _⟩
    · simpa [NameLedger.create, same] using h.nodup kind
  · by_cases same : q = owner
    · subst same
      simpa [NameLedger.create] using ⟨absent, h.once q⟩
    · simpa [NameLedger.create, same] using h.once q
  · have member' : r' = r ∨ r' ∈ l.created q := by
      by_cases same : q = owner
      · subst same
        simpa [NameLedger.create] using member
      · exact .inr (by simpa [NameLedger.create, same] using member)
    rcases member' with rfl | old
    · simp [NameLedger.create]
    · by_cases same : r'.kind = r.kind
      · have inUse := h.present q r' old
        rw [same] at inUse
        simp [NameLedger.create, same, inUse]
      · simpa [NameLedger.create, same] using h.present q r' old
  · by_cases same : q = owner
    · subst same
      rcases List.mem_cons.mp (by simpa [NameLedger.create] using member) with rfl | old
      · exact ⟨n, named, name⟩
      · exact h.named q r' old
    · exact h.named q r' (by simpa [NameLedger.create, same] using member)

variable [DecidableEq ν] [BEq ν] [LawfulBEq ν]

def destroy (l : Ledger κ ν ω) (owner : ω) (r : Resource κ ν) : Ledger κ ν ω where
  names := Function.update l.names r.kind ((l.names r.kind).erase r.name)
  created := Function.update l.created owner ((l.created owner).erase r)

theorem Sound.destroy (h : Sound derived nameOf l)
    (inj : ∀ p q n, nameOf p = some n → nameOf q = some n → p = q)
    (derives : ∀ kind m n, derived m kind = derived n kind → m = n) {n : ν}
    (named : nameOf owner = some n) (name : r.name = derived n r.kind) :
    Sound derived nameOf (destroy l owner r) := by
  have remains : ∀ q, ∀ r' ∈ (NameLedger.destroy l owner r).created q,
      r' ∈ l.created q ∧ r' ≠ r := by
    intro q r' member
    by_cases same : q = owner
    · subst same
      have erased : r' ∈ (l.created q).erase r := by simpa [NameLedger.destroy] using member
      exact ((h.once q).mem_erase_iff.mp erased).symm
    · have old : r' ∈ l.created q := by simpa [NameLedger.destroy, same] using member
      refine ⟨old, ?_⟩
      rintro rfl
      obtain ⟨m, named', name'⟩ := h.named q r' old
      obtain rfl := derives r'.kind m n (name'.symm.trans name)
      exact same (inj q owner m named' named)
  refine ⟨fun kind => ?_, fun q => ?_, fun q r' member => ?_, fun q r' member =>
    h.named q r' (remains q r' member).1⟩
  · by_cases same : kind = r.kind
    · subst same
      simpa [NameLedger.destroy] using (h.nodup _).erase _
    · simpa [NameLedger.destroy, same] using h.nodup kind
  · by_cases same : q = owner
    · subst same
      simpa [NameLedger.destroy] using (h.once q).erase _
    · simpa [NameLedger.destroy, same] using h.once q
  · obtain ⟨old, different⟩ := remains q r' member
    have inUse := h.present q r' old
    by_cases same : r'.kind = r.kind
    · have apart : r'.name ≠ r.name := by
        intro equal
        obtain ⟨kind, name⟩ := r
        obtain ⟨kind', name'⟩ := r'
        simp_all
      rw [same] at inUse
      simp [NameLedger.destroy, same, (List.mem_erase_of_ne apart).mpr inUse]
    · simpa [NameLedger.destroy, same] using inUse

end tables

variable [DecidableEq κ] [DecidableEq ν]

/-- The names that stay in use when exactly the resources of an owner go. -/
def spared (l : Ledger κ ν ω) (owner : ω) (kind : κ) : List ν :=
  (l.names kind).filter fun name => ⟨kind, name⟩ ∉ l.created owner

theorem mem_spared {kind : κ} {name : ν} : name ∈ spared l owner kind ↔
    name ∈ l.names kind ∧ ⟨kind, name⟩ ∉ l.created owner := by
  rw [spared, List.mem_filter, decide_eq_true_iff]

theorem Sound.spared (h : Sound derived nameOf l)
    (inj : ∀ p q n, nameOf p = some n → nameOf q = some n → p = q)
    (derives : ∀ kind m n, derived m kind = derived n kind → m = n) {q : ω} (other : q ≠ owner)
    (own : r ∈ l.created q) : r.name ∈ spared l owner r.kind := by
  have kept : r ∉ l.created owner := h.apart inj derives (Ne.symm other) own
  exact mem_spared.mpr ⟨h.present q r own, kept⟩

theorem spared_eq_self {kind : κ} (none : ∀ name, ⟨kind, name⟩ ∉ l.created owner) :
    spared l owner kind = l.names kind :=
  List.filter_eq_self.mpr fun name _ => by simp [none name]

theorem spared_eq_erase [BEq ν] [LawfulBEq ν] (nodup : (l.names r.kind).Nodup)
    (only : ∀ name, ⟨r.kind, name⟩ ∈ l.created owner ↔ name = r.name) :
    spared l owner r.kind = (l.names r.kind).erase r.name := by
  rw [spared, nodup.erase_eq_filter]
  refine List.filter_congr fun name _ => ?_
  by_cases same : name = r.name <;> simp [only, same]

variable [DecidableEq ω]

def drop (l : Ledger κ ν ω) (owner : ω) : Ledger κ ν ω where
  names := spared l owner
  created := Function.update l.created owner []

theorem Sound.drop (h : Sound derived nameOf l)
    (inj : ∀ p q n, nameOf p = some n → nameOf q = some n → p = q)
    (derives : ∀ kind m n, derived m kind = derived n kind → m = n) :
    Sound derived (Function.update nameOf owner none) (drop l owner) := by
  have remains : ∀ q, ∀ r ∈ (NameLedger.drop l owner).created q, q ≠ owner ∧ r ∈ l.created q := by
    intro q r member
    by_cases same : q = owner
    · subst same
      simp [NameLedger.drop] at member
    · exact ⟨same, by simpa [NameLedger.drop, same] using member⟩
  refine ⟨fun kind => (h.nodup kind).filter _, fun q => ?_, fun q r member => ?_,
    fun q r member => ?_⟩
  · by_cases same : q = owner
    · subst same
      simp [NameLedger.drop]
    · simpa [NameLedger.drop, same] using h.once q
  · obtain ⟨other, own⟩ := remains q r member
    exact h.spared inj derives other own
  · obtain ⟨other, own⟩ := remains q r member
    obtain ⟨n, named, name⟩ := h.named q r own
    exact ⟨n, by rw [Function.update_of_ne other, named], name⟩

end Ssuge.NameLedger

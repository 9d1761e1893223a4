import Mathlib.Order.Lattice
import Mathlib.Data.List.Basic
import Mathlib.Data.List.Nodup
import Mathlib.Data.List.Perm.Basic
import Mathlib.Tactic.Common

/-! Finite maps whose entries are kept in strictly increasing key order, as a search
tree enumerates them. A map carries the proof of its order, so a key has at most
one entry and an entry is found exactly when it is a member. -/

namespace Ssuge

structure OrderedMap (κ α : Type) [LinearOrder κ] where
  entries : List (κ × α)
  sorted : entries.Pairwise fun a b => a.1 < b.1

namespace OrderedMap

variable {κ α : Type} [LinearOrder κ]

def empty : OrderedMap κ α := ⟨[], List.Pairwise.nil⟩

instance : EmptyCollection (OrderedMap κ α) := ⟨empty⟩

def find? (m : OrderedMap κ α) (k : κ) : Option α :=
  (m.entries.find? fun entry => entry.1 = k).map Prod.snd

def values (m : OrderedMap κ α) : List α := m.entries.map Prod.snd

def erase (m : OrderedMap κ α) (k : κ) : OrderedMap κ α :=
  ⟨m.entries.filter fun entry => entry.1 ≠ k, m.sorted.filter _⟩

/-- Store a value under a key, in place of the value that was there. -/
def insert (m : OrderedMap κ α) (k : κ) (v : α) : OrderedMap κ α where
  entries := m.entries.filter (fun entry => entry.1 < k) ++
    (k, v) :: m.entries.filter (fun entry => k < entry.1)
  sorted := by
    rw [List.pairwise_append, List.pairwise_cons]
    refine ⟨m.sorted.filter _, ⟨?_, m.sorted.filter _⟩, ?_⟩
    · intro entry member
      simpa using (List.mem_filter.mp member).2
    · intro before below entry member
      have first : before.1 < k := by simpa using (List.mem_filter.mp below).2
      rcases List.mem_cons.mp member with rfl | above
      · exact first
      · exact lt_trans first (by simpa using (List.mem_filter.mp above).2)

def above (m : OrderedMap κ α) (k : κ) : List (κ × α) :=
  m.entries.filter fun entry => k < entry.1

theorem mem_entries_iff (m : OrderedMap κ α) (k : κ) (v : α) :
    (k, v) ∈ m.entries ↔ m.find? k = some v := by
  obtain ⟨entries, sorted⟩ := m
  simp only [find?, Option.map_eq_some_iff]
  induction entries with
  | nil => simp
  | cons entry entries ih =>
      obtain ⟨smaller, sorted⟩ := List.pairwise_cons.mp sorted
      by_cases same : entry.1 = k
      · have later : ∀ w, (k, w) ∉ entries := fun w member =>
          ne_of_lt (smaller _ member) same
        constructor
        · intro member
          rcases List.mem_cons.mp member with rfl | member
          · exact ⟨(k, v), by simp, rfl⟩
          · exact absurd member (later v)
        · rintro ⟨found, first, rfl⟩
          rw [List.find?_cons_of_pos (by simpa using same)] at first
          obtain rfl := Option.some.inj first
          simp [← same]
      · rw [List.find?_cons_of_neg (by simpa using same), ← ih sorted, List.mem_cons]
        constructor
        · rintro (rfl | member)
          · exact absurd rfl same
          · exact member
        · exact .inr

theorem mem_values_iff (m : OrderedMap κ α) (v : α) :
    v ∈ m.values ↔ ∃ k, m.find? k = some v := by
  simp only [values, List.mem_map, ← mem_entries_iff]
  constructor
  · rintro ⟨⟨k, w⟩, member, rfl⟩
    exact ⟨k, member⟩
  · rintro ⟨k, member⟩
    exact ⟨(k, v), member, rfl⟩

@[simp] theorem find?_empty (k : κ) : (∅ : OrderedMap κ α).find? k = none := rfl

theorem find?_insert (m : OrderedMap κ α) (k j : κ) (v : α) :
    (m.insert k v).find? j = if j = k then some v else m.find? j := by
  have entry_iff : ∀ w, (m.insert k v).find? j = some w ↔
      (if j = k then some v else m.find? j) = some w := by
    intro w
    rw [← mem_entries_iff, insert]
    simp only [List.mem_append, List.mem_filter, List.mem_cons, decide_eq_true_eq, mem_entries_iff,
      Prod.mk.injEq]
    by_cases same : j = k
    · simp [same, eq_comm]
    · simp only [same, false_and, false_or, if_false]
      constructor
      · rintro (⟨found, -⟩ | ⟨found, -⟩) <;> exact found
      · exact fun found => (lt_or_gt_of_ne same).imp (⟨found, ·⟩) (⟨found, ·⟩)
  exact Option.ext entry_iff

theorem find?_erase (m : OrderedMap κ α) (k j : κ) :
    (m.erase k).find? j = if j = k then none else m.find? j := by
  have entry_iff : ∀ w, (m.erase k).find? j = some w ↔
      (if j = k then none else m.find? j) = some w := by
    intro w
    rw [← mem_entries_iff, erase, List.mem_filter, mem_entries_iff]
    by_cases same : j = k <;> simp [same]
  exact Option.ext entry_iff

theorem find?_foldl_erase (m : OrderedMap κ α) (gone : List (κ × α)) (j : κ) :
    (gone.foldl (fun m entry => m.erase entry.1) m).find? j =
      if j ∈ gone.map Prod.fst then none else m.find? j := by
  induction gone generalizing m with
  | nil => simp
  | cons entry gone ih =>
      rw [List.foldl_cons, ih, find?_erase, List.map_cons]
      by_cases same : j = entry.1 <;> by_cases later : j ∈ gone.map Prod.fst <;>
        simp [same, later]

theorem values_nodup (m : OrderedMap κ α)
    (unique : ∀ j k v, m.find? j = some v → m.find? k = some v → j = k) : m.values.Nodup := by
  have entries : m.entries.Nodup :=
    m.sorted.imp fun less same => absurd (congrArg Prod.fst same) (ne_of_lt less)
  refine List.Nodup.map_on ?_ entries
  rintro ⟨j, v⟩ first ⟨k, w⟩ second same
  obtain rfl : v = w := same
  rw [unique j k v ((m.mem_entries_iff j v).mp first) ((m.mem_entries_iff k v).mp second)]

theorem head_least {entries : List (κ × α)} (sorted : entries.Pairwise fun a b => a.1 < b.1)
    {first : κ × α} (head : entries.head? = some first) :
    first ∈ entries ∧ ∀ entry ∈ entries, first.1 ≤ entry.1 := by
  cases entries with
  | nil => simp at head
  | cons entry entries =>
      obtain rfl := Option.some.inj head
      refine ⟨List.mem_cons_self, fun other member => ?_⟩
      rcases List.mem_cons.mp member with rfl | later
      · exact le_refl _
      · exact le_of_lt (List.rel_of_pairwise_cons sorted later)

theorem entries_head (m : OrderedMap κ α) {first : κ × α} (head : m.entries.head? = some first) :
    m.find? first.1 = some first.2 ∧ ∀ k v, m.find? k = some v → first.1 ≤ k := by
  obtain ⟨member, least⟩ := head_least m.sorted head
  exact ⟨(m.mem_entries_iff _ _).mp member, fun k v found =>
    least (k, v) ((m.mem_entries_iff k v).mpr found)⟩

theorem above_head (m : OrderedMap κ α) {k : κ} {next : κ × α}
    (head : (m.above k).head? = some next) : k < next.1 ∧ m.find? next.1 = some next.2 ∧
      ∀ j v, m.find? j = some v → k < j → next.1 ≤ j := by
  obtain ⟨member, least⟩ := head_least (m.sorted.filter _) head
  obtain ⟨inside, greater⟩ := List.mem_filter.mp member
  refine ⟨by simpa using greater, (m.mem_entries_iff _ _).mp inside, fun j v found above => ?_⟩
  exact least (j, v) (List.mem_filter.mpr ⟨(m.mem_entries_iff j v).mpr found, by simpa using above⟩)

theorem above_none (m : OrderedMap κ α) {k : κ} (head : (m.above k).head? = none) {j : κ} {v : α}
    (found : m.find? j = some v) : j ≤ k := by
  by_contra greater
  have empty := List.head?_eq_none_iff.mp head
  have member : (j, v) ∈ m.above k :=
    List.mem_filter.mpr ⟨(m.mem_entries_iff j v).mpr found, by simpa using not_le.mp greater⟩
  rw [empty] at member
  simp at member

def filter (m : OrderedMap κ α) (keep : κ × α → Bool) : OrderedMap κ α :=
  ⟨m.entries.filter keep, m.sorted.filter _⟩

def mapValues {β : Type} (m : OrderedMap κ α) (f : α → β) : OrderedMap κ β where
  entries := m.entries.map fun entry => (entry.1, f entry.2)
  sorted := List.pairwise_map.mpr m.sorted

theorem ext_entries {m m' : OrderedMap κ α} (same : m.entries = m'.entries) : m = m' := by
  obtain ⟨entries, _⟩ := m
  obtain ⟨entries', _⟩ := m'
  obtain rfl : entries = entries' := same
  rfl

theorem find?_mapValues {β : Type} (m : OrderedMap κ α) (f : α → β) (k : κ) :
    (m.mapValues f).find? k = (m.find? k).map f := by
  obtain ⟨entries, sorted⟩ := m
  simp only [find?, mapValues]
  induction entries with
  | nil => rfl
  | cons entry entries ih =>
      by_cases same : entry.1 = k
      · simp [same]
      · simpa [same] using ih (List.pairwise_cons.mp sorted).2

theorem mapValues_congr {β : Type} {m : OrderedMap κ α} {f g : α → β}
    (same : ∀ entry ∈ m.entries, f entry.2 = g entry.2) : m.mapValues f = m.mapValues g :=
  ext_entries (List.map_congr_left fun entry member => by rw [same entry member])

theorem mapValues_insert {β : Type} (m : OrderedMap κ α) (f : α → β) (k : κ) (v : α) :
    (m.insert k v).mapValues f = (m.mapValues f).insert k (f v) := by
  refine ext_entries ?_
  simp only [mapValues, insert, List.map_append, List.map_cons, List.filter_map]
  rfl

theorem insert_perm (m : OrderedMap κ α) {k : κ} (absent : m.find? k = none) (v : α) :
    (m.insert k v).entries.Perm ((k, v) :: m.entries) := by
  have others : m.entries.filter (fun entry => k < entry.1) =
      m.entries.filter fun entry => !decide (entry.1 < k) := by
    refine List.filter_congr fun entry member => ?_
    have apart : entry.1 ≠ k := by
      intro same
      have found := (m.mem_entries_iff entry.1 entry.2).mp member
      rw [same, absent] at found
      simp at found
    rcases lt_or_gt_of_ne apart with less | greater
    · simp [less, not_lt_of_gt less]
    · simp [greater, not_lt_of_gt greater]
  refine List.perm_middle.trans (List.Perm.cons _ ?_)
  rw [others]
  exact List.filter_append_perm _ _

theorem above_split (m : OrderedMap κ α) {before after : List (κ × α)} {k : κ} {v : α}
    (split : m.entries = before ++ (k, v) :: after) : m.above k = after := by
  have sorted := m.sorted
  rw [split, List.pairwise_append, List.pairwise_cons] at sorted
  obtain ⟨-, ⟨greater, -⟩, less⟩ := sorted
  rw [above, split, List.filter_append, List.filter_cons_of_neg (by simp),
    List.filter_eq_nil_iff.mpr, List.nil_append, List.filter_eq_self]
  · exact fun entry member => by simpa using greater entry member
  · exact fun entry member => by simpa using le_of_lt (less entry member (k, v) (by simp))

theorem above_erase (m : OrderedMap κ α) (k : κ) : (m.erase k).above k = m.above k := by
  change (m.entries.filter fun entry => entry.1 ≠ k).filter (fun entry => k < entry.1) =
    m.entries.filter fun entry => k < entry.1
  rw [List.filter_filter]
  refine List.filter_congr fun entry _ => ?_
  by_cases beyond : k < entry.1
  · simp [beyond, (ne_of_lt beyond).symm]
  · simp [beyond]

theorem erase_split (m : OrderedMap κ α) {before after : List (κ × α)} {k : κ} {v : α}
    (split : m.entries = before ++ (k, v) :: after) : (m.erase k).entries = before ++ after := by
  have sorted := m.sorted
  rw [split, List.pairwise_append, List.pairwise_cons] at sorted
  obtain ⟨-, ⟨greater, -⟩, less⟩ := sorted
  change m.entries.filter (fun entry => entry.1 ≠ k) = before ++ after
  rw [split, List.filter_append, List.filter_cons_of_neg (by simp)]
  congr 1
  · exact List.filter_eq_self.mpr fun entry member => by
      simpa using ne_of_lt (less entry member (k, v) (by simp))
  · exact List.filter_eq_self.mpr fun entry member => by
      simpa using (ne_of_lt (greater entry member)).symm

end OrderedMap

end Ssuge

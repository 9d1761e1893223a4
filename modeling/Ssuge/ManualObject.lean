import Mathlib.Data.List.Basic

/-! Meshes that are made vertex by vertex. Their calls are a parameter, which comes with what is
documented of them: a section is begun and ended, `position` starts a vertex in it, which has the
colour of the one before unless `colour` follows, and a finished section is made again by an
update. A call at another time throws. Meshes in which the last vertex waits until the next one
is started behave so. -/

namespace Ssuge.ManualObject

/-- Where a call gives `none` it has thrown. -/
structure Calls (M P C : Type) where
  constructed : M
  beginSection : M → Option M
  beginUpdate : M → Nat → Option M
  position : M → P → Option M
  colour : M → C → Option M
  endSection : M → Option M

def Calls.vertex {M P C : Type} (ogre : Calls M P C) (m : M) (p : P) (c : C) : Option M := do
  ogre.colour (← ogre.position m p) c

/-- What can be seen of a mesh. It is `other` if it has several sections, or none any more, or
vertices without colours. -/
inductive View (P K : Type)
  | fresh
  | begun (vertices : List (P × K)) (updating : Bool)
  | finished (vertices : List (P × K))
  | other

/-- The mesh keeps a colour as `pack` has it. Nothing is said about a section that is ended
without vertices before it ever had any. -/
structure Documented {M P C K : Type} (ogre : Calls M P C) (pack : C → K) (view : M → View P K) :
    Prop where
  constructed : view ogre.constructed = .fresh
  beginSection {m} : view m = .fresh →
    ∃ m', ogre.beginSection m = some m' ∧ view m' = .begun [] false
  beginUpdate {m vertices} : view m = .finished vertices →
    ∃ m', ogre.beginUpdate m 0 = some m' ∧ view m' = .begun [] true
  beginUpdate_begun {m vertices updating} (sectionIndex : Nat) :
    view m = .begun vertices updating → ogre.beginUpdate m sectionIndex = none
  vertex {m vertices updating} (p : P) (c : C) : view m = .begun vertices updating →
    ∃ m', ogre.vertex m p c = some m' ∧ view m' = .begun (vertices ++ [(p, pack c)]) updating
  position {m vertices v updating} (p : P) : view m = .begun (vertices ++ [v]) updating →
    ∃ m', ogre.position m p = some m' ∧ view m' = .begun (vertices ++ [v, (p, v.2)]) updating
  position_finished {m vertices} (p : P) : view m = .finished vertices → ogre.position m p = none
  endSection {m vertices updating} : view m = .begun vertices updating →
    vertices ≠ [] ∨ updating → ∃ m', ogre.endSection m = some m' ∧ view m' = .finished vertices
  endSection_finished {m vertices} : view m = .finished vertices → ogre.endSection m = none

section buffered

variable {P C K : Type}

/-- A mesh that behaves so. `mTempVertex` is the vertex that was started last, which is in no
section as long as it is pending. -/
structure Buffered (P C K : Type) where
  mSectionList : List (List (P × K))
  mCurrentSection : Option Nat
  mCurrentUpdating : Bool
  mTempVertex : P × C
  mTempVertexPending : Bool

namespace Buffered

def beginSection (m : Buffered P C K) : Option (Buffered P C K) :=
  if m.mCurrentSection.isSome then none
  else some { m with
    mSectionList := m.mSectionList ++ [[]]
    mCurrentSection := some m.mSectionList.length
    mCurrentUpdating := false }

def beginUpdate (m : Buffered P C K) (sectionIndex : Nat) : Option (Buffered P C K) :=
  if m.mCurrentSection.isSome ∨ m.mSectionList.length ≤ sectionIndex then none
  else some { m with
    mSectionList := m.mSectionList.set sectionIndex []
    mCurrentSection := some sectionIndex
    mCurrentUpdating := true }

variable (pack : C → K)

def pending (m : Buffered P C K) : List (P × K) :=
  if m.mTempVertexPending then [(m.mTempVertex.1, pack m.mTempVertex.2)] else []

def copyTempVertexToBuffer (m : Buffered P C K) (current : Nat) : Buffered P C K :=
  { m with
    mSectionList := m.mSectionList.modify current (· ++ m.pending pack)
    mTempVertexPending := false }

def position (m : Buffered P C K) (p : P) : Option (Buffered P C K) := do
  let current ← m.mCurrentSection
  return { m.copyTempVertexToBuffer pack current with
    mTempVertex := (p, m.mTempVertex.2)
    mTempVertexPending := true }

def colour (m : Buffered P C K) (c : C) : Option (Buffered P C K) :=
  if m.mCurrentSection.isSome then some { m with mTempVertex := (m.mTempVertex.1, c) } else none

/-- A section without vertices is removed again, unless it is updated. -/
def endSection (m : Buffered P C K) : Option (Buffered P C K) := do
  let current ← m.mCurrentSection
  let m := m.copyTempVertexToBuffer pack current
  let empty := (m.mSectionList[current]?.getD []).isEmpty
  return { m with
    mSectionList := if empty ∧ ¬ m.mCurrentUpdating then m.mSectionList.dropLast
      else m.mSectionList
    mCurrentSection := none }

def calls (unset : P × C) : Calls (Buffered P C K) P C where
  constructed := ⟨[], none, false, unset, false⟩
  beginSection := beginSection
  beginUpdate := beginUpdate
  position := position pack
  colour := colour
  endSection := endSection pack

def view (m : Buffered P C K) : View P K :=
  match m.mCurrentSection, m.mSectionList, m.mTempVertexPending with
  | none, [], false => .fresh
  | none, [vertices], false => .finished vertices
  | some 0, [[]], false => .begun [] m.mCurrentUpdating
  | some 0, [copied], true => .begun (copied ++ m.pending pack) m.mCurrentUpdating
  | _, _, _ => .other

variable {pack} {m : Buffered P C K} {vertices : List (P × K)} {updating : Bool}

theorem view_eq_fresh (fresh : m.view pack = .fresh) :
    m.mCurrentSection = none ∧ m.mSectionList = [] ∧ m.mTempVertexPending = false := by
  unfold view at fresh
  split at fresh <;> simp_all

theorem view_eq_finished (finished : m.view pack = .finished vertices) :
    m.mCurrentSection = none ∧ m.mSectionList = [vertices] ∧ m.mTempVertexPending = false := by
  unfold view at finished
  split at finished <;> simp_all

theorem view_eq_begun (begun : m.view pack = .begun vertices updating) :
    m.mCurrentSection = some 0 ∧ m.mCurrentUpdating = updating ∧
      ∃ copied, m.mSectionList = [copied] ∧ (m.mTempVertexPending = false → copied = []) ∧
        copied ++ m.pending pack = vertices := by
  unfold view at begun
  split at begun <;> simp_all [pending]

theorem copyTempVertexToBuffer_begun (begun : m.view pack = .begun vertices updating) :
    m.copyTempVertexToBuffer pack 0 = { m with
      mSectionList := [vertices], mTempVertexPending := false } := by
  obtain ⟨-, -, copied, sections, -, rfl⟩ := view_eq_begun begun
  rw [copyTempVertexToBuffer, sections]
  rfl

theorem position_begun (begun : m.view pack = .begun vertices updating) (p : P) :
    m.position pack p = some { m with
      mSectionList := [vertices]
      mTempVertex := (p, m.mTempVertex.2)
      mTempVertexPending := true } := by
  simp [position, (view_eq_begun begun).1, copyTempVertexToBuffer_begun begun]

theorem last_begun {v : P × K} (begun : m.view pack = .begun (vertices ++ [v]) updating) :
    v.2 = pack m.mTempVertex.2 := by
  obtain ⟨-, -, copied, -, empty, all⟩ := view_eq_begun begun
  cases pends : m.mTempVertexPending with
  | true =>
      rw [pending, if_pos pends] at all
      obtain ⟨-, same⟩ := List.append_inj' all rfl
      exact congrArg Prod.snd (List.singleton_inj.mp same).symm
  | false =>
      rw [empty pends, pending, pends] at all
      simp at all

theorem documented (unset : P × C) : Documented (calls pack unset) pack (view pack) where
  constructed := rfl
  beginSection {m} fresh := by
    obtain ⟨current, sections, copied⟩ := view_eq_fresh fresh
    refine ⟨_, if_neg (by simp [current]), ?_⟩
    simp [view, sections, copied]
  beginUpdate {m vertices} finished := by
    obtain ⟨current, sections, copied⟩ := view_eq_finished finished
    refine ⟨_, if_neg (by simp [current, sections]), ?_⟩
    simp [view, sections, copied]
  beginUpdate_begun {m vertices updating} i begun := by
    refine if_pos (.inl ?_)
    rw [(view_eq_begun begun).1]
    rfl
  vertex {m vertices updating} p c begun := by
    refine ⟨{ m with
      mSectionList := [vertices], mTempVertex := (p, c), mTempVertexPending := true }, ?_, ?_⟩
    · simp [Calls.vertex, calls, position_begun begun, colour, (view_eq_begun begun).1]
    · simp [view, view_eq_begun begun, pending]
  position {m vertices v updating} p begun := by
    refine ⟨_, position_begun begun p, ?_⟩
    simp [view, view_eq_begun begun, pending, last_begun begun]
  position_finished {m vertices} p finished := by
    simp [calls, position, view_eq_finished finished]
  endSection {m vertices updating} begun some_vertex := by
    have kept (empty : vertices = []) : m.mCurrentUpdating := by
      rw [(view_eq_begun begun).2.1]
      exact some_vertex.resolve_left (not_not.mpr empty)
    refine ⟨{ m with
      mSectionList := [vertices], mCurrentSection := none, mTempVertexPending := false }, ?_, rfl⟩
    simp only [calls, endSection, (view_eq_begun begun).1, copyTempVertexToBuffer_begun begun,
      Option.bind_eq_bind, Option.bind_some]
    simpa using kept
  endSection_finished {m vertices} finished := by
    simp [calls, endSection, view_eq_finished finished]

end Buffered

end buffered

end Ssuge.ManualObject

import Mathlib.Algebra.Ring.Int.Defs
import Mathlib.Data.List.Forall2
import Ssuge.GuardedRun

/-! The contact points of the debug drawer. They wait in one of two buffers, which change their
roles with every frame. A point that is drawn is a new element of the current buffer; what is
written to it goes to a copy. -/

namespace Ssuge.ContactPoints

open GuardedRun

/-- The vectors of Bullet and of Ogre; `cvt` keeps the coordinates. -/
structure Vector3 (F : Type) where
  x : F
  y : F
  z : F

structure ColourValue (F : Type) where
  r : F
  g : F
  b : F
  a : F

structure ContactPoint (F : Type) where
  from' : Vector3 F
  to' : Vector3 F
  color : ColourValue F
  dieTime : UInt32

/-- A line between two positions; the second one keeps the colour of the first. -/
structure Line (F : Type) where
  from' : Vector3 F
  to' : Vector3 F
  color : ColourValue F

inductive Buffer
  | mContactPoints1
  | mContactPoints2

def Buffer.other : Buffer → Buffer
  | mContactPoints1 => mContactPoints2
  | mContactPoints2 => mContactPoints1

/-- `mContactPoints` is the pointer to one of the buffers. -/
structure OgreDebugDrawer (F : Type) where
  mContactPoints1 : List (ContactPoint F)
  mContactPoints2 : List (ContactPoint F)
  mContactPoints : Buffer

variable {F : Type}

namespace OgreDebugDrawer

def constructed : OgreDebugDrawer F := ⟨[], [], .mContactPoints1⟩

def points (d : OgreDebugDrawer F) : Buffer → List (ContactPoint F)
  | .mContactPoints1 => d.mContactPoints1
  | .mContactPoints2 => d.mContactPoints2

def setPoints (d : OgreDebugDrawer F) (buffer : Buffer) (points : List (ContactPoint F)) :
    OgreDebugDrawer F :=
  match buffer with
  | .mContactPoints1 => { d with mContactPoints1 := points }
  | .mContactPoints2 => { d with mContactPoints2 := points }

@[simp] theorem points_setPoints (d : OgreDebugDrawer F) (buffer : Buffer)
    (points : List (ContactPoint F)) : (d.setPoints buffer points).points buffer = points := by
  cases buffer <;> rfl

@[simp] theorem points_setPoints_other (d : OgreDebugDrawer F) (buffer : Buffer)
    (points : List (ContactPoint F)) :
    (d.setPoints buffer points).points buffer.other = d.points buffer.other := by
  cases buffer <;> rfl

@[simp] theorem mContactPoints_setPoints (d : OgreDebugDrawer F) (buffer : Buffer)
    (points : List (ContactPoint F)) :
    (d.setPoints buffer points).mContactPoints = d.mContactPoints := by
  cases buffer <;> rfl

end OgreDebugDrawer

@[simp] theorem Buffer.other_other (buffer : Buffer) : buffer.other.other = buffer := by
  cases buffer <;> rfl

/-- The arguments of `drawContactPoint`, and what a new `Vector3` happens to hold. -/
structure Drawing (F : Type) where
  PointOnB : Vector3 F
  normalOnB : Vector3 F
  distance : F
  lifeTime : Int32
  color : Vector3 F
  left : Vector3 F × Vector3 F

section drawing

variable [Add F] [Mul F] [One F]

/-- A new element of the buffer: its colour is white. -/
def Drawing.unset (call : Drawing F) : ContactPoint F where
  from' := call.left.1
  to' := call.left.2
  color := ⟨1, 1, 1, 1⟩
  dieTime := 0

def Drawing.tip (call : Drawing F) : Vector3 F where
  x := call.PointOnB.x + call.normalOnB.x * call.distance
  y := call.PointOnB.y + call.normalOnB.y * call.distance
  z := call.PointOnB.z + call.normalOnB.z * call.distance

/-- The assignments to the contact point `p`. -/
def Drawing.fill (call : Drawing F) (time : UInt32) (p : ContactPoint F) : ContactPoint F :=
  { p with
    from' := call.PointOnB
    to' := call.tip
    dieTime := time + call.lifeTime.toUInt32
    color := { p.color with r := call.color.x, g := call.color.y, b := call.color.z } }

def OgreDebugDrawer.drawContactPoint (d : OgreDebugDrawer F) (call : Drawing F) (time : UInt32) :
    OgreDebugDrawer F :=
  let resized := d.points d.mContactPoints ++ [call.unset]
  -- `p` is a copy of the last element, and the filled copy is not stored
  let _p := resized.getLast?.map (call.fill time)
  d.setPoints d.mContactPoints resized

end drawing

def line (cp : ContactPoint F) : Line F := ⟨cp.from', cp.to', cp.color⟩

/-- The loop of `frameStarted`, with the lines drawn so far. -/
def frameLoop (now : UInt32) : List (ContactPoint F) → List (Line F) → List (ContactPoint F) →
    List (Line F) × List (ContactPoint F)
  | [], mLines, newCP => (mLines, newCP)
  | cp :: rest, mLines, newCP =>
      frameLoop now rest (mLines ++ [line cp])
        (if now ≤ cp.dieTime then newCP ++ [cp] else newCP)

def OgreDebugDrawer.frameStarted (d : OgreDebugDrawer F) (now : UInt32) :
    List (Line F) × OgreDebugDrawer F :=
  let newCP := d.mContactPoints.other
  let (mLines, kept) := frameLoop now (d.points d.mContactPoints) [] (d.points newCP)
  (mLines, { (d.setPoints newCP kept).setPoints d.mContactPoints [] with mContactPoints := newCP })

def unexpired (now : UInt32) (points : List (ContactPoint F)) : List (ContactPoint F) :=
  points.filter fun cp => now ≤ cp.dieTime

theorem frameLoop_eq (now : UInt32) (points : List (ContactPoint F)) (mLines : List (Line F))
    (newCP : List (ContactPoint F)) : frameLoop now points mLines newCP =
      (mLines ++ points.map line, newCP ++ unexpired now points) := by
  induction points generalizing mLines newCP with
  | nil => simp [frameLoop, unexpired]
  | cons cp rest ih =>
      rw [frameLoop, ih, unexpired, unexpired, List.filter_cons]
      by_cases alive : now ≤ cp.dieTime <;> simp [alive]

theorem unexpired_append (now : UInt32) (ps qs : List (ContactPoint F)) :
    unexpired now (ps ++ qs) = unexpired now ps ++ unexpired now qs := List.filter_append ..

theorem OgreDebugDrawer.frameStarted_fst (d : OgreDebugDrawer F) (now : UInt32) :
    (d.frameStarted now).1 = (d.points d.mContactPoints).map line := by
  rw [frameStarted, frameLoop_eq]
  simp

theorem OgreDebugDrawer.points_frameStarted (d : OgreDebugDrawer F) (now : UInt32) :
    (d.frameStarted now).2.points d.mContactPoints.other =
      d.points d.mContactPoints.other ++ unexpired now (d.points d.mContactPoints) := by
  rw [frameStarted, frameLoop_eq]
  cases d with
  | mk first second current => cases current <;> rfl

theorem OgreDebugDrawer.cleared_frameStarted (d : OgreDebugDrawer F) (now : UInt32) :
    (d.frameStarted now).2.points d.mContactPoints = [] := by
  rw [frameStarted, frameLoop_eq]
  cases d with
  | mk first second current => cases current <;> rfl

theorem OgreDebugDrawer.mContactPoints_frameStarted (d : OgreDebugDrawer F) (now : UInt32) :
    (d.frameStarted now).2.mContactPoints = d.mContactPoints.other := rfl

inductive Call (F : Type)
  | drawContactPoint (call : Drawing F)
  | frameStarted

/-- The drawer, the points that should be alive, and the time of the latest call. -/
structure Stage (F : Type) where
  drawer : OgreDebugDrawer F
  alive : List (ContactPoint F)
  latest : UInt32

def start (time : UInt32) : Stage F := ⟨.constructed, [], time⟩

/-- A frame at any time emits one line for each point that is alive, and keeps those that have
not expired. -/
def FramesRight (s : Stage F) : Prop :=
  ∀ now, s.latest ≤ now →
    (s.drawer.frameStarted now).1.Perm (s.alive.map line) ∧
      let kept := (s.drawer.frameStarted now).2
      (kept.points kept.mContactPoints).Perm (unexpired now s.alive)

/-- No frame from this time on tells the points apart. -/
structure Alike (time : UInt32) (p q : ContactPoint F) : Prop where
  lines : line p = line q
  times : p = q ∨ p.dieTime < time ∧ q.dieTime < time

/-- What the calls keep under the guard: the other buffer is empty, and the current one holds
what is alive, but for what cannot be told apart. -/
structure Follows (s : Stage F) : Prop where
  empty : s.drawer.points s.drawer.mContactPoints.other = []
  alike : List.Forall₂ (Alike s.latest) (s.drawer.points s.drawer.mContactPoints) s.alive

section alike

variable {time now : UInt32} {p q : ContactPoint F} {ps qs : List (ContactPoint F)}

theorem Alike.later {time' : UInt32} (le : time ≤ time')
    (alike : Alike time p q) : Alike time' p q := by
  refine ⟨alike.lines, alike.times.imp_right fun expired => ?_⟩
  exact ⟨UInt32.lt_of_lt_of_le expired.1 le, UInt32.lt_of_lt_of_le expired.2 le⟩

theorem Alike.unexpired_eq (le : time ≤ now)
    (alike : Alike time p q) : unexpired now [p] = unexpired now [q] := by
  rcases alike.times with rfl | ⟨expired, expired'⟩
  · rfl
  · have gone : ¬ now ≤ p.dieTime :=
      UInt32.not_le.mpr (UInt32.lt_of_lt_of_le expired le)
    have gone' : ¬ now ≤ q.dieTime :=
      UInt32.not_le.mpr (UInt32.lt_of_lt_of_le expired' le)
    simp [unexpired, gone, gone']

theorem lines_eq (alike : List.Forall₂ (Alike time) ps qs) : ps.map line = qs.map line := by
  induction alike with
  | nil => rfl
  | cons first _ ih => rw [List.map_cons, List.map_cons, first.lines, ih]

theorem unexpired_eq (le : time ≤ now) (alike : List.Forall₂ (Alike time) ps qs) :
    unexpired now ps = unexpired now qs := by
  induction alike with
  | nil => rfl
  | @cons p q ps qs first _ ih =>
      rw [← List.singleton_append, ← List.singleton_append (l := qs), unexpired_append,
        unexpired_append, first.unexpired_eq le, ih]

theorem alike_of_unexpired (lines : line p = line q)
    (kept : (unexpired time [p]).Perm (unexpired time [q])) : Alike time p q := by
  refine ⟨lines, ?_⟩
  by_cases alive : time ≤ q.dieTime
  · have one : unexpired time [q] = [q] := by simp [unexpired, alive]
    rw [one, List.perm_singleton] at kept
    by_cases alive' : time ≤ p.dieTime
    · exact .inl (by simpa [unexpired, alive'] using kept)
    · simp [unexpired, alive'] at kept
  · have none : unexpired time [q] = [] := by simp [unexpired, alive]
    rw [none, List.perm_nil] at kept
    refine .inr ⟨UInt32.not_le.mp fun alive' => ?_, UInt32.not_le.mp alive⟩
    simp [unexpired, alive'] at kept

end alike

section frames

variable {s : Stage F} {time : UInt32}

theorem Follows.kept (follows : Follows s) {now : UInt32} (le : s.latest ≤ now) :
    (s.drawer.frameStarted now).2.points s.drawer.mContactPoints.other =
      unexpired now s.alive := by
  rw [OgreDebugDrawer.points_frameStarted, follows.empty, List.nil_append,
    unexpired_eq le follows.alike]

theorem Follows.framesRight (follows : Follows s) : FramesRight s := by
  intro now le
  refine ⟨?_, ?_⟩
  · rw [OgreDebugDrawer.frameStarted_fst, lines_eq follows.alike]
  · simp only [OgreDebugDrawer.mContactPoints_frameStarted, follows.kept le]
    exact .refl _

theorem Follows.frame (follows : Follows s) (le : s.latest ≤ time) :
    Follows ⟨(s.drawer.frameStarted time).2, unexpired time s.alive, time⟩ := by
  refine ⟨?_, ?_⟩
  · simp only [OgreDebugDrawer.mContactPoints_frameStarted, Buffer.other_other]
    exact OgreDebugDrawer.cleared_frameStarted s.drawer time
  · simp only [OgreDebugDrawer.mContactPoints_frameStarted, follows.kept le]
    exact List.forall₂_same.mpr fun cp _ => ⟨rfl, .inl rfl⟩

end frames

section runs

variable [Add F] [Mul F] [One F]

/-- A call at a time. A point that is drawn is alive until the first frame after its `dieTime`.
There are no calls at earlier times. -/
def step (s : Stage F) (call : UInt32 × Call F) : Option (Stage F) :=
  if s.latest ≤ call.1 then
    match call.2 with
    | .drawContactPoint drawing => some
        ⟨s.drawer.drawContactPoint drawing call.1,
          s.alive ++ [drawing.fill call.1 drawing.unset], call.1⟩
    | .frameStarted => some
        ⟨(s.drawer.frameStarted call.1).2, unexpired call.1 s.alive, call.1⟩
  else none

/-- A new element of the buffer has to be like the point that is drawn. -/
def DrawGuard (s : Stage F) (call : UInt32 × Call F) : Prop :=
  match call.2 with
  | .drawContactPoint drawing => s.latest ≤ call.1 →
      Alike call.1 drawing.unset (drawing.fill call.1 drawing.unset)
  | .frameStarted => True

variable {s t : Stage F} {drawing : Drawing F} {time : UInt32}

theorem points_drawContactPoint (d : OgreDebugDrawer F) :
    (d.drawContactPoint drawing time).points d.mContactPoints =
      d.points d.mContactPoints ++ [drawing.unset] := by
  rw [OgreDebugDrawer.drawContactPoint, OgreDebugDrawer.points_setPoints]

theorem Follows.draw (follows : Follows s) (le : s.latest ≤ time)
    (alike : Alike time drawing.unset (drawing.fill time drawing.unset)) :
    Follows ⟨s.drawer.drawContactPoint drawing time,
      s.alive ++ [drawing.fill time drawing.unset], time⟩ := by
  have current : (s.drawer.drawContactPoint drawing time).mContactPoints =
      s.drawer.mContactPoints := OgreDebugDrawer.mContactPoints_setPoints ..
  refine ⟨?_, ?_⟩
  · simp only [current]
    rw [OgreDebugDrawer.drawContactPoint, OgreDebugDrawer.points_setPoints_other, follows.empty]
  · simp only [current, points_drawContactPoint]
    exact List.rel_append (follows.alike.imp fun _ _ => Alike.later le)
      (.cons alike .nil)

/-- A frame right after a drawing tells whether the new element is like the point. -/
theorem Follows.alike_of_framesRight (follows : Follows s) (le : s.latest ≤ time)
    (right : FramesRight ⟨s.drawer.drawContactPoint drawing time,
      s.alive ++ [drawing.fill time drawing.unset], time⟩) :
    Alike time drawing.unset (drawing.fill time drawing.unset) := by
  have current : (s.drawer.drawContactPoint drawing time).mContactPoints =
      s.drawer.mContactPoints := OgreDebugDrawer.mContactPoints_setPoints ..
  have others : (s.drawer.drawContactPoint drawing time).points s.drawer.mContactPoints.other =
      [] := by
    rw [OgreDebugDrawer.drawContactPoint, OgreDebugDrawer.points_setPoints_other, follows.empty]
  obtain ⟨lines, kept⟩ := right time (UInt32.le_refl time)
  simp only [OgreDebugDrawer.frameStarted_fst, current, points_drawContactPoint, List.map_append,
    lines_eq follows.alike, List.perm_append_left_iff, List.map_cons, List.map_nil,
    List.singleton_perm_singleton] at lines
  simp only [OgreDebugDrawer.mContactPoints_frameStarted] at kept
  rw [OgreDebugDrawer.points_frameStarted, current, others, List.nil_append,
    points_drawContactPoint, unexpired_append, unexpired_append, unexpired_eq le follows.alike,
    List.perm_append_left_iff] at kept
  exact alike_of_unexpired lines kept

theorem framesRight_iff_guard (follows : Follows s) (call : UInt32 × Call F) :
    (∀ t, step s call = some t → FramesRight t) ↔ DrawGuard s call := by
  obtain ⟨time, call⟩ := call
  by_cases le : s.latest ≤ time
  · cases call with
    | drawContactPoint drawing =>
        simp only [step, DrawGuard, le, if_true, Option.some.injEq, forall_eq', true_imp_iff]
        exact ⟨fun right => follows.alike_of_framesRight le right,
          fun alike => (follows.draw le alike).framesRight⟩
    | frameStarted =>
        simp only [step, DrawGuard, le, if_true, Option.some.injEq, forall_eq', iff_true]
        exact (follows.frame le).framesRight
  · cases call with
    | drawContactPoint drawing => simp [step, DrawGuard, le]
    | frameStarted => simp [step, DrawGuard, le]

theorem Follows.step {call : UInt32 × Call F} (follows : Follows s) (guard : DrawGuard s call)
    (ran : step s call = some t) : Follows t := by
  obtain ⟨time, call⟩ := call
  by_cases le : s.latest ≤ time
  · cases call with
    | drawContactPoint drawing =>
        obtain rfl : _ = t := by simpa [ContactPoints.step, le] using ran
        exact follows.draw le (guard le)
    | frameStarted =>
        obtain rfl : _ = t := by simpa [ContactPoints.step, le] using ran
        exact follows.frame le
  · simp [ContactPoints.step, le] at ran

/-- The contact points live until they expire exactly when each that is drawn is like the unset
element that stands for it. -/
theorem framesRight_iff (time : UInt32) (calls : List (UInt32 × Call F)) :
    Throughout step FramesRight (start time) calls ↔ Along step DrawGuard (start time) calls := by
  have follows : Follows (start time : Stage F) := ⟨rfl, .nil⟩
  exact throughout_iff (I := Follows) (L := fun _ => True)
    (fun s call follows _ _ => framesRight_iff_guard follows call)
    (fun s call t follows _ _ guard ran => follows.step guard ran)
    follows follows.framesRight fun _ _ => trivial

end runs

/-- One point is drawn for ten milliseconds, and the next frame shows another line. -/
theorem not_framesRight : ¬ Throughout step FramesRight (start 0)
    [(5, .drawContactPoint
      ⟨⟨1, 2, 3⟩, ⟨0, 1, 0⟩, (1 : Int), 10, ⟨1, 0, 0⟩, ⟨0, 0, 0⟩, ⟨0, 0, 0⟩⟩)] := by
  intro right
  obtain ⟨lines, -⟩ := right _ (List.prefix_refl _) _ rfl 5 (by decide)
  have same := List.singleton_perm_singleton.mp lines
  exact absurd (congrArg (fun drawn => drawn.from'.x) same) (by decide)

end Ssuge.ContactPoints

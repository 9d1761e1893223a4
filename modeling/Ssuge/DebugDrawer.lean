import Mathlib.Data.List.DropRight
import Ssuge.ContactPoints
import Ssuge.Histories
import Ssuge.ManualObject

/-! The meshes of the debug drawer. The lines and the triangles of a frame are collected in two
manual objects, which are finished when Ogre starts a frame and begun again when it has ended
it. In between there is no section to draw into, and drawing throws. Ogre's own code is the
parameter `ogre`. -/

namespace Ssuge.DebugDrawer

open ContactPoints (Vector3 ColourValue ContactPoint Drawing Buffer unexpired)
open GuardedRun Histories
open ManualObject (Calls View Documented)

variable {F M : Type}

abbrev Vertices (F : Type) := List (Vector3 F × ColourValue F)

structure OgreDebugDrawer (F M : Type) where
  mLines : M
  mTriangles : M
  contacts : ContactPoints.OgreDebugDrawer F

/-- The calls of Bullet, and those of Ogre as a frame listener. -/
inductive Event (F : Type)
  | drawLine (source target color : Vector3 F)
  | drawTriangle (v0 v1 v2 color : Vector3 F) (alpha : F)
  | drawContactPoint (drawing : Drawing F) (time : UInt32)
  | frameStarted (now : UInt32)
  | frameEnded

section meshes

variable (ogre : Calls M (Vector3 F) (ColourValue F))

def addVertices (m : M) : Vertices F → Option M
  | [] => some m
  | (p, c) :: vertices => do addVertices (← ogre.vertex m p c) vertices

/-- The loop of `frameStarted` over the contact points. The end of a line has no colour set. -/
def contactLines (m : M) : List (ContactPoint F) → Option M
  | [] => some m
  | cp :: points => do
      let m ← ogre.vertex m cp.from' cp.color
      contactLines (← ogre.position m cp.to') points

end meshes

section colours

variable [Zero F] [One F] [LT F] [DecidableLT F]

def saturated (x : F) : F := if x < 0 then 0 else if 1 < x then 1 else x

def saturate (c : ColourValue F) : ColourValue F :=
  ⟨saturated c.r, saturated c.g, saturated c.b, saturated c.a⟩

def origin : Vector3 F × ColourValue F := (⟨0, 0, 0⟩, ⟨0, 0, 1, 1⟩)

/-- The material and the scene node are left out. -/
def constructed (ogre : Calls M (Vector3 F) (ColourValue F)) : Option (OgreDebugDrawer F M) := do
  let mLines ← ogre.beginSection ogre.constructed
  let mTriangles ← ogre.beginSection ogre.constructed
  return {
    mLines := ← addVertices ogre mLines [origin, origin]
    mTriangles := ← addVertices ogre mTriangles [origin, origin, origin]
    contacts := .constructed }

def lineVertices (source target color : Vector3 F) : Vertices F :=
  let c := saturate ⟨color.x, color.y, color.z, 1⟩
  [(source, c), (target, c)]

def triangleVertices (v0 v1 v2 color : Vector3 F) (alpha : F) : Vertices F :=
  let c := saturate ⟨color.x, color.y, color.z, alpha⟩
  [(v0, c), (v1, c), (v2, c)]

section calls

variable (ogre : Calls M (Vector3 F) (ColourValue F))

namespace OgreDebugDrawer

def drawLine (d : OgreDebugDrawer F M) (source target color : Vector3 F) :
    Option (OgreDebugDrawer F M) := do
  return { d with mLines := ← addVertices ogre d.mLines (lineVertices source target color) }

def drawTriangle (d : OgreDebugDrawer F M) (v0 v1 v2 color : Vector3 F) (alpha : F) :
    Option (OgreDebugDrawer F M) := do
  return { d with
    mTriangles := ← addVertices ogre d.mTriangles (triangleVertices v0 v1 v2 color alpha) }

def frameStarted (d : OgreDebugDrawer F M) (now : UInt32) : Option (OgreDebugDrawer F M) := do
  let mLines ← contactLines ogre d.mLines (d.contacts.points d.contacts.mContactPoints)
  return {
    mLines := ← ogre.endSection mLines
    mTriangles := ← ogre.endSection d.mTriangles
    contacts := (d.contacts.frameStarted now).2 }

def frameEnded (d : OgreDebugDrawer F M) : Option (OgreDebugDrawer F M) := do
  return { d with
    mLines := ← ogre.beginUpdate d.mLines 0
    mTriangles := ← ogre.beginUpdate d.mTriangles 0 }

end OgreDebugDrawer

variable [Add F] [Mul F]

def step (d : OgreDebugDrawer F M) : Event F → Option (OgreDebugDrawer F M)
  | .drawLine source target color => d.drawLine ogre source target color
  | .drawTriangle v0 v1 v2 color alpha => d.drawTriangle ogre v0 v1 v2 color alpha
  | .drawContactPoint drawing time =>
      some { d with contacts := d.contacts.drawContactPoint drawing time }
  | .frameStarted now => d.frameStarted ogre now
  | .frameEnded => d.frameEnded ogre

def run (events : List (Event F)) : Option (OgreDebugDrawer F M) := do
  runSteps (step ogre) (← constructed ogre) events

end calls

end colours

/-- Ogre is drawing a frame. -/
def Rendering : List (Event F) → Prop :=
  Since (fun _ event => ∃ now, event = .frameStarted now) (· = .frameEnded)

def Allowed (before : List (Event F)) : Event F → Prop
  | .drawLine _ _ _ | .drawTriangle _ _ _ _ _ | .frameStarted _ => ¬ Rendering before
  | .drawContactPoint _ _ => True
  | .frameEnded => Rendering before

def Event.isFrameEnded : Event F → Bool
  | .frameEnded => true
  | _ => false

def sinceFrame (events : List (Event F)) : List (Event F) :=
  events.rtakeWhile fun event => !event.isFrameEnded

section shown

variable [Zero F] [One F] [LT F] [DecidableLT F]

/-- Before the first frame the constructor has drawn a line and a triangle at the origin. -/
def first (events : List (Event F)) (n : Nat) : Vertices F :=
  if events.any Event.isFrameEnded then [] else List.replicate n origin

def lines : Event F → Vertices F
  | .drawLine source target color => lineVertices source target color
  | _ => []

def triangles : Event F → Vertices F
  | .drawTriangle v0 v1 v2 color alpha => triangleVertices v0 v1 v2 color alpha
  | _ => []

end shown

def wait [One F] (points : List (ContactPoint F)) : Event F → List (ContactPoint F)
  | .drawContactPoint drawing _ => points ++ [drawing.unset]
  | .frameStarted now => unexpired now points
  | _ => points

def waiting [One F] (events : List (Event F)) : List (ContactPoint F) := events.foldl wait []

def contactVertices (cp : ContactPoint F) : Vertices F := [(cp.from', cp.color), (cp.to', cp.color)]

def packed {K : Type} (pack : ColourValue F → K) (vertices : Vertices F) : List (Vector3 F × K) :=
  vertices.map fun v => (v.1, pack v.2)

section meshes

variable {K : Type} {ogre : Calls M (Vector3 F) (ColourValue F)} {pack : ColourValue F → K}
  {view : M → View (Vector3 F) K} {m : M} {vertices : Vertices F} {updating : Bool}

theorem packed_append (more : Vertices F) :
    packed pack (vertices ++ more) = packed pack vertices ++ packed pack more := List.map_append

theorem begun_addVertices (documented : Documented ogre pack view)
    (begun : view m = .begun (packed pack vertices) updating) (more : Vertices F) :
    ∃ m', addVertices ogre m more = some m' ∧
      view m' = .begun (packed pack (vertices ++ more)) updating := by
  induction more generalizing m vertices with
  | nil => exact ⟨m, rfl, by rwa [List.append_nil]⟩
  | cons v more ih =>
      obtain ⟨m₁, added, begun₁⟩ := documented.vertex v.1 v.2 begun
      have longer : view m₁ = .begun (packed pack (vertices ++ [v])) updating := by
        rw [begun₁, packed_append]
        rfl
      obtain ⟨m₂, rest, begun₂⟩ := ih longer
      refine ⟨m₂, ?_, by simpa using begun₂⟩
      rw [addVertices, added]
      exact rest

theorem begun_contactLines (documented : Documented ogre pack view)
    (begun : view m = .begun (packed pack vertices) updating) (points : List (ContactPoint F)) :
    ∃ m', contactLines ogre m points = some m' ∧
      view m' = .begun (packed pack (vertices ++ points.flatMap contactVertices)) updating := by
  induction points generalizing m vertices with
  | nil => exact ⟨m, rfl, by simpa using begun⟩
  | cons cp points ih =>
      obtain ⟨m₁, started, begun₁⟩ := documented.vertex cp.from' cp.color begun
      obtain ⟨m₂, ended, begun₂⟩ := documented.position cp.to' begun₁
      have longer : view m₂ = .begun (packed pack (vertices ++ contactVertices cp)) updating := by
        rw [begun₂, packed_append]
        rfl
      obtain ⟨m₃, rest, begun₃⟩ := ih longer
      refine ⟨m₃, ?_, by simpa using begun₃⟩
      rw [contactLines, started]
      simp only [Option.bind_eq_bind, Option.bind_some, ended]
      exact rest

theorem not_vertex_finished (documented : Documented ogre pack view) {shown : List (Vector3 F × K)}
    (finished : view m = .finished shown) (p : Vector3 F) (c : ColourValue F) :
    ogre.vertex m p c = none := by
  rw [Calls.vertex, documented.position_finished p finished]
  rfl

theorem not_addVertices_finished (documented : Documented ogre pack view)
    {shown : List (Vector3 F × K)} (finished : view m = .finished shown)
    {v : Vector3 F × ColourValue F} {more : Vertices F} :
    addVertices ogre m (v :: more) = none := by
  rw [addVertices, not_vertex_finished documented finished]
  rfl

/-- Without contact points the loop does nothing, and then there is nothing to finish. -/
theorem not_ended_finished (documented : Documented ogre pack view) {shown : List (Vector3 F × K)}
    (finished : view m = .finished shown) (points : List (ContactPoint F)) :
    (contactLines ogre m points).bind ogre.endSection = none := by
  cases points with
  | nil => exact documented.endSection_finished finished
  | cons cp points =>
      rw [contactLines, not_vertex_finished documented finished]
      rfl

end meshes

section histories

variable {before : List (Event F)} {event : Event F}

theorem rendering_snoc : Rendering (before ++ [event]) ↔
    (∃ now, event = .frameStarted now) ∨ Rendering before ∧ event ≠ .frameEnded := since_snoc

theorem not_rendering_snoc (idle : ¬ Rendering before) (draw : ∀ now, event ≠ .frameStarted now) :
    ¬ Rendering (before ++ [event]) := by
  rw [rendering_snoc]
  rintro (⟨now, started⟩ | ⟨rendering, -⟩)
  · exact draw now started
  · exact idle rendering

theorem sinceFrame_snoc (goes : ¬ event.isFrameEnded) :
    sinceFrame (before ++ [event]) = sinceFrame before ++ [event] :=
  List.rtakeWhile_concat_pos _ _ _ (by simpa using goes)

theorem sinceFrame_ended : sinceFrame (before ++ [.frameEnded]) = ([] : List (Event F)) :=
  List.rtakeWhile_concat_neg _ _ _ (by simp [Event.isFrameEnded])

theorem any_snoc (goes : ¬ event.isFrameEnded) :
    (before ++ [event]).any Event.isFrameEnded = before.any Event.isFrameEnded := by
  simp [goes]

theorem waiting_snoc [One F] : waiting (before ++ [event]) = wait (waiting before) event := by
  rw [waiting, List.foldl_append]
  rfl

end histories

section told

variable [Zero F] [One F] [LT F] [DecidableLT F] {K : Type}

section shown

variable (pack : ColourValue F → K) (view : M → View (Vector3 F) K) (before : List (Event F))
  (d : OgreDebugDrawer F M)

/-- The meshes between two frames. Only after the first frame they are updated. -/
structure Begun : Prop where
  lines : view d.mLines = .begun
    (packed pack (first before 2 ++ (sinceFrame before).flatMap lines))
    (before.any Event.isFrameEnded)
  triangles : view d.mTriangles = .begun
    (packed pack (first before 3 ++ (sinceFrame before).flatMap triangles))
    (before.any Event.isFrameEnded)

structure ShownAt : Prop where
  lines : view d.mLines = .finished (packed pack
    (first before 2 ++ (sinceFrame before).flatMap lines ++
      (waiting before).flatMap contactVertices))
  triangles : view d.mTriangles = .finished (packed pack
    (first before 3 ++ (sinceFrame before).flatMap triangles))

structure Told : Prop where
  waiting : d.contacts.points d.contacts.mContactPoints = waiting before
  empty : d.contacts.points d.contacts.mContactPoints.other = []
  begun : ¬ Rendering before → Begun pack view before d
  shown : Rendering before → (∃ vertices, view d.mLines = .finished vertices) ∧
    ∃ vertices, view d.mTriangles = .finished vertices

end shown

variable {ogre : Calls M (Vector3 F) (ColourValue F)} {pack : ColourValue F → K}
  {view : M → View (Vector3 F) K} {before : List (Event F)} {d : OgreDebugDrawer F M}

theorem told_constructed (documented : Documented ogre pack view) :
    ∃ d, constructed ogre = some d ∧ Told pack view [] d := by
  obtain ⟨m, started, begun⟩ := documented.beginSection documented.constructed
  have empty : view m = .begun (packed pack []) false := begun
  obtain ⟨mLines, two, lines⟩ := begun_addVertices documented empty [origin, origin]
  obtain ⟨mTriangles, three, triangles⟩ :=
    begun_addVertices documented empty [origin, origin, origin]
  refine ⟨⟨mLines, mTriangles, .constructed⟩, ?_, rfl, rfl, fun _ => ⟨lines, triangles⟩,
    fun rendering => absurd rendering since_nil⟩
  simp [constructed, started, two, three]

theorem Told.draws (told : Told pack view before d) (idle : ¬ Rendering before) (event : Event F)
    {mLines mTriangles : M} (draw : ∀ now, event ≠ .frameStarted now)
    (goes : ¬ event.isFrameEnded)
    (waits : wait (DebugDrawer.waiting before) event = DebugDrawer.waiting before)
    (linesMade : view mLines = .begun
      (packed pack (first before 2 ++ (sinceFrame before).flatMap lines ++ lines event))
      (before.any Event.isFrameEnded))
    (trianglesMade : view mTriangles = .begun
      (packed pack (first before 3 ++ (sinceFrame before).flatMap triangles ++ triangles event))
      (before.any Event.isFrameEnded)) :
    Told pack view (before ++ [event]) ⟨mLines, mTriangles, d.contacts⟩ where
  waiting := by rw [waiting_snoc, waits, told.waiting]
  empty := told.empty
  begun _ := by
    refine ⟨?_, ?_⟩
    · simpa [first, sinceFrame_snoc goes, any_snoc goes] using linesMade
    · simpa [first, sinceFrame_snoc goes, any_snoc goes] using trianglesMade
  shown rendering := absurd rendering (not_rendering_snoc idle draw)

omit [LT F] [DecidableLT F] in
theorem can_end (pack : ColourValue F → K) (before : List (Event F)) (n : Nat)
    (rest : Vertices F) :
    packed pack (first before (n + 1) ++ rest) ≠ [] ∨ before.any Event.isFrameEnded := by
  by_cases ended : before.any Event.isFrameEnded
  · exact .inr ended
  · refine .inl ?_
    rw [first, if_neg ended, List.replicate_succ]
    exact List.cons_ne_nil _ _

theorem Told.frameStarted (documented : Documented ogre pack view) (told : Told pack view before d)
    (idle : ¬ Rendering before) (now : UInt32) :
    ∃ d', d.frameStarted ogre now = some d' ∧ ShownAt pack view before d' ∧
      Told pack view (before ++ [.frameStarted now]) d' := by
  have begun := told.begun idle
  obtain ⟨drawn, looped, begun₁⟩ := begun_contactLines documented begun.lines
    (d.contacts.points d.contacts.mContactPoints)
  rw [told.waiting] at begun₁
  obtain ⟨mLines, ended, lines⟩ := documented.endSection begun₁
    (by rw [List.append_assoc]; exact can_end pack before 1 _)
  obtain ⟨mTriangles, ended', triangles⟩ :=
    documented.endSection begun.triangles (can_end pack before 2 _)
  refine ⟨⟨mLines, mTriangles, (d.contacts.frameStarted now).2⟩, ?_, ⟨lines, triangles⟩, ?_, ?_,
    ?_, ?_⟩
  · simp [OgreDebugDrawer.frameStarted, looped, ended, ended']
  · simp only [ContactPoints.OgreDebugDrawer.mContactPoints_frameStarted]
    rw [ContactPoints.OgreDebugDrawer.points_frameStarted, told.empty, told.waiting, waiting_snoc]
    rfl
  · simp only [ContactPoints.OgreDebugDrawer.mContactPoints_frameStarted,
      ContactPoints.Buffer.other_other]
    exact ContactPoints.OgreDebugDrawer.cleared_frameStarted ..
  · exact fun idle => absurd (rendering_snoc.mpr (.inl ⟨now, rfl⟩)) idle
  · exact fun _ => ⟨⟨_, lines⟩, _, triangles⟩

theorem Told.frameEnded (documented : Documented ogre pack view) (told : Told pack view before d)
    (rendering : Rendering before) :
    ∃ d', d.frameEnded ogre = some d' ∧ Told pack view (before ++ [.frameEnded]) d' := by
  obtain ⟨⟨vertices, lines⟩, vertices', triangles⟩ := told.shown rendering
  obtain ⟨mLines, updated, begun⟩ := documented.beginUpdate lines
  obtain ⟨mTriangles, updated', begun'⟩ := documented.beginUpdate triangles
  have ended : (before ++ [Event.frameEnded]).any Event.isFrameEnded := by
    simp [Event.isFrameEnded]
  refine ⟨⟨mLines, mTriangles, d.contacts⟩, ?_, ?_, told.empty, fun _ => ⟨?_, ?_⟩, ?_⟩
  · simp [OgreDebugDrawer.frameEnded, updated, updated']
  · rw [waiting_snoc]
    exact told.waiting
  · rw [first, if_pos ended, sinceFrame_ended, ended]
    exact begun
  · rw [first, if_pos ended, sinceFrame_ended, ended]
    exact begun'
  · intro rendering
    rcases rendering_snoc.mp rendering with ⟨now, started⟩ | ⟨-, apart⟩
    · cases started
    · exact absurd rfl apart

theorem Told.not_frameStarted (documented : Documented ogre pack view)
    (told : Told pack view before d) (rendering : Rendering before) (now : UInt32) :
    d.frameStarted ogre now = none := by
  obtain ⟨⟨vertices, lines⟩, -⟩ := told.shown rendering
  have stuck := not_ended_finished documented lines
    (d.contacts.points d.contacts.mContactPoints)
  cases drawn : contactLines ogre d.mLines (d.contacts.points d.contacts.mContactPoints) with
  | none => simp [OgreDebugDrawer.frameStarted, drawn]
  | some mLines =>
      rw [drawn, Option.bind_some] at stuck
      simp [OgreDebugDrawer.frameStarted, drawn, stuck]

theorem Told.not_frameEnded (documented : Documented ogre pack view)
    (told : Told pack view before d) (idle : ¬ Rendering before) : d.frameEnded ogre = none := by
  simp [OgreDebugDrawer.frameEnded, documented.beginUpdate_begun 0 (told.begun idle).lines]

section runs

variable [Add F] [Mul F]

theorem Told.drawContactPoint (told : Told pack view before d) (drawing : Drawing F)
    (time : UInt32) : Told pack view (before ++ [.drawContactPoint drawing time])
      { d with contacts := d.contacts.drawContactPoint drawing time } := by
  have buffer : (d.contacts.drawContactPoint drawing time).mContactPoints =
      d.contacts.mContactPoints := ContactPoints.OgreDebugDrawer.mContactPoints_setPoints ..
  have rendering : Rendering (before ++ [.drawContactPoint drawing time]) ↔ Rendering before := by
    rw [rendering_snoc]
    simp
  refine ⟨?_, ?_, fun idle => ⟨?_, ?_⟩, fun renders => told.shown (rendering.mp renders)⟩
  · simp only [buffer]
    rw [ContactPoints.points_drawContactPoint, told.waiting, waiting_snoc]
    rfl
  · simp only [buffer]
    rw [ContactPoints.OgreDebugDrawer.drawContactPoint,
      ContactPoints.OgreDebugDrawer.points_setPoints_other, told.empty]
  all_goals
    have begun := told.begun (rendering.not.mp idle)
  · simpa [first, sinceFrame_snoc, any_snoc, Event.isFrameEnded, lines] using begun.lines
  · simpa [first, sinceFrame_snoc, any_snoc, Event.isFrameEnded, triangles] using begun.triangles

theorem Told.step (documented : Documented ogre pack view) (told : Told pack view before d)
    (event : Event F) : (step ogre d event).elim (¬ Allowed before event)
      fun d' => Allowed before event ∧ Told pack view (before ++ [event]) d' := by
  cases event with
  | drawLine source target color =>
      by_cases rendering : Rendering before
      · obtain ⟨⟨vertices, finished⟩, -⟩ := told.shown rendering
        simp [DebugDrawer.step, OgreDebugDrawer.drawLine, lineVertices, Allowed, rendering,
          not_addVertices_finished documented finished]
      · have begun := told.begun rendering
        obtain ⟨mLines, added, made⟩ :=
          begun_addVertices documented begun.lines (lineVertices source target color)
        have next := told.draws rendering (.drawLine source target color) (by simp)
          (by simp [Event.isFrameEnded]) rfl made (by simpa [triangles] using begun.triangles)
        simpa [DebugDrawer.step, OgreDebugDrawer.drawLine, added, Allowed, rendering] using next
  | drawTriangle v0 v1 v2 color alpha =>
      by_cases rendering : Rendering before
      · obtain ⟨-, vertices, finished⟩ := told.shown rendering
        simp [DebugDrawer.step, OgreDebugDrawer.drawTriangle, triangleVertices, Allowed, rendering,
          not_addVertices_finished documented finished]
      · have begun := told.begun rendering
        obtain ⟨mTriangles, added, made⟩ :=
          begun_addVertices documented begun.triangles (triangleVertices v0 v1 v2 color alpha)
        have next := told.draws rendering (.drawTriangle v0 v1 v2 color alpha) (by simp)
          (by simp [Event.isFrameEnded]) rfl (by simpa [lines] using begun.lines) made
        simpa [DebugDrawer.step, OgreDebugDrawer.drawTriangle, added, Allowed, rendering] using next
  | drawContactPoint drawing time => exact ⟨trivial, told.drawContactPoint drawing time⟩
  | frameStarted now =>
      by_cases rendering : Rendering before
      · rw [DebugDrawer.step, told.not_frameStarted documented rendering]
        exact not_not.mpr rendering
      · obtain ⟨d', started, -, next⟩ := told.frameStarted documented rendering now
        rw [DebugDrawer.step, started]
        exact ⟨rendering, next⟩
  | frameEnded =>
      by_cases rendering : Rendering before
      · obtain ⟨d', ended, next⟩ := told.frameEnded documented rendering
        rw [DebugDrawer.step, ended]
        exact ⟨rendering, next⟩
      · rw [DebugDrawer.step, told.not_frameEnded documented rendering]
        exact rendering

theorem Told.isSome_iff (documented : Documented ogre pack view) (told : Told pack view before d)
    (event : Event F) : (DebugDrawer.step ogre d event).isSome ↔ Allowed before event := by
  have stepped := told.step documented event
  cases next : DebugDrawer.step ogre d event with
  | none =>
      rw [next] at stepped
      exact iff_of_false Bool.false_ne_true stepped
  | some d' =>
      rw [next] at stepped
      exact iff_of_true rfl stepped.1

theorem Told.next {d' : OgreDebugDrawer F M} {event : Event F}
    (documented : Documented ogre pack view) (told : Told pack view before d)
    (stepped : DebugDrawer.step ogre d event = some d') :
    Told pack view (before ++ [event]) d' := by
  have next := told.step documented event
  rw [stepped] at next
  exact next.2

/-- No call of the drawer throws exactly if frames start and end in turn, beginning with a start,
and no line or triangle is drawn while Ogre is drawing a frame. -/
theorem run_returns_iff (documented : Documented ogre pack view) (events : List (Event F)) :
    (run ogre events).isSome ↔
      ∀ before event, before ++ [event] <+: events → Allowed before event := by
  obtain ⟨d, made, told⟩ := told_constructed documented
  rw [run, made]
  exact runs_through_iff (I := Told pack view) told
    (fun _ _ event told => told.isSome_iff documented event)
    fun _ _ _ _ told stepped => told.next documented stepped

/-- In each frame Ogre has the lines and the triangles that were drawn since the last one, and
the contact points that wait. -/
theorem frame_shows (documented : Documented ogre pack view) {events : List (Event F)}
    {now : UInt32} {d : OgreDebugDrawer F M}
    (ran : run ogre (events ++ [.frameStarted now]) = some d) : ShownAt pack view events d := by
  obtain ⟨d₀, made, told₀⟩ := told_constructed documented
  rw [run, made, Option.bind_eq_bind, Option.bind_some, runSteps_snoc] at ran
  obtain ⟨d₁, reached, started⟩ := Option.bind_eq_some_iff.mp ran
  have told : Told pack view events d₁ := Histories.told (I := Told pack view) told₀
    (fun _ _ _ _ told stepped => told.next documented stepped) reached
  have idle : ¬ Rendering events :=
    (told.isSome_iff documented (.frameStarted now)).mp (by rw [started]; rfl)
  obtain ⟨d', started', shown, -⟩ := told.frameStarted documented idle now
  obtain rfl := Option.some.inj (started.symm.trans started')
  exact shown

end runs

end told

section witnesses

open ManualObject (Buffered)

def bytes (c : ColourValue Int) : ColourValue Int := ⟨255 * c.r, 255 * c.g, 255 * c.b, 255 * c.a⟩

abbrev drawing : List (Event Int) :=
  [.frameStarted 10, .frameEnded, .drawLine ⟨0, 1, 2⟩ ⟨3, 4, 5⟩ ⟨7, 0, 1⟩]

theorem documented_bytes : Documented (Buffered.calls bytes origin) bytes (Buffered.view bytes) :=
  Buffered.documented origin

/-- A line may be drawn between two frames. -/
theorem run_returns_drawing : (run (Buffered.calls bytes origin) drawing).isSome ∧
    ∀ before event, before ++ [event] <+: drawing → Allowed before event :=
  ⟨rfl, (run_returns_iff documented_bytes drawing).mp rfl⟩

/-- It is shown in the second. -/
theorem frame_shows_line : ShownAt bytes (Buffered.view bytes) drawing
    ⟨⟨[[(⟨0, 1, 2⟩, ⟨255, 0, 255, 255⟩), (⟨3, 4, 5⟩, ⟨255, 0, 255, 255⟩)]], none, true,
      (⟨3, 4, 5⟩, ⟨1, 0, 1, 1⟩), false⟩, ⟨[[]], none, true, origin, false⟩, .constructed⟩ :=
  frame_shows documented_bytes (show run (Buffered.calls bytes origin)
    (drawing ++ [.frameStarted 20]) = some _ from rfl)

end witnesses

end Ssuge.DebugDrawer

import Ssuge.ObjectLoop

/-! The loop over the contacts in `PhysicsManager::updateWorld`. Their number is read once,
before the loop, while the handlers of the two objects of a contact may destroy objects:
their bodies leave the world, and the contacts of these bodies with them. An iteration is a
step that takes the calls the two handlers make. Bullet may reorder the contacts that stay;
`remaining` is the list it leaves when some objects are deleted. -/

namespace Ssuge.Engine

open CString Procedure GuardedRun

/-- The objects that the shapes of the two bodies of a `btPersistentManifold` point to. -/
structure Manifold where
  a : Ptr
  b : Ptr
deriving DecidableEq, Repr

def Manifold.Without (deleted : List Ptr) (contact : Manifold) : Prop :=
  contact.a ∉ deleted ∧ contact.b ∉ deleted

instance (deleted : List Ptr) (contact : Manifold) : Decidable (contact.Without deleted) :=
  inferInstanceAs (Decidable (_ ∧ _))

/-- `obj->injectScriptEvent("onCollide", ..)`; the loop holds no iterator meanwhile. -/
def injectOnCollide (obj : Ptr) (calls : List ScriptCall) : Proc Stop Handler Unit := do
  let o ← onHandler (object obj)
  if o.mHasScript then scriptCalls [] calls else pure ()

/-- The two notifications. The first handler may have deleted what the second one is called
on or told about. -/
def collide (contact : Manifold) (calls : List ScriptCall × List ScriptCall) :
    Proc Stop Handler Unit := do
  injectOnCollide contact.a calls.1
  require (contact.Without (← get).deleted) .undefined
  injectOnCollide contact.b calls.2

/-- Where the loop is: at a contact, past the last one, left by an exception or by the end
of the program, at an index that has no contact any more, or using a deleted object. -/
inductive CollisionPhase
  | running (contact : Manifold)
  | finished
  | left (reason : Stop)
  | outOfRange
  | deletedObject
deriving DecidableEq

structure CollisionLoop where
  engine : Engine
  manifolds : List Manifold
  numManifolds : Nat
  i : Nat
  phase : CollisionPhase

namespace CollisionLoop

/-- `i < numManifolds`, and `getManifoldByIndexInternal(i)` -/
def at? (manifolds : List Manifold) (numManifolds i : Nat) : CollisionPhase :=
  if i < numManifolds then manifolds[i]?.elim .outOfRange .running else .finished

def start (e : Engine) (manifolds : List Manifold) : CollisionLoop :=
  ⟨e, manifolds, manifolds.length, 0, at? manifolds manifolds.length 0⟩

def handler (l : CollisionLoop) : Handler := ⟨l.engine, [], false⟩

section iteration

variable (remaining : List Manifold → List Ptr → List Manifold)

/-- The body for one contact, and `i++`. -/
def visit (l : CollisionLoop) (contact : Manifold) (calls : List ScriptCall × List ScriptCall) :
    CollisionLoop :=
  match (collide contact calls).run l.handler with
  | .returned _ h =>
      let manifolds := remaining l.manifolds h.deleted
      ⟨h.engine, manifolds, l.numManifolds, l.i + 1, at? manifolds l.numManifolds (l.i + 1)⟩
  | .stopped .undefined h => { l with engine := h.engine, phase := .deletedObject }
  | .stopped reason h => { l with engine := h.engine, phase := .left reason }

def iterate (l : CollisionLoop) (calls : List ScriptCall × List ScriptCall) :
    Option CollisionLoop :=
  match l.phase with
  | .running contact => some (l.visit remaining contact calls)
  | _ => none

end iteration

/-- No contact was read past the last one, and no deleted object was used. -/
def Safe (l : CollisionLoop) : Prop := l.phase ≠ .outOfRange ∧ l.phase ≠ .deletedObject

def scripted (e : Engine) (obj : Ptr) (calls : List ScriptCall) : List ScriptCall :=
  (e.objects obj).elim [] fun o => if o.mHasScript then calls else []

def Spares (e : Engine) (calls : List ScriptCall) (obj : Ptr) : Prop :=
  ∀ o ∈ e.objects obj, .destroyObjectWithTag (getTag o) ∉ calls

instance (e : Engine) (calls : List ScriptCall) (obj : Ptr) : Decidable (Spares e calls obj) :=
  Option.decidableForallMem (e.objects obj)

def SparesBoth (e : Engine) (calls : List ScriptCall) (contact : Manifold) : Prop :=
  Spares e calls contact.a ∧ Spares e calls contact.b

instance (e : Engine) (calls : List ScriptCall) (contact : Manifold) :
    Decidable (SparesBoth e calls contact) :=
  inferInstanceAs (Decidable (_ ∧ _))

/-- The first handler, if it returns, destroys neither object of its contact. When both
return and the loop goes on, the objects they destroy leave more contacts than the next
index. -/
def SparesContacts (l : CollisionLoop) (calls : List ScriptCall × List ScriptCall) : Prop :=
  match l.phase with
  | .running contact =>
      let first := scripted l.engine contact.a calls.1
      let second := scripted l.engine contact.b calls.2
      (((injectOnCollide contact.a calls.1).run l.handler).returns = true →
        SparesBoth l.engine first contact) ∧
      (((collide contact calls).run l.handler).returns = true → l.i + 1 < l.numManifolds →
        l.i + 1 < l.manifolds.countP fun m => SparesBoth l.engine (first ++ second) m)
  | _ => True

instance (l : CollisionLoop) (calls : List ScriptCall × List ScriptCall) :
    Decidable (l.SparesContacts calls) := by
  unfold SparesContacts
  cases l.phase with
  | running contact => exact inferInstanceAs (Decidable (_ ∧ _))
  | _ => exact isTrue trivial

end CollisionLoop

section handlers

variable {it : Name}

section destroy

variable {h h' : Handler} {tag : Int32} {p : Ptr} {o : GameObject}

theorem destroy_own (formed : h.engine.WellFormed) (live : h.engine.objects p = some o)
    (own : getTag o = tag)
    (returned : (scriptCall it (.destroyObjectWithTag tag)).run h = .returned () h') :
    p ∈ h'.deleted := by
  have found := formed.listed p o live
  obtain ⟨titles, h₂, value, removals, names, log, -⟩ := destroy_run it formed tag
  obtain ⟨-, rfl⟩ := Ending.returned.inj (value.symm.trans returned)
  have before : p ∈ h.engine.mObjects.values := (OrderedMap.mem_values_iff ..).mpr ⟨_, found⟩
  have member : o.mName ∈ titles := (names _).mpr ((tagged_iff found live tag).mpr own)
  have gone : p ∉ h₂.engine.mObjects.values := by
    intro listed
    obtain ⟨k, stored⟩ := (OrderedMap.mem_values_iff ..).mp listed
    rw [removals.find?] at stored
    split at stored
    · simp at stored
    next outside => exact outside (formed.name_unique found stored ▸ member)
  simp [log, before, gone]

theorem destroy_other (formed : h.engine.WellFormed) (live : h.engine.objects p = some o)
    (alive : p ∉ h.deleted) (other : getTag o ≠ tag)
    (returned : (scriptCall it (.destroyObjectWithTag tag)).run h = .returned () h') :
    h'.engine.mObjects.find? o.mName = some p ∧ h'.engine.objects p = some o ∧
      p ∉ h'.deleted := by
  have found := formed.listed p o live
  obtain ⟨titles, h₂, value, removals, names, log, -⟩ := destroy_run it formed tag
  obtain ⟨-, rfl⟩ := Ending.returned.inj (value.symm.trans returned)
  have kept : o.mName ∉ titles := by
    rw [names, tagged_iff found live]
    exact other
  have found' : h₂.engine.mObjects.find? o.mName = some p := by
    rw [removals.find?, if_neg kept, found]
  have still := (OrderedMap.mem_values_iff ..).mpr ⟨_, found'⟩
  exact ⟨found', removals.objects formed kept found live, by simp [log, alive, still]⟩

end destroy

theorem scriptCalls_deleted_iff {h h' : Handler} (formed : h.engine.WellFormed) {p : Ptr}
    {o : GameObject} (live : h.engine.objects p = some o) (alive : p ∉ h.deleted)
    {cs : List ScriptCall} (returned : (scriptCalls it cs).run h = .returned () h') :
    p ∈ h'.deleted ↔ .destroyObjectWithTag (getTag o) ∈ cs := by
  have found := formed.listed p o live
  induction cs generalizing h with
  | nil =>
      obtain ⟨-, rfl⟩ := Ending.returned.inj returned
      simp [alive]
  | cons c cs ih =>
      obtain ⟨⟨⟩, h₁, first, rest⟩ := bind_eq_returned.mp returned
      have called := scriptCall_called formed first
      cases c with
      | destroyObjectWithTag tag =>
          by_cases own : getTag o = tag
          · have deleted := destroy_own formed live own first
            exact iff_of_true ((scriptCalls_called called.formed rest).deleted p deleted)
              (by simp [own])
          · obtain ⟨found', live', alive'⟩ := destroy_other formed live alive own first
            refine (ih called.formed live' alive' rest found').trans ?_
            simp [own]
      | newGameObject address tag name hasScript =>
          obtain ⟨fresh, free, rfl⟩ := new_returned formed first
          obtain ⟨found', live'⟩ := withScripted_kept formed tag hasScript fresh free found live
          refine (ih called.formed live' alive rest found').trans ?_
          simp

theorem injectOnCollide_live {h : Handler} {obj : Ptr} {o : GameObject}
    (live : h.engine.objects obj = some o) (calls : List ScriptCall) :
    (injectOnCollide obj calls).run h =
      (scriptCalls [] (CollisionLoop.scripted h.engine obj calls)).run h := by
  have read : (onHandler (object obj)).run h = .returned o h := by
    rw [onHandler, within_run, object_run live]
  rw [injectOnCollide, bind_of_returned read, CollisionLoop.scripted, live]
  simp only [Option.elim_some]
  split <;> rfl

end handlers

namespace CollisionLoop

variable {remaining : List Manifold → List Ptr → List Manifold} {l l' : CollisionLoop}
variable {contact : Manifold} {calls : List ScriptCall × List ScriptCall}

def Live (e : Engine) (contact : Manifold) : Prop :=
  (∃ o, e.objects contact.a = some o) ∧ ∃ o, e.objects contact.b = some o

/-- A handler of a live object that returns: it spares or deletes what is there. -/
structure Notified (h h' : Handler) (calls : List ScriptCall) : Prop where
  formed : h'.engine.WellFormed
  deleted : ∀ p ∈ h.deleted, p ∈ h'.deleted
  kept : ∀ p o, h.engine.objects p = some o → p ∉ h'.deleted → h'.engine.objects p = some o
  exact : ∀ p o, h.engine.objects p = some o → p ∉ h.deleted →
    (p ∈ h'.deleted ↔ .destroyObjectWithTag (getTag o) ∈ calls)

theorem Notified.trans {h h₁ h₂ : Handler} {first second : List ScriptCall}
    (before : Notified h h₁ first) (after : Notified h₁ h₂ second) :
    Notified h h₂ (first ++ second) where
  formed := after.formed
  deleted p member := after.deleted p (before.deleted p member)
  kept p o live alive :=
    after.kept p o (before.kept p o live fun member => alive (after.deleted p member)) alive
  exact p o live alive := by
    rw [List.mem_append, ← before.exact p o live alive]
    by_cases gone : p ∈ h₁.deleted
    · exact iff_of_true (after.deleted p gone) (.inl gone)
    · rw [after.exact p o (before.kept p o live gone) gone]
      simp [gone]

theorem injectOnCollide_cases {h : Handler} (formed : h.engine.WellFormed) {obj : Ptr}
    (live : ∃ o, h.engine.objects obj = some o) (calls : List ScriptCall) :
    (∃ h', (injectOnCollide obj calls).run h = .returned () h' ∧
      Notified h h' (scripted h.engine obj calls)) ∨
    ∃ reason h', (injectOnCollide obj calls).run h = .stopped reason h' ∧
      reason ≠ .undefined := by
  obtain ⟨o, live⟩ := live
  rw [injectOnCollide_live live]
  cases run : (scriptCalls [] (scripted h.engine obj calls)).run h with
  | returned value h' =>
      have called := scriptCalls_called formed run
      refine .inl ⟨h', rfl, called.formed, called.deleted, fun p o live alive => ?_,
        fun p o live alive => scriptCalls_deleted_iff formed live alive run⟩
      exact (called.kept _ p o (formed.listed p o live) live alive).2
  | stopped reason h' =>
      exact .inr ⟨reason, h', rfl, scriptCalls_stopped formed run⟩

theorem without_iff {h h' : Handler} {calls : List ScriptCall} (notified : Notified h h' calls)
    (none : h.deleted = []) {m : Manifold} (live : Live h.engine m) :
    m.Without h'.deleted ↔ SparesBoth h.engine calls m := by
  obtain ⟨⟨o, first⟩, u, second⟩ := live
  simp [Manifold.Without, SparesBoth, Spares, first, second, none,
    notified.exact _ _ first, notified.exact _ _ second]

theorem collide_stopped_first {h h' : Handler} {reason : Stop}
    (stopped : (injectOnCollide contact.a calls.1).run h = .stopped reason h') :
    (collide contact calls).run h = .stopped reason h' :=
  bind_of_stopped stopped _

theorem collide_returned_first {h h' : Handler}
    (returned : (injectOnCollide contact.a calls.1).run h = .returned () h') :
    (collide contact calls).run h = if contact.Without h'.deleted then
      (injectOnCollide contact.b calls.2).run h' else .stopped .undefined h' := by
  rw [collide, bind_of_returned returned, bind_get_run]
  split
  next without => rw [bind_of_returned (require_pos without _ _)]
  next gone => rw [bind_of_stopped (require_neg gone _ _)]

/-- How the two notifications about a contact can end. -/
theorem collide_cases (formed : l.engine.WellFormed) (live : Live l.engine contact) :
    (((injectOnCollide contact.a calls.1).run l.handler).returns = true ∧
      ¬ SparesBoth l.engine (scripted l.engine contact.a calls.1) contact ∧
      ∃ h, (collide contact calls).run l.handler = .stopped .undefined h) ∨
    (((injectOnCollide contact.a calls.1).run l.handler).returns = true →
      SparesBoth l.engine (scripted l.engine contact.a calls.1) contact) ∧
    ((∃ h, (collide contact calls).run l.handler = .returned () h ∧
        Notified l.handler h (scripted l.engine contact.a calls.1 ++
          scripted l.engine contact.b calls.2)) ∨
      ∃ reason h, (collide contact calls).run l.handler = .stopped reason h ∧
        reason ≠ .undefined) := by
  rcases injectOnCollide_cases (h := l.handler) formed live.1 calls.1 with
    ⟨h₁, run, notified⟩ | ⟨reason, h₁, run, defined⟩
  · have spared := without_iff notified rfl live
    rw [collide_returned_first run, run]
    by_cases without : contact.Without h₁.deleted
    · refine .inr ⟨fun _ => spared.mp without, ?_⟩
      rw [if_pos without]
      obtain ⟨o, second⟩ := live.2
      have kept := notified.kept _ o second without.2
      have same : scripted h₁.engine contact.b calls.2 = scripted l.engine contact.b calls.2 := by
        rw [scripted, kept, scripted, second]
      rcases injectOnCollide_cases notified.formed ⟨o, kept⟩ calls.2 with
        ⟨h₂, run₂, notified₂⟩ | ⟨reason, h₂, run₂, defined⟩
      · exact .inl ⟨h₂, run₂, notified.trans (same ▸ notified₂)⟩
      · exact .inr ⟨reason, h₂, run₂, defined⟩
    · rw [if_neg without]
      exact .inl ⟨rfl, fun both => without (spared.mpr both), h₁, rfl⟩
  · rw [collide_stopped_first run, run]
    exact .inr ⟨fun returns => by simp [Ending.returns] at returns, .inr ⟨reason, h₁, rfl, defined⟩⟩

/-- What every contact that the loop may still read has. -/
structure Invariant (l : CollisionLoop) : Prop where
  formed : ∀ m, l.phase = .running m → l.engine.WellFormed
  live : ∀ m, l.phase = .running m → Live l.engine m
  others : ∀ m, l.phase = .running m → ∀ m' ∈ l.manifolds, Live l.engine m'

theorem at?_running {manifolds : List Manifold} {numManifolds i : Nat} {m : Manifold}
    (phase : at? manifolds numManifolds i = .running m) : m ∈ manifolds := by
  rw [at?] at phase
  split at phase
  · cases read : manifolds[i]? with
    | none => simp [read] at phase
    | some m' =>
        simp only [read, Option.elim_some, CollisionPhase.running.injEq] at phase
        exact phase ▸ List.mem_of_getElem? read
  · simp at phase

theorem at?_safe {manifolds : List Manifold} {numManifolds i : Nat} {e : Engine} :
    Safe ⟨e, manifolds, numManifolds, i, at? manifolds numManifolds i⟩ ↔
      (i < numManifolds → i < manifolds.length) := by
  simp only [Safe, at?]
  split
  next more =>
    cases read : manifolds[i]? with
    | none =>
        have past := List.getElem?_eq_none_iff.mp read
        simp [more, past]
    | some m =>
        have inside := (List.getElem?_eq_some_iff.mp read).1
        simp [inside]
  next done => simp [done]

theorem invariant_at? {manifolds : List Manifold} {numManifolds i : Nat} {e : Engine}
    (formed : e.WellFormed) (live : ∀ m ∈ manifolds, Live e m) :
    Invariant ⟨e, manifolds, numManifolds, i, at? manifolds numManifolds i⟩ :=
  ⟨fun _ _ => formed, fun m phase => live m (at?_running phase), fun _ _ => live⟩

/-- What Bullet keeps when objects are deleted: the contacts without them, in any order. -/
def Releases (remaining : List Manifold → List Ptr → List Manifold) : Prop :=
  ∀ manifolds deleted, (remaining manifolds deleted).Perm
    (manifolds.filter fun m => m.Without deleted)

/-- One iteration: it is safe exactly when its handlers spare enough contacts, and then it
keeps the invariant. -/
theorem visit_safe (releases : Releases remaining) (invariant : Invariant l)
    (phase : l.phase = .running contact) :
    (Safe (l.visit remaining contact calls) ↔ SparesContacts l calls) ∧
      Invariant (l.visit remaining contact calls) := by
  have formed := invariant.formed contact phase
  have others := invariant.others contact phase
  simp only [SparesContacts, phase, visit]
  rcases @collide_cases l contact calls formed (invariant.live contact phase) with
    ⟨returns, kills, h, run⟩ | ⟨spares, ⟨h, run, notified⟩ | ⟨reason, h, run, defined⟩⟩
  · rw [run]
    exact ⟨iff_of_false (by simp [Safe]) fun guard => kills (guard.1 returns), by
      constructor <;> simp⟩
  · have left := releases l.manifolds h.deleted
    have length : (remaining l.manifolds h.deleted).length =
        l.manifolds.countP fun m => SparesBoth l.engine (scripted l.engine contact.a calls.1 ++
          scripted l.engine contact.b calls.2) m := by
      rw [left.length_eq, ← List.countP_eq_length_filter]
      refine List.countP_congr fun m member => ?_
      simp only [decide_eq_true_eq]
      exact without_iff notified rfl (others m member)
    rw [run]
    refine ⟨at?_safe.trans ?_, invariant_at? notified.formed fun m member => ?_⟩
    · simp only [length, Ending.returns, true_imp_iff]
      exact ⟨fun room => ⟨spares, room⟩, fun guard => guard.2⟩
    · obtain ⟨old, without⟩ := List.mem_filter.mp (left.mem_iff.mp member)
      obtain ⟨⟨o, first⟩, u, second⟩ := others m old
      have without : m.Without h.deleted := by simpa using without
      exact ⟨⟨o, notified.kept _ o first without.1⟩, u, notified.kept _ u second without.2⟩
  · rw [run]
    refine ⟨iff_of_true ?_ ⟨spares, ?_⟩, ?_⟩
    · cases reason <;> simp [Safe] at defined ⊢
    · simp [Ending.returns]
    · cases reason <;> first | exact absurd rfl defined | (constructor <;> simp)

theorem iterate_running (phase : l.phase = .running contact) :
    iterate remaining l calls = some (l.visit remaining contact calls) := by
  simp [iterate, phase]

theorem iterate_safe (releases : Releases remaining) (invariant : Invariant l) :
    (∀ l', iterate remaining l calls = some l' → Safe l') ↔ SparesContacts l calls := by
  cases phase : l.phase with
  | running contact =>
      simp only [iterate_running phase, Option.some.injEq, forall_eq']
      exact (visit_safe releases invariant phase).1
  | _ =>
      refine iff_of_true (fun l' returned => ?_) (by simp [SparesContacts, phase])
      simp [iterate, phase] at returned

theorem iterate_invariant (releases : Releases remaining) (invariant : Invariant l)
    (returned : iterate remaining l calls = some l') : Invariant l' := by
  cases phase : l.phase with
  | running contact =>
      rw [iterate_running phase] at returned
      obtain rfl := Option.some.inj returned
      exact (visit_safe releases invariant phase).2
  | _ => simp [iterate, phase] at returned

/-- In every state of the engine, for all contacts between objects of the scene and all
handlers: the loop reads no contact past the last one and uses no deleted object, if and
only if every first handler that returns spares the objects of its contact, and the
handlers leave as many contacts as the loop still reads. -/
theorem dispatch_safe_iff (releases : Releases remaining) (sceneNodes cameras : List Name)
    (ops : List Op) (e : Engine)
    (reached : runSteps step (Engine.start sceneNodes cameras) ops = some e)
    (manifolds : List Manifold) (live : ∀ m ∈ manifolds, Live e m)
    (behaviours : List (List ScriptCall × List ScriptCall)) :
    Throughout (iterate remaining) Safe (start e manifolds) behaviours ↔
      Along (iterate remaining) SparesContacts (start e manifolds) behaviours := by
  have formed : e.WellFormed := runSteps_induct
    (fun _ _ _ formed returned => step_wellFormed formed returned)
    (start_wellFormed sceneNodes cameras) reached
  exact throughout_iff (I := Invariant) (L := fun _ => True)
    (fun _ _ invariant _ _ => iterate_safe releases invariant)
    (fun _ _ _ invariant _ _ _ returned => iterate_invariant releases invariant returned)
    (invariant_at? formed live) (at?_safe.mpr fun more => more) (fun _ _ => trivial)

def inOrder (manifolds : List Manifold) (deleted : List Ptr) : List Manifold :=
  manifolds.filter fun m => m.Without deleted

theorem inOrder_releases : Releases inOrder := fun _ _ => .refl _

/-- Each of three scripted objects touches the other two. -/
def contacts : List Manifold := [⟨16, 32⟩, ⟨16, 48⟩, ⟨32, 48⟩]

theorem contacts_live : ∀ m ∈ contacts, Live
    ((runSteps step (Engine.start [] []) UpdateLoop.threeObjects).get
      UpdateLoop.threeObjects_made) m := by
  simp only [contacts, List.mem_cons, List.not_mem_nil, or_false, forall_eq_or_imp, forall_eq]
  exact ⟨⟨⟨_, rfl⟩, _, rfl⟩, ⟨⟨_, rfl⟩, _, rfl⟩, ⟨_, rfl⟩, _, rfl⟩

/-- A handler creates an object, and the last one destroys its own object and the partner. -/
theorem dispatch_safe_contacts :
    ∃ e, runSteps step (Engine.start [] []) UpdateLoop.threeObjects = some e ∧
      Throughout (iterate inOrder) Safe (start e contacts)
        [([.newGameObject 64 4 (chars "B") true], []), ([.destroyObjectWithTag 4], []),
          ([], [.destroyObjectWithTag 2, .destroyObjectWithTag 3])] := by
  have reached := (Option.some_get UpdateLoop.threeObjects_made).symm
  exact ⟨_, reached, (dispatch_safe_iff inOrder_releases [] [] UpdateLoop.threeObjects _ reached
    contacts contacts_live _).mpr (by decide)⟩

/-- A first handler that destroys the partner; a second handler that destroys an object of
the two contacts that come next. -/
theorem not_dispatch_safe :
    ∃ e, runSteps step (Engine.start [] []) UpdateLoop.threeObjects = some e ∧
      (∀ m ∈ contacts, Live e m) ∧
      ¬ Throughout (iterate inOrder) Safe (start e contacts) [([.destroyObjectWithTag 2], [])] ∧
      ¬ Throughout (iterate inOrder) Safe (start e contacts)
        [([], [.destroyObjectWithTag 3])] := by
  have reached := (Option.some_get UpdateLoop.threeObjects_made).symm
  refine ⟨_, reached, contacts_live, fun all => ?_, fun all => ?_⟩
  · exact (all _ (List.prefix_refl _) _ rfl).2 (by decide)
  · exact (all _ (List.prefix_refl _) _ rfl).1 (by decide)

end CollisionLoop

end Ssuge.Engine

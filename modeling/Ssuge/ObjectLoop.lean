import Ssuge.EngineRuns

/-! The loop over the game objects in `BaseApplication::update`. It holds an iterator
into the object map while each object's `onUpdate` handler runs, and the handler may
erase entries of the map or insert some. An iteration is a step that takes the calls
its handler makes, in order, those of nested handlers included; a call that throws is
the handler's last. An exception leaves the loop. -/

namespace Ssuge.Engine

open CString Procedure GuardedRun

inductive ScriptCall
  | destroyObjectWithTag (tag : Int32)
  | newGameObject (address : Ptr) (tag : Int32) (name : Name) (hasScript : Bool)
deriving DecidableEq, Repr

/-- What a handler changes: the engine, which objects have been deleted, and whether
the entry that the loop's iterator points to has been erased. -/
structure Handler where
  engine : Engine
  deleted : List Ptr
  erased : Bool

def onHandler {α : Type} (p : EngineProc α) : Proc Stop Handler α :=
  within Handler.engine (fun h e => { h with engine := e }) p

def scriptCall (it : Name) : ScriptCall → Proc Stop Handler Unit
  | .destroyObjectWithTag tag => do
      let before := (← get).engine
      let _ ← onHandler (removeGameObjectByTag tag)
      modify fun h =>
        let gone := before.mObjects.values.filter (· ∉ h.engine.mObjects.values)
        { h with
          deleted := h.deleted ++ gone
          erased := h.erased || (h.engine.mObjects.find? it).isNone }
  | .newGameObject address tag name hasScript => do
      -- an address that is not free is not one the allocator returns
      require ((← get).engine.Fresh address) .aborted
      discard (onHandler (luaNewGameObject address tag name hasScript))

def scriptCalls (it : Name) : List ScriptCall → Proc Stop Handler Unit
  | [] => pure ()
  | c :: cs => do
      scriptCall it c
      scriptCalls it cs

/-- `obj->update(dT)` for the object under the key `it`. -/
def updateObject (it : Name) (obj : Ptr) (calls : List ScriptCall) : Proc Stop Handler Unit := do
  let o ← onHandler (object obj)
  if o.mHasScript then scriptCalls it calls else pure ()

/-- Where the loop is: at the entry of a key, past the last one, left by an exception
or by the end of the program, or using what it must not. -/
inductive Phase
  | running (it : Name)
  | finished
  | left (reason : Stop)
  | erasedIterator
  | deletedObject
deriving DecidableEq

structure UpdateLoop where
  engine : Engine
  phase : Phase
  updated : List Ptr
  deleted : List Ptr

namespace UpdateLoop

def at? : Option (Name × Ptr) → Phase
  | some entry => .running entry.1
  | none => .finished

/-- `it = mObjects.begin()` -/
def start (e : Engine) : UpdateLoop := ⟨e, at? e.mObjects.entries.head?, [], []⟩

def handler (l : UpdateLoop) : Handler := ⟨l.engine, l.deleted, false⟩

/-- The body for the object `obj`, and `++it`. -/
def visit (l : UpdateLoop) (it : Name) (obj : Ptr) (calls : List ScriptCall) : UpdateLoop :=
  let updated := l.updated ++ [obj]
  match (updateObject it obj calls).run l.handler with
  | .returned _ h => ⟨h.engine, if h.erased then .erasedIterator
      else at? (h.engine.mObjects.above it).head?, updated, h.deleted⟩
  | .stopped .undefined h => ⟨h.engine, .deletedObject, updated, h.deleted⟩
  | .stopped reason h => ⟨h.engine, .left reason, updated, h.deleted⟩

def iterate (l : UpdateLoop) (calls : List ScriptCall) : Option UpdateLoop :=
  match l.phase with
  | .running it => (l.engine.mObjects.find? it).map fun obj => l.visit it obj calls
  | _ => none

/-- No erased iterator and no deleted object has been used, and at the end every
object that was there from the start on has been updated once. -/
def Safe (e : Engine) (l : UpdateLoop) : Prop :=
  l.phase ≠ .erasedIterator ∧ l.phase ≠ .deletedObject ∧
    (l.phase = .finished → ∀ p ∈ e.mObjects.values, p ∉ l.deleted → l.updated.count p = 1)

/-- A handler that returns has not destroyed the objects of its own object's tag. -/
def SparesOwn (l : UpdateLoop) (calls : List ScriptCall) : Prop :=
  match l.phase with
  | .running it => ∀ obj ∈ l.engine.mObjects.find? it, ∀ o ∈ l.engine.objects obj,
      o.mHasScript = true → ((updateObject it obj calls).run l.handler).returns = true →
        .destroyObjectWithTag (getTag o) ∉ calls
  | _ => True

instance (l : UpdateLoop) (calls : List ScriptCall) : Decidable (SparesOwn l calls) := by
  unfold SparesOwn
  cases l.phase with
  | running it => exact Option.decidableForallMem (l.engine.mObjects.find? it)
  | _ => exact isTrue trivial

end UpdateLoop

section calls

variable {it : Name}

structure Called (h h' : Handler) : Prop where
  formed : h'.engine.WellFormed
  deleted : ∀ p ∈ h.deleted, p ∈ h'.deleted
  kept : ∀ n p o, h.engine.mObjects.find? n = some p → h.engine.objects p = some o →
    p ∉ h'.deleted → h'.engine.mObjects.find? n = some p ∧ h'.engine.objects p = some o

theorem Called.refl {h : Handler} (formed : h.engine.WellFormed) : Called h h :=
  ⟨formed, fun _ member => member, fun _ _ _ found live _ => ⟨found, live⟩⟩

theorem Called.trans {h h₁ h₂ : Handler} (first : Called h h₁) (second : Called h₁ h₂) :
    Called h h₂ where
  formed := second.formed
  deleted p member := second.deleted p (first.deleted p member)
  kept n p o found live alive := by
    obtain ⟨found₁, live₁⟩ :=
      first.kept n p o found live fun member => alive (second.deleted p member)
    exact second.kept n p o found₁ live₁ alive

theorem destroy_run {h : Handler} (it : Name) (formed : h.engine.WellFormed) (tag : Int32) :
    ∃ titles h', (scriptCall it (.destroyObjectWithTag tag)).run h = .returned () h' ∧
      Removals h.engine titles h'.engine ∧ (∀ n, n ∈ titles ↔ h.engine.Tagged tag n) ∧
      h'.deleted = h.deleted ++
        h.engine.mObjects.values.filter (· ∉ h'.engine.mObjects.values) ∧
      h'.erased = (h.erased || (h'.engine.mObjects.find? it).isNone) := by
  obtain ⟨titles, e', returned, removals, names⟩ := removeGameObjectByTag_run tag formed
  have ran : (onHandler (removeGameObjectByTag tag)).run h =
      .returned 0 { h with engine := e' } := by
    rw [onHandler, within_run, returned]
  exact ⟨titles, _, by rw [scriptCall, bind_get_run, bind_of_returned ran, modify_run],
    removals, names, rfl, rfl⟩

theorem destroy_called {h h' : Handler} (formed : h.engine.WellFormed) {titles : List Name}
    (removals : Removals h.engine titles h'.engine)
    (log : h'.deleted = h.deleted ++
      h.engine.mObjects.values.filter (· ∉ h'.engine.mObjects.values)) : Called h h' := by
  refine ⟨removals.wellFormed formed, fun p member => by simp [log, member], ?_⟩
  intro n p o found live alive
  have listed : p ∈ h'.engine.mObjects.values := by
    by_contra gone
    have before : p ∈ h.engine.mObjects.values := (OrderedMap.mem_values_iff ..).mpr ⟨n, found⟩
    exact alive (by rw [log]; simp [before, gone])
  obtain ⟨k, stored⟩ := (OrderedMap.mem_values_iff ..).mp listed
  have kept := stored
  rw [removals.find?] at kept
  split at kept
  · simp at kept
  next outside =>
    obtain rfl := formed.name_unique found kept
    exact ⟨stored, removals.objects formed outside found live⟩

theorem new_returned {h h' : Handler} (formed : h.engine.WellFormed) {address : Ptr} {tag : Int32}
    {name : Name} {hasScript : Bool}
    (returned : (scriptCall it (.newGameObject address tag name hasScript)).run h =
      .returned () h') : h.engine.Fresh address ∧ name ∉ h.engine.sceneNodes ∧
      h' = { h with engine := h.engine.withScripted address tag name hasScript } := by
  rw [scriptCall, bind_get_run] at returned
  by_cases fresh : h.engine.Fresh address
  · rw [bind_of_returned (require_pos fresh _ _), discard_returned] at returned
    obtain ⟨userdata, created⟩ := returned
    obtain ⟨e', value, rfl⟩ := within_returned.mp created
    obtain ⟨free, -, rfl⟩ := luaNewGameObject_returned formed value
    exact ⟨fresh, free, rfl⟩
  · rw [bind_of_stopped (require_neg fresh _ _)] at returned
    simp at returned

theorem withScripted_find? {e : Engine} {address : Ptr} {tag : Int32} {name : Name}
    {hasScript : Bool} (n : Name) :
    (e.withScripted address tag name hasScript).mObjects.find? n =
      if n = name then some address else e.mObjects.find? n :=
  withObject_find? (e := e.withLuaObject ⟨some address, some name⟩) address tag.toUInt32 name n

theorem withScripted_objects {e : Engine} {address p : Ptr} {tag : Int32} {name : Name}
    {hasScript : Bool} (apart : p ≠ address) :
    (e.withScripted address tag name hasScript).objects p = e.objects p := by
  simp [withScripted, withObject, withLuaObject, constructed, setObject, apart]

theorem withScripted_kept {e : Engine} (formed : e.WellFormed) {address : Ptr} (tag : Int32)
    {name : Name} (hasScript : Bool) (fresh : e.Fresh address) (free : name ∉ e.sceneNodes)
    {n : Name} {p : Ptr} {o : GameObject} (found : e.mObjects.find? n = some p)
    (live : e.objects p = some o) :
    (e.withScripted address tag name hasScript).mObjects.find? n = some p ∧
      (e.withScripted address tag name hasScript).objects p = some o := by
  have other : n ≠ name := by
    rintro rfl
    exact free (formed.stored n p found).2.1
  have apart : p ≠ address := by
    rintro rfl
    rw [fresh.2.1] at live
    simp at live
  exact ⟨by rw [withScripted_find?, if_neg other, found], by rw [withScripted_objects apart, live]⟩

theorem scriptCall_called {h h' : Handler} (formed : h.engine.WellFormed) {c : ScriptCall}
    (returned : (scriptCall it c).run h = .returned () h') : Called h h' := by
  cases c with
  | destroyObjectWithTag tag =>
      obtain ⟨titles, h₁, value, removals, -, log, -⟩ := destroy_run it formed tag
      obtain ⟨-, rfl⟩ := Ending.returned.inj (value.symm.trans returned)
      exact destroy_called formed removals log
  | newGameObject address tag name hasScript =>
      obtain ⟨fresh, free, rfl⟩ := new_returned formed returned
      exact ⟨withScripted_wellFormed formed fresh tag free hasScript, fun _ member => member,
        fun n p o found live _ => withScripted_kept formed _ _ fresh free found live⟩

theorem scriptCalls_called {h h' : Handler} (formed : h.engine.WellFormed) {cs : List ScriptCall}
    (returned : (scriptCalls it cs).run h = .returned () h') : Called h h' := by
  induction cs generalizing h with
  | nil =>
      obtain ⟨-, rfl⟩ := Ending.returned.inj returned
      exact .refl formed
  | cons c cs ih =>
      obtain ⟨⟨⟩, h₁, first, rest⟩ := bind_eq_returned.mp returned
      have called := scriptCall_called formed first
      exact called.trans (ih called.formed rest)

theorem scriptCall_stopped {h h' : Handler} (formed : h.engine.WellFormed) {c : ScriptCall}
    {reason : Stop} (stopped : (scriptCall it c).run h = .stopped reason h') :
    reason ≠ .undefined := by
  cases c with
  | destroyObjectWithTag tag =>
      obtain ⟨titles, h₁, value, -⟩ := destroy_run it formed tag
      simp [value] at stopped
  | newGameObject address tag name hasScript =>
      rw [scriptCall, bind_get_run] at stopped
      by_cases fresh : h.engine.Fresh address
      · rw [bind_of_returned (require_pos fresh _ _), discard_stopped] at stopped
        obtain ⟨e', value, -⟩ := within_stopped.mp stopped
        exact luaNewGameObject_stopped formed value
      · rw [bind_of_stopped (require_neg fresh _ _)] at stopped
        obtain ⟨rfl, -⟩ := Ending.stopped.inj stopped
        simp

theorem scriptCalls_stopped {h h' : Handler} (formed : h.engine.WellFormed) {cs : List ScriptCall}
    {reason : Stop} (stopped : (scriptCalls it cs).run h = .stopped reason h') :
    reason ≠ .undefined := by
  induction cs generalizing h with
  | nil => simp [scriptCalls] at stopped
  | cons c cs ih =>
      rcases bind_eq_stopped.mp stopped with first | ⟨⟨⟩, h₁, first, rest⟩
      · exact scriptCall_stopped formed first
      · exact ih (scriptCall_called formed first).formed rest

theorem scriptCalls_erased {h h' : Handler} (formed : h.engine.WellFormed) {cs : List ScriptCall}
    (returned : (scriptCalls it cs).run h = .returned () h') (erased : h.erased = true) :
    h'.erased = true := by
  induction cs generalizing h with
  | nil =>
      obtain ⟨-, rfl⟩ := Ending.returned.inj returned
      exact erased
  | cons c cs ih =>
      obtain ⟨⟨⟩, h₁, first, rest⟩ := bind_eq_returned.mp returned
      refine ih (scriptCall_called formed first).formed rest ?_
      cases c with
      | destroyObjectWithTag tag =>
          obtain ⟨titles, h₂, value, -, -, -, flag⟩ := destroy_run it formed tag
          obtain ⟨-, rfl⟩ := Ending.returned.inj (value.symm.trans first)
          simp [flag, erased]
      | newGameObject address tag name hasScript =>
          obtain ⟨-, -, rfl⟩ := new_returned formed first
          exact erased

/-- The iterator's entry is erased exactly by a call that destroys its object's tag. -/
theorem scriptCalls_erased_iff {h h' : Handler} (formed : h.engine.WellFormed) {obj : Ptr}
    {o : GameObject} (found : h.engine.mObjects.find? it = some obj)
    (live : h.engine.objects obj = some o) (fine : h.erased = false) {cs : List ScriptCall}
    (returned : (scriptCalls it cs).run h = .returned () h') :
    h'.erased = true ↔ .destroyObjectWithTag (getTag o) ∈ cs := by
  induction cs generalizing h with
  | nil =>
      obtain ⟨-, rfl⟩ := Ending.returned.inj returned
      simp [fine]
  | cons c cs ih =>
      obtain ⟨⟨⟩, h₁, first, rest⟩ := bind_eq_returned.mp returned
      have called := scriptCall_called formed first
      cases c with
      | destroyObjectWithTag tag =>
          obtain ⟨titles, h₂, value, removals, names, -, flag⟩ := destroy_run it formed tag
          obtain ⟨-, rfl⟩ := Ending.returned.inj (value.symm.trans first)
          rw [fine, Bool.false_or, removals.find?] at flag
          have member : it ∈ titles ↔ getTag o = tag :=
            (names it).trans (tagged_iff found live tag)
          by_cases own : getTag o = tag
          · have gone : h₂.erased = true := by rw [flag, if_pos (member.mpr own)]; rfl
            exact iff_of_true (scriptCalls_erased called.formed rest gone) (by simp [own])
          · have kept : it ∉ titles := fun inside => own (member.mp inside)
            rw [if_neg kept, found] at flag
            rw [ih called.formed (by rw [removals.find?, if_neg kept, found])
              (removals.objects formed kept found live) flag rest]
            simp [own]
      | newGameObject address tag name hasScript =>
          obtain ⟨fresh, free, rfl⟩ := new_returned formed first
          obtain ⟨found', live'⟩ := withScripted_kept formed tag hasScript fresh free found
            live
          rw [ih called.formed found' live' fine rest]
          simp

end calls

namespace UpdateLoop

variable {e : Engine} {l l' : UpdateLoop} {calls : List ScriptCall}

/-- Every object of the start that is not deleted is still under its name, and has been
updated once if the iterator has passed the name and not yet otherwise. -/
def Counted (e : Engine) (l : UpdateLoop) (passed : Name → Prop) : Prop :=
  ∀ n p, e.mObjects.find? n = some p → p ∉ l.deleted →
    l.engine.mObjects.find? n = some p ∧
      (passed n → l.updated.count p = 1) ∧ (¬ passed n → l.updated.count p = 0)

structure Invariant (e : Engine) (l : UpdateLoop) : Prop where
  formed : ∀ it, l.phase = .running it → l.engine.WellFormed
  present : ∀ it, l.phase = .running it → ∃ p, l.engine.mObjects.find? it = some p
  counted : ∀ it, l.phase = .running it → Counted e l (· < it)

theorem at?_start (formed : e.WellFormed) : Invariant e (start e) := by
  have first : ∀ it, (start e).phase = .running it →
      ∃ p, e.mObjects.entries.head? = some (it, p) := by
    intro it phase
    cases head : e.mObjects.entries.head? with
    | none => simp [start, at?, head] at phase
    | some entry =>
        simp only [start, at?, head, Phase.running.injEq] at phase
        exact ⟨entry.2, by rw [← phase]⟩
  refine ⟨fun it phase => formed, fun it phase => ?_, fun it phase n p found alive => ?_⟩
  · obtain ⟨p, head⟩ := first it phase
    exact ⟨p, (e.mObjects.entries_head head).1⟩
  · obtain ⟨q, head⟩ := first it phase
    have least := (e.mObjects.entries_head head).2 n p found
    exact ⟨found, fun passed => absurd passed (not_lt.mpr least), fun _ => rfl⟩

theorem start_safe : Safe e (start e) := by
  cases head : e.mObjects.entries.head? with
  | none =>
      refine ⟨by simp [start, at?, head], by simp [start, at?, head], fun _ p listed => ?_⟩
      rw [OrderedMap.values, List.head?_eq_none_iff.mp head] at listed
      simp at listed
  | some entry => simp [Safe, start, at?, head]

theorem counted_visit {it : Name} {obj : Ptr} (formed : l.engine.WellFormed)
    (counted : Counted e l (· < it)) (found : l.engine.mObjects.find? it = some obj) {h : Handler}
    (called : Called l.handler h) (phase : Phase) :
    Counted e ⟨h.engine, phase, l.updated ++ [obj], h.deleted⟩ (· ≤ it) := by
  intro n p initial alive
  obtain ⟨stored, before, after⟩ :=
    counted n p initial fun member => alive (called.deleted p member)
  obtain ⟨o, live, -⟩ := formed.stored_object stored
  refine ⟨(called.kept n p o stored live alive).1, ?_⟩
  rw [List.count_append, List.count_singleton]
  by_cases own : n = it
  · subst own
    obtain rfl := Option.some.inj (found.symm.trans stored)
    have once := after (lt_irrefl n)
    exact ⟨fun _ => by simp [once], fun beyond => absurd (le_refl n) beyond⟩
  · have apart : obj ≠ p := by
      rintro rfl
      exact own (formed.name_unique stored found)
    rw [if_neg (by simpa using apart)]
    exact ⟨fun passed => before (lt_of_le_of_ne passed own),
      fun beyond => after fun passed => beyond (le_of_lt passed)⟩

theorem counted_next {it : Name} {engine : Engine} {updated deleted : List Ptr}
    (counted : ∀ phase, Counted e ⟨engine, phase, updated, deleted⟩ (· ≤ it)) {next : Name × Ptr}
    (head : (engine.mObjects.above it).head? = some next) (phase : Phase) :
    Counted e ⟨engine, phase, updated, deleted⟩ (· < next.1) := by
  obtain ⟨later, -, least⟩ := engine.mObjects.above_head head
  intro n p initial alive
  obtain ⟨stored, once, never⟩ := counted phase n p initial alive
  refine ⟨stored, fun passed => once ?_, fun beyond => never fun passed => beyond ?_⟩
  · by_contra above
    exact absurd passed (not_lt.mpr (least n p stored (not_le.mp above)))
  · exact lt_of_le_of_lt passed later

theorem updateObject_live {it : Name} {obj : Ptr} {o : GameObject}
    (live : l.engine.objects obj = some o) : (updateObject it obj calls).run l.handler =
      (if o.mHasScript then scriptCalls it calls else pure ()).run l.handler := by
  have read : (onHandler (object obj)).run l.handler = .returned o l.handler := by
    rw [onHandler, within_run, show l.handler.engine = l.engine from rfl, object_run live]
    rfl
  rw [updateObject, bind_of_returned read]

theorem updateObject_cases {it : Name} {obj : Ptr} {o : GameObject} (calls : List ScriptCall)
    (formed : l.engine.WellFormed) (found : l.engine.mObjects.find? it = some obj)
    (live : l.engine.objects obj = some o) :
    (∃ h, (updateObject it obj calls).run l.handler = .returned () h ∧ Called l.handler h ∧
      (h.erased = true ↔ o.mHasScript = true ∧ .destroyObjectWithTag (getTag o) ∈ calls)) ∨
    ∃ reason h, (updateObject it obj calls).run l.handler = .stopped reason h ∧
      reason ≠ .undefined := by
  rw [updateObject_live live]
  split
  next script =>
    cases run : (scriptCalls it calls).run l.handler with
    | returned value h =>
        refine .inl ⟨h, rfl, scriptCalls_called (h := l.handler) formed run, ?_⟩
        rw [scriptCalls_erased_iff (h := l.handler) formed found live rfl run]
        simp [script]
    | stopped reason h =>
        exact .inr ⟨reason, h, rfl, scriptCalls_stopped (h := l.handler) formed run⟩
  next noScript =>
    exact .inl ⟨l.handler, rfl, .refl formed, by simp [noScript, handler]⟩

theorem iterate_running {it : Name} {obj : Ptr} (phase : l.phase = .running it)
    (found : l.engine.mObjects.find? it = some obj) :
    iterate l calls = some (l.visit it obj calls) := by
  simp [iterate, phase, found]

/-- One iteration: it is safe exactly when its handler spares its own object, and then
it keeps the invariant. -/
theorem visit_safe {it : Name} (invariant : Invariant e l) (phase : l.phase = .running it)
    {obj : Ptr} (found : l.engine.mObjects.find? it = some obj) :
    (Safe e (l.visit it obj calls) ↔ SparesOwn l calls) ∧
      (SparesOwn l calls → Invariant e (l.visit it obj calls)) := by
  have formed := invariant.formed it phase
  obtain ⟨o, live, -⟩ := formed.stored_object found
  have spares : SparesOwn l calls ↔ (o.mHasScript = true →
      ((updateObject it obj calls).run l.handler).returns = true →
      .destroyObjectWithTag (getTag o) ∉ calls) := by
    simp [SparesOwn, phase, found, live]
  rcases updateObject_cases calls formed found live with
    ⟨h, run, called, erased⟩ | ⟨reason, h, run, defined⟩
  · have counted := counted_visit formed (invariant.counted it phase) found called
    have condition : SparesOwn l calls ↔ h.erased = false := by
      rw [spares, ← Bool.not_eq_true, erased, not_and]
      exact ⟨fun own script => own script (by rw [run]; rfl), fun own script _ => own script⟩
    have shape : l.visit it obj calls = ⟨h.engine, if h.erased then .erasedIterator
        else at? (h.engine.mObjects.above it).head?, l.updated ++ [obj], h.deleted⟩ := by
      simp only [visit, run]
    rw [condition, shape]
    cases flag : h.erased with
    | true => simp [Safe]
    | false =>
        cases head : (h.engine.mObjects.above it).head? with
        | none =>
            refine ⟨iff_of_true ⟨by simp [at?], by simp [at?], fun _ p listed alive => ?_⟩ rfl,
              fun _ => ⟨by simp [at?], by simp [at?], by simp [at?]⟩⟩
            obtain ⟨n, initial⟩ := (OrderedMap.mem_values_iff ..).mp listed
            obtain ⟨stored, once, -⟩ := counted .finished n p initial alive
            exact once (h.engine.mObjects.above_none head stored)
        | some next =>
            refine ⟨iff_of_true ⟨by simp [at?], by simp [at?], by simp [at?]⟩ rfl, fun _ => ?_⟩
            refine ⟨fun _ _ => called.formed, fun it' running => ?_, fun it' running => ?_⟩
            · obtain rfl : next.1 = it' := by simpa [at?] using running
              exact ⟨next.2, (h.engine.mObjects.above_head head).2.1⟩
            · obtain rfl : next.1 = it' := by simpa [at?] using running
              exact counted_next counted head _
  · have shape : l.visit it obj calls =
        ⟨h.engine, .left reason, l.updated ++ [obj], h.deleted⟩ := by
      simp only [visit, run]
    have condition : SparesOwn l calls := by
      rw [spares]
      intro _ returned
      simp [run, Ending.returns] at returned
    rw [shape]
    exact ⟨iff_of_true ⟨by simp, by simp, by simp⟩ condition,
      fun _ => ⟨by simp, by simp, by simp⟩⟩

theorem iterate_safe (invariant : Invariant e l) :
    (∀ l', iterate l calls = some l' → Safe e l') ↔ SparesOwn l calls := by
  cases phase : l.phase with
  | running it =>
      obtain ⟨obj, found⟩ := invariant.present it phase
      simp only [iterate_running phase found, Option.some.injEq, forall_eq']
      exact (visit_safe invariant phase found).1
  | _ =>
      refine iff_of_true (fun l' returned => ?_) (by simp [SparesOwn, phase])
      simp [iterate, phase] at returned

theorem iterate_invariant (invariant : Invariant e l) (guard : SparesOwn l calls)
    (returned : iterate l calls = some l') : Invariant e l' := by
  cases phase : l.phase with
  | running it =>
      obtain ⟨obj, found⟩ := invariant.present it phase
      rw [iterate_running phase found] at returned
      obtain rfl := Option.some.inj returned
      exact (visit_safe invariant phase found).2 guard
  | _ => simp [iterate, phase] at returned

/-- In every state of the engine and for all handlers: the loop uses no erased iterator
and no deleted object, and updates once every object that is there from its start to
its end, if and only if no handler that returns has destroyed the objects of its own
object's tag. -/
theorem loop_safe_iff (sceneNodes cameras : List Name) (ops : List Op) (e : Engine)
    (reached : runSteps step (Engine.start sceneNodes cameras) ops = some e)
    (behaviours : List (List ScriptCall)) :
    Throughout iterate (Safe e) (start e) behaviours ↔
      Along iterate SparesOwn (start e) behaviours := by
  have formed : e.WellFormed := runSteps_induct
    (fun _ _ _ formed returned => step_wellFormed formed returned)
    (start_wellFormed sceneNodes cameras) reached
  exact throughout_iff (I := Invariant e) (L := fun _ => True)
    (fun _ _ invariant _ _ => iterate_safe invariant)
    (fun _ _ _ invariant _ _ guard returned => iterate_invariant invariant guard returned)
    (at?_start formed) start_safe (fun _ _ => trivial)

def threeObjects : List Op :=
  [.luaNewGameObject 16 1 (chars "A") true, .luaNewGameObject 32 2 (chars "C") true,
    .luaNewGameObject 48 3 (chars "D") true]

theorem threeObjects_made : (runSteps step (Engine.start [] []) threeObjects).isSome := by decide

/-- The first handler destroys the last object and creates one, which is visited next; that
one's handler creates another at the freed address, and the third destroys the second. -/
theorem loop_safe_three :
    ∃ e, runSteps step (Engine.start [] []) threeObjects = some e ∧
      Throughout iterate (Safe e) (start e)
        [[.destroyObjectWithTag 3, .newGameObject 64 4 (chars "B") true],
          [.newGameObject 48 5 (chars "E") false], [.destroyObjectWithTag 4], []] := by
  have reached := (Option.some_get threeObjects_made).symm
  exact ⟨_, reached, (loop_safe_iff [] [] threeObjects _ reached _).mpr (by decide)⟩

/-- A handler that destroys its own object's tag. -/
theorem not_loop_safe :
    ∃ e, runSteps step (Engine.start [] []) threeObjects = some e ∧
      ¬ Throughout iterate (Safe e) (start e) [[], [.destroyObjectWithTag 2]] := by
  refine ⟨_, (Option.some_get threeObjects_made).symm, fun all => ?_⟩
  exact (all _ (List.prefix_refl _) _ rfl).1 (by decide)

end UpdateLoop

end Ssuge.Engine

import Ssuge.EngineRuns

/-! Who holds a pointer to a game object, and whether the object is still there. No
destructor tells the holders, so a pointer dangles as soon as an object is removed
that a holder points to. The other ways are to register a pointer to no object of
the map, and a script's creation that throws after its buffer is visible. -/

namespace Ssuge.Engine

open CString Procedure GuardedRun

/-- The pointers that the input manager, the sound manager, the application and the
buffers of scripts hold; `none` is an indeterminate one. NULL is held by no one. -/
def held (e : Engine) : List (Option Ptr) :=
  e.mInputManager.mInputListeners.map some ++
    (if e.mListener = 0 then [] else [some e.mListener]) ++
    (if e.mActiveCamera = 0 then [] else [some e.mActiveCamera]) ++
    e.luaObjects.filterMap (Option.map LuaGameObject.mPtr)

def HoldersValid (e : Engine) : Prop :=
  ∀ pointer ∈ e.held, ∃ p ∈ e.mObjects.values, pointer = some p

def Unheld (e : Engine) (title : Name) : Prop :=
  ∀ p ∈ e.mObjects.find? title, some p ∉ e.held

def HasTag (e : Engine) (p : Ptr) (tag : Int32) : Prop :=
  (e.objects p).any fun o => getTag o = tag

def HoldersGuard (e : Engine) : Op → Prop
  | .luaNewGameObject address _ name _ => e.Fresh address → name ∉ e.sceneNodes
  | .removeGameObject title => e.Unheld title
  | .removeGameObjectByTag tag =>
      ∀ entry ∈ e.mObjects.entries, e.HasTag entry.2 tag → some entry.2 ∉ e.held
  | .addListener p => p ∈ e.mObjects.values
  | .setListener p => p = 0 ∨ p ∈ e.mObjects.values
  | _ => True

instance (e : Engine) (title : Name) : Decidable (e.Unheld title) :=
  Option.decidableForallMem (e.mObjects.find? title)

instance (e : Engine) (p : Ptr) (tag : Int32) : Decidable (e.HasTag p tag) :=
  inferInstanceAs (Decidable (_ = true))

instance (e : Engine) : (op : Op) → Decidable (e.HoldersGuard op)
  | .luaNewGameObject .. => inferInstanceAs (Decidable (_ → _))
  | .removeGameObject title => inferInstanceAs (Decidable (e.Unheld title))
  | .removeGameObjectByTag _ => inferInstanceAs (Decidable (∀ entry ∈ e.mObjects.entries, _))
  | .addListener _ => inferInstanceAs (Decidable (_ ∈ _))
  | .setListener _ => inferInstanceAs (Decidable (_ ∨ _))
  | .createGameObject .. | .createComponent .. | .removeListener _ | .luaInputRegister _
  | .setActiveCamera _ | .collect _ | .frame => isTrue trivial

variable {e e' : Engine}

theorem mem_held {pointer : Option Ptr} : pointer ∈ e.held ↔
    (∃ p ∈ e.mInputManager.mInputListeners, some p = pointer) ∨
      (e.mListener ≠ 0 ∧ pointer = some e.mListener) ∨
      (e.mActiveCamera ≠ 0 ∧ pointer = some e.mActiveCamera) ∨
      ∃ go, some go ∈ e.luaObjects ∧ go.mPtr = pointer := by
  simp only [held, List.mem_append, List.mem_map, List.mem_filterMap, Option.map_eq_some_iff,
    or_assoc]
  constructor
  · rintro (listener | listener | camera | ⟨buffer, member, go, rfl, same⟩)
    · exact .inl listener
    · split at listener <;> simp_all
    · split at camera <;> simp_all
    · exact .inr (.inr (.inr ⟨go, member, same⟩))
  · rintro (listener | ⟨nonzero, rfl⟩ | ⟨nonzero, rfl⟩ | ⟨go, member, same⟩)
    · exact .inl listener
    · exact .inr (.inl (by simp [nonzero]))
    · exact .inr (.inr (.inl (by simp [nonzero])))
    · exact .inr (.inr (.inr ⟨_, member, go, rfl, same⟩))

theorem SameHolders.held (same : SameHolders e e') : e'.held = e.held := by
  simp only [Engine.held, same.inputManager, same.listener, same.activeCamera, same.luaObjects]

theorem HoldersValid.mono (valid : e.HoldersValid) (fewer : ∀ h ∈ e'.held, h ∈ e.held)
    (more : ∀ p ∈ e.mObjects.values, p ∈ e'.mObjects.values) : e'.HoldersValid := by
  intro pointer holds
  obtain ⟨p, member, same⟩ := valid pointer (fewer pointer holds)
  exact ⟨p, more p member, same⟩

theorem HoldersValid.cons (valid : e.HoldersValid) {q : Ptr}
    (more : ∀ h ∈ e'.held, h ∈ e.held ∨ h = some q)
    (same : ∀ p ∈ e.mObjects.values, p ∈ e'.mObjects.values)
    (listed : q ∈ e'.mObjects.values) : e'.HoldersValid := by
  intro pointer holds
  rcases more pointer holds with before | rfl
  · obtain ⟨p, member, equal⟩ := valid pointer before
    exact ⟨p, same p member, equal⟩
  · exact ⟨q, listed, rfl⟩

theorem removals_holdersValid (h : e.WellFormed) {titles : List Name}
    (removals : Removals e titles e') (valid : e.HoldersValid) :
    e'.HoldersValid ↔ ∀ n ∈ titles, e.Unheld n := by
  rw [HoldersValid, removals.sameHolders.held]
  constructor
  · intro after n member p found holds
    obtain ⟨q, listed, same⟩ := after _ holds
    obtain rfl := Option.some.inj same
    obtain ⟨k, stored⟩ := (e'.mObjects.mem_values_iff p).mp listed
    rw [removals.find?] at stored
    split at stored
    · simp at stored
    next kept => exact kept (h.name_unique found stored ▸ member)
  · intro unheld pointer holds
    obtain ⟨p, listed, rfl⟩ := valid pointer holds
    obtain ⟨n, stored⟩ := (e.mObjects.mem_values_iff p).mp listed
    have kept : n ∉ titles := fun member => unheld n member p stored holds
    exact ⟨p, (e'.mObjects.mem_values_iff p).mpr ⟨n, by rw [removals.find?, if_neg kept, stored]⟩,
      rfl⟩

theorem values_withObject (h : e.WellFormed) (address : Ptr) (tag : UInt32) {title : Name}
    (free : title ∉ e.sceneNodes) :
    ∀ p ∈ e.mObjects.values, p ∈ (e.withObject address tag title).mObjects.values := by
  intro p listed
  obtain ⟨n, stored⟩ := (e.mObjects.mem_values_iff p).mp listed
  refine (OrderedMap.mem_values_iff ..).mpr ⟨n, ?_⟩
  rw [withObject_find?, if_neg, stored]
  rintro rfl
  exact free (h.stored n p stored).2.1

theorem address_withObject (address : Ptr) (tag : UInt32) (title : Name) :
    address ∈ (e.withObject address tag title).mObjects.values :=
  (OrderedMap.mem_values_iff ..).mpr ⟨title, by rw [withObject_find?, if_pos rfl]⟩

theorem held_withLuaObject (go : LuaGameObject) :
    (e.withLuaObject go).held = e.held ++ [go.mPtr] := by
  simp only [held, withLuaObject, List.filterMap_append, List.append_assoc]
  rfl

theorem holdersValid_addListener (valid : e.HoldersValid) (p : Ptr) :
    (e.withManager (e.mInputManager.addListener p).1).HoldersValid ↔
      p ∈ e.mObjects.values := by
  have listens : p ∈ (e.mInputManager.addListener p).1.mInputListeners := by
    rw [InputManager.addListener]
    split
    next already => exact already
    next absent => simp
  constructor
  · intro after
    obtain ⟨q, listed, same⟩ := after (some p) (mem_held.mpr (.inl ⟨p, listens, rfl⟩))
    exact Option.some.inj same ▸ listed
  · intro listed
    refine valid.cons (fun pointer holds => ?_) (fun _ member => member) listed
    rcases mem_held.mp holds with ⟨q, member, rfl⟩ | others
    · simp only [withManager, InputManager.addListener] at member
      split at member
      · exact .inl (mem_held.mpr (.inl ⟨q, member, rfl⟩))
      · rcases List.mem_append.mp member with before | last
        · exact .inl (mem_held.mpr (.inl ⟨q, before, rfl⟩))
        · exact .inr (congrArg some (List.mem_singleton.mp last))
    · exact .inl (mem_held.mpr (.inr others))

theorem holdersValid_removeListener (valid : e.HoldersValid) (p : Ptr) :
    (e.withManager (e.mInputManager.removeListener p).1).HoldersValid := by
  refine valid.mono (fun pointer holds => ?_) fun _ member => member
  rcases mem_held.mp holds with ⟨q, member, rfl⟩ | others
  · simp only [withManager, InputManager.removeListener] at member
    split at member
    · exact mem_held.mpr (.inl ⟨q, List.mem_of_mem_eraseIdx member, rfl⟩)
    · exact mem_held.mpr (.inl ⟨q, member, rfl⟩)
  · exact mem_held.mpr (.inr others)

theorem holdersValid_setListener (valid : e.HoldersValid) (p : Ptr) :
    ({ e with mListener := p } : Engine).HoldersValid ↔ p = 0 ∨ p ∈ e.mObjects.values := by
  constructor
  · intro after
    by_cases null : p = 0
    · exact .inl null
    · obtain ⟨q, listed, same⟩ := after (some p) (mem_held.mpr (.inr (.inl ⟨null, rfl⟩)))
      exact .inr (Option.some.inj same ▸ listed)
  · intro guard pointer holds
    rcases mem_held.mp holds with listener | ⟨nonzero, rfl⟩ | others
    · exact valid pointer (mem_held.mpr (.inl listener))
    · exact ⟨p, guard.resolve_left nonzero, rfl⟩
    · exact valid pointer (mem_held.mpr (.inr (.inr others)))

theorem holdersValid_collect (valid : e.HoldersValid) (userdata : Nat) :
    ({ e with luaObjects := e.luaObjects.set userdata none } : Engine).HoldersValid := by
  refine valid.mono (fun pointer holds => ?_) fun _ member => member
  rcases mem_held.mp holds with listener | sound | camera | ⟨go, member, same⟩
  · exact mem_held.mpr (.inl listener)
  · exact mem_held.mpr (.inr (.inl sound))
  · exact mem_held.mpr (.inr (.inr (.inl camera)))
  · have before : some go ∈ e.luaObjects :=
      (List.mem_or_eq_of_mem_set member).resolve_right (by simp)
    exact mem_held.mpr (.inr (.inr (.inr ⟨go, before, same⟩)))

theorem holdersValid_luaTaken : ¬ (e.withLuaObject ⟨none, none⟩).HoldersValid := by
  intro after
  obtain ⟨p, -, same⟩ := after none (by rw [held_withLuaObject]; simp)
  simp at same

theorem holdersValid_withScripted (h : e.WellFormed) (valid : e.HoldersValid) {address : Ptr}
    {tag : Int32} {name : Name} {hasScript : Bool} (free : name ∉ e.sceneNodes) :
    (e.withScripted address tag name hasScript).HoldersValid := by
  refine valid.cons (q := address) (fun pointer holds => ?_) ?_ ?_
  · have shape : (e.withScripted address tag name hasScript).held =
        (e.withLuaObject ⟨some address, some name⟩).held := rfl
    rw [shape, held_withLuaObject, List.mem_append, List.mem_singleton] at holds
    exact holds
  · exact values_withObject (h.withLuaObject ⟨some address, some name⟩) address tag.toUInt32 free
  · exact address_withObject (e := e.withLuaObject ⟨some address, some name⟩) address tag.toUInt32
      name

theorem taggedUnheld_iff (h : e.WellFormed) (tag : Int32) :
    (∀ n, e.Tagged tag n → e.Unheld n) ↔ e.HoldersGuard (.removeGameObjectByTag tag) := by
  constructor
  · rintro unheld ⟨n, p⟩ member tagged
    have found := (e.mObjects.mem_entries_iff n p).mp member
    obtain ⟨o, live, -⟩ := h.stored_object found
    exact unheld n ⟨p, o, found, live, by simpa [HasTag, live] using tagged⟩ p found
  · rintro guard n ⟨p, o, found, live, tagged⟩ q stored
    obtain rfl := Option.some.inj (found.symm.trans stored)
    exact guard (n, p) ((e.mObjects.mem_entries_iff n p).mpr found) (by simp [HasTag, live, tagged])

/-- One step: the pointers held stay valid exactly when the guard holds. -/
theorem step_holdersValid (h : e.WellFormed) (valid : e.HoldersValid) (op : Op) :
    (∀ e', step e op = some e' → e'.HoldersValid) ↔ e.HoldersGuard op := by
  have unchanged : ∀ {op : Op}, (∀ e', step e op = some e' → e'.HoldersValid) →
      e.HoldersGuard op = True → ((∀ e', step e op = some e' → e'.HoldersValid) ↔
        e.HoldersGuard op) := fun all trivially => iff_of_true all (by rw [trivially]; trivial)
  cases op with
  | createGameObject address tag title =>
      refine unchanged (fun e' returned => ?_) rfl
      cases step_effect h returned with
      | createTaken => exact valid
      | create fresh free =>
          exact valid.mono (fun _ holds => holds) (values_withObject h _ _ free)
  | luaNewGameObject address tag name hasScript =>
      constructor
      · intro all fresh taken
        exact holdersValid_luaTaken
          (all _ (by rw [step_luaNewGameObject h fresh, if_pos taken]))
      · intro guard e' returned
        cases step_effect h returned with
        | luaTaken fresh taken => exact absurd taken (guard fresh)
        | luaCreate fresh free => exact holdersValid_withScripted h valid free
  | createComponent t address owner =>
      refine unchanged (fun e' returned => ?_) rfl
      cases step_effect h returned with
      | componentTaken => exact valid
      | component fresh live => exact valid
  | removeGameObject title =>
      obtain ⟨titles, e₁, value, removals, names⟩ := step_removeGameObject h title
      simp only [value, Option.some.injEq, forall_eq', removals_holdersValid h removals valid,
        names]
      constructor
      · intro unheld p found
        exact unheld title ⟨rfl, p, found⟩ p found
      · rintro guard n ⟨rfl, -⟩
        exact guard
  | removeGameObjectByTag tag =>
      obtain ⟨titles, e₁, value, removals, names⟩ := step_removeGameObjectByTag h tag
      simp only [value, Option.some.injEq, forall_eq', removals_holdersValid h removals valid,
        names]
      exact taggedUnheld_iff h tag
  | addListener p =>
      simp only [step_addListener, Option.some.injEq, forall_eq']
      exact holdersValid_addListener valid p
  | removeListener p =>
      simp only [step_removeListener, Option.some.injEq, forall_eq']
      exact iff_of_true (holdersValid_removeListener valid p) trivial
  | luaInputRegister userdata =>
      refine unchanged (fun e' returned => ?_) rfl
      cases step_effect h returned with
      | luaInputRegister buffer ptr =>
          -- a buffer that a script passes holds a valid pointer already
          have member := List.mem_of_getElem? (Option.join_eq_some_iff.mp buffer)
          obtain ⟨q, listed, same⟩ :=
            valid _ (mem_held.mpr (.inr (.inr (.inr ⟨_, member, ptr⟩))))
          obtain rfl := Option.some.inj same
          exact (holdersValid_addListener valid _).mpr listed
  | setListener p =>
      simp only [step_setListener, Option.some.injEq, forall_eq']
      exact holdersValid_setListener valid p
  | setActiveCamera p =>
      refine unchanged (fun e' returned => ?_) rfl
      cases step_effect h returned
      exact valid
  | collect userdata =>
      refine unchanged (fun e' returned => ?_) rfl
      cases step_effect h returned
      exact holdersValid_collect valid userdata
  | frame =>
      refine unchanged (fun e' returned => ?_) rfl
      cases step_effect h returned
      exact valid

theorem start_holdersValid (sceneNodes cameras : List Name) :
    (start sceneNodes cameras).HoldersValid := by
  intro pointer holds
  simp [held, start, InputManager.constructed] at holds

/-- From an engine without objects on, over any operations: every held pointer is to an
object of the map in every state, if and only if no step removes an object that is
held, registers a pointer to no object, or creates a script's object under a taken
name. -/
theorem holdersValid_iff (sceneNodes cameras : List Name) (ops : List Op) :
    Throughout step HoldersValid (start sceneNodes cameras) ops ↔
      Along step HoldersGuard (start sceneNodes cameras) ops :=
  throughout_iff (I := WellFormed) (L := fun _ => True)
    (fun _ op h valid _ => step_holdersValid h valid op)
    (fun _ _ _ h _ _ _ returned => step_wellFormed h returned)
    (start_wellFormed sceneNodes cameras) (start_holdersValid sceneNodes cameras)
    (fun _ _ => trivial)

/-- A listener outlives its object. -/
theorem not_holdersValid :
    ¬ Throughout step HoldersValid (start [] [])
      [.createGameObject 16 1 (chars "Ninja"), .addListener 16,
        .removeGameObject (chars "Ninja")] := by
  intro all
  obtain ⟨p, listed, -⟩ := all _ (List.prefix_refl _) _ rfl (some 16) (by decide)
  exact List.not_mem_nil (show p ∈ [] from listed)

end Ssuge.Engine

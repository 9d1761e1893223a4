import Ssuge.ComponentFunctions
import Ssuge.GuardedRun
import Ssuge.Unaware

/-! What a disabled component still does. Only `update` asks whether a component is
enabled: `nodeUpdated` tells disabled components too, of which a physics component with a
small mass moves its body, and `exec` lets them do all that they can. A component that has
no functionality is one that the object would not miss. -/

namespace Ssuge.Components

open CString Procedure GuardedRun

variable {F V Q B : Type}

namespace World

def without (w : World F V Q B) (t : ComponentType) : World F V Q B := w.setComponent t none

def Unmoved (w : World F V Q B) : Prop := w.getTime = w.mOldTime

def Runs (w : World F V Q B) (t : ComponentType) : Prop :=
  ∃ c, w.mComponents t = some c ∧ getEnable t c = true

end World

/-- The operations in which a component acts. -/
def acting : ComponentType → List (List UInt8)
  | .mesh => [chars "loadMesh", chars "queueAnimation"]
  | .sound => [chars "loadSound"]
  | .camera => [chars "setFirstPerson", chars "setPosition", chars "setModelOrietation",
      chars "setRotationRates", chars "setNear"]
  | .physics => [chars "addForce", chars "addTorque", chars "loadBox", chars "loadSphere"]

def Reads (answers : Answers F V Q) (operation : List UInt8) (args : Message) :
    ComponentType → Prop
  | .sound => operation = chars "loadSound" ∧ answers.found = true ∧
      ∃ x, SoundComponent.getArguments args = .ok x
  | .physics => operation = chars "loadBox" ∨ operation = chars "loadSphere"
  | _ => False

/-- The object is notified of a transform on the way. -/
def Op.Notifies (w : World F V Q B) : Op F V Q B → Prop
  | .update input => input.stale = true ∧ w.Runs .sound
  | .nodeUpdated _ => True
  | .exec answers t operation args => answers.stale = true ∧ Reads answers operation args t
  | _ => False

/-- A component of which `exec` is to make something. -/
def Op.Employs (t : ComponentType) : Op F V Q B → Prop
  | .exec _ slot operation _ => slot = t ∧ operation ∈ acting t
  | _ => False

def Op.Leaves (t : ComponentType) : Op F V Q B → Prop
  | .createComponent slot _ => slot ≠ t
  | .enableComponent slot b => slot = t → b = false
  | _ => True

section deaf

variable [Scalar F]

def Deaf : (t : ComponentType) → Of F V Q B t → Prop
  | .physics, c => ∃ mass, c.Cmass = some mass ∧ ¬ mass < 1
  | _, _ => True

/-- The condition on a step: the component in the slot is not asked to do something, and is
not told of a transform, or does nothing about it. -/
structure Guard (t : ComponentType) (w : World F V Q B) (op : Op F V Q B) : Prop where
  idle : ¬ op.Employs t
  deaf : op.Notifies w → ∀ c, w.mComponents t = some c → Deaf t c ∨ w.Unmoved

end deaf

/-- The component but for what disabling it again and Bullet may change: whether the entity
is visible, and where the body is. -/
def resting : (t : ComponentType) → Of F V Q B t → Of F V Q B t
  | .mesh, c => { c with mEntity := c.mEntity.map fun entity => { entity with visible := false } }
  | .physics, c => { c with mMotionState := none, mBody := none }
  | .sound, c => c
  | .camera, c => c

def Still (t : ComponentType) (c : Of F V Q B t) (w : World F V Q B) : Prop :=
  (w.mComponents t).map (resting t) = some (resting t c)

section steps

variable [Scalar F] [Vectorial V]
variable (lib : Library F V Q B)

/-- The step does what it would do without the component, which stays as it is. -/
def Masked (t : ComponentType) (c : Of F V Q B t) (w : World F V Q B) (op : Op F V Q B) : Prop :=
  step lib w op = (step lib (w.without t) op).map fun w' => w'.setComponent t (some c)

/-- The component has no part in the step: `exec` on it changes nothing, and `update`,
`nodeUpdated` and `exec` on another component do not depend on it or change it. -/
def Inert (t : ComponentType) (w : World F V Q B) (op : Op F V Q B) : Prop :=
  ∀ c, w.mComponents t = some c →
    match op with
    | .update _ => Masked lib t c w op
    | .nodeUpdated _ => Masked lib t c w op
    | .exec _ slot _ _ => if slot = t then step lib w op = some w else Masked lib t c w op
    | _ => True

end steps

section unaware

variable {t : ComponentType} {c : Of F V Q B t} {J : World F V Q B → Prop}

/-- The slot is empty, and something else holds that lasts. -/
def Hidden (t : ComponentType) (J : World F V Q B → Prop) (w : World F V Q B) : Prop :=
  w.mComponents t = none ∧ J w

def reveal (t : ComponentType) (c : Of F V Q B t) (w : World F V Q B) : World F V Q B :=
  w.setComponent t (some c)

/-- The procedure does the same whether the component is in its slot or not. -/
abbrev Blind {α : Type} (c : Of F V Q B t) (J : World F V Q B → Prop)
    (p : WorldProc F V Q B α) : Prop := Unaware (Hidden t J) (reveal t c) p

theorem setComponent_of_ne {t' : ComponentType} (other : t' ≠ t) (w : World F V Q B)
    (x : Option (Of F V Q B t)) : (w.setComponent t x).mComponents t' = w.mComponents t' :=
  Function.update_of_ne other _ _

theorem setComponent_self (w : World F V Q B) (x : Option (Of F V Q B t)) :
    (w.setComponent t x).mComponents t = x := Function.update_self t _ _

theorem put_reveal {t' : ComponentType} (other : t' ≠ t) (w : World F V Q B)
    (held : Of F V Q B t' × Around F V Q) :
    World.put t' (reveal t c w) held = reveal t c (World.put t' w held) := by
  have swapped := Function.update_comm other (some held.1) (some c) w.mComponents
  simp only [World.put, reveal, World.setComponent, swapped]

theorem blind_onComponent {α : Type} {t' : ComponentType} (other : t' ≠ t)
    (lasts : ∀ w held, J w → J (World.put t' w held))
    (p : ComponentProc F V Q (Of F V Q B t') α) : Blind c J (onComponent t' p) := by
  refine unaware_get (fun w _ => ?_) fun w _ => ?_
  · rw [reveal, setComponent_of_ne other]
  refine (unaware_orStop _ _).bind fun c' => unaware_within p ?_ (fun _ _ => rfl) ?_
  · rintro w held ⟨empty, holds⟩
    refine ⟨?_, lasts w held holds⟩
    exact (Function.update_of_ne other.symm _ _).trans empty
  · exact fun w held _ => put_reveal other w held

theorem onComponent_returned {α : Type} {w : World F V Q B} (slot : w.mComponents t = some c)
    {p : ComponentProc F V Q (Of F V Q B t) α} {a : α} {held : Of F V Q B t × Around F V Q}
    (run : p.run (c, w.around) = .returned a held) :
    (onComponent t p).run w = .returned a (World.put t w held) := by
  rw [onComponent, bind_get_run, slot, bind_some_run, within_run, run]

theorem blind_ofEval {α : Type} (x : Eval α) : Blind c J (ofEval x) := by
  rcases x with (description | _) | a
  · exact unaware_stop _
  · exact unaware_stop _
  · exact unaware_pure a

theorem blind_modify {g : World F V Q B → World F V Q B}
    (same : ∀ w, (g w).mComponents = w.mComponents) (lasts : ∀ w, J w → J (g w))
    (apart : ∀ w, g (reveal t c w) = reveal t c (g w)) : Blind c J (modify g) := by
  refine unaware_modify ?_ fun w _ => apart w
  rintro w ⟨empty, holds⟩
  exact ⟨by rw [same w, empty], lasts w holds⟩

theorem blind_setActiveCamera (other : .camera ≠ t) : Blind c J setActiveCamera := by
  refine unaware_get (fun w _ => ?_) fun w _ => ?_
  · rw [reveal, setComponent_of_ne other]
  split
  · exact unaware_pure _
  · exact unaware_pure _

end unaware

section transforms

variable [Scalar F] [Vectorial V]
variable (lib : Library F V Q B) {t : ComponentType} {c : Of F V Q B t}

theorem onTransform_deaf (deaf : Deaf t c) (n : DerivedTransform V Q) (w : World F V Q B) :
    (onTransform lib n t).run (reveal t c w) = .returned ⟨⟩ (reveal t c w) := by
  cases t with
  | mesh => rfl
  | sound => rfl
  | camera => rfl
  | physics =>
      obtain ⟨mass, set, heavy⟩ := deaf
      have quiet : (PhysicsComponent.onTransform lib n).run (c, w.around) =
          .returned ⟨⟩ (c, w.around) := by
        rw [PhysicsComponent.onTransform, bind_get_run]
        simp only [set, bind_some_run, if_neg heavy, pure_run]
      have again : World.put .physics (reveal .physics c w) (c, w.around) =
          reveal .physics c w := by
        simp only [World.put, reveal, World.setComponent, Function.update_idem]
      refine (onComponent_returned (setComponent_self w (some c)) quiet).trans ?_
      exact congrArg (Ending.returned PUnit.unit) again

theorem blind_transformSlot (deaf : Deaf t c) (n : DerivedTransform V Q) (t' : ComponentType) :
    Blind c (fun _ => True) (transformSlot lib n t') := by
  rcases eq_or_ne t' t with rfl | other
  · refine ⟨?_, ?_⟩ <;> rintro w ⟨empty, holds⟩
    · rw [transformSlot, bind_get_run, empty]
      exact ⟨empty, holds⟩
    · rw [transformSlot, bind_get_run, bind_get_run, empty, reveal, setComponent_self]
      exact onTransform_deaf lib deaf n w
  · refine unaware_get (fun w _ => ?_) fun w _ => ?_
    · rw [reveal, setComponent_of_ne other]
    split
    · cases t' with
      | physics => exact blind_onComponent other (fun _ _ holds => holds) _
      | _ => exact unaware_pure _
    · exact unaware_pure _

theorem blind_transformSlots (deaf : Deaf t c) (n : DerivedTransform V Q)
    (ts : List ComponentType) : Blind c (fun _ => True) (transformSlots lib n ts) := by
  induction ts with
  | nil => exact unaware_pure _
  | cons t' ts ih => exact (blind_transformSlot lib deaf n t').bind fun _ => ih

theorem blind_nodeUpdated (deaf : Deaf t c) (n : DerivedTransform V Q) :
    Blind c (fun _ => True) (nodeUpdated lib n) := by
  apply Unaware.bind
  · exact blind_modify (fun _ => rfl) (fun _ => id) fun _ => rfl
  refine fun _ => unaware_get (fun _ _ => rfl) fun w _ => ?_
  let dT := w.getTime - w.mOldTime
  change Blind c _ (if dT ≠ 0 then passOn lib n dT else pure ())
  split
  · refine unaware_get (fun _ _ => rfl) fun w _ => ?_
    apply Unaware.bind
    · exact blind_modify (fun _ => rfl) (fun _ => id) fun _ => rfl
    refine fun _ => (blind_transformSlots lib deaf n slots).bind fun _ => ?_
    exact blind_modify (fun _ => rfl) (fun _ => id) fun _ => rfl
  · exact unaware_pure _

theorem blind_unmoved (n : DerivedTransform V Q) : Blind c World.Unmoved (nodeUpdated lib n) := by
  apply Unaware.bind
  · exact blind_modify (fun _ => rfl) (fun _ => id) fun _ => rfl
  refine fun _ => unaware_get (fun _ _ => rfl) fun w start => ?_
  have stopped : w.getTime - w.mOldTime = 0 := by rw [start.2, Int32.sub_self]
  rw [if_neg (not_not_intro stopped)]
  exact unaware_pure _

end transforms

section routes

variable [Scalar F] [Vectorial V]
variable (lib : Library F V Q B) {t : ComponentType} {c : Of F V Q B t}
variable {J : World F V Q B → Prop}

theorem blind_readDerived {n : DerivedTransform V Q} {stale : Bool}
    (heard : stale = true → Blind c J (nodeUpdated lib n)) :
    Blind c J (readDerived lib n stale) := by
  rw [readDerived]
  split
  · next notified => exact heard notified
  · exact unaware_pure _

theorem blind_updateSlot (disabled : getEnable t c = false) {input : FrameInput F V Q}
    {t' : ComponentType}
    (each : ∀ w, J w → w.Runs t' → t' ≠ t → Blind c J (updateComponent lib input t')) :
    Blind c J (updateSlot lib input t') := by
  rcases eq_or_ne t' t with rfl | other
  · refine unaware_get (fun w start => ?_) fun w start => ?_
    · have gated : ¬ getEnable t' c = true := by rw [disabled]; decide
      simp only [reveal, setComponent_self, start.1, if_neg gated]
    · simp only [start.1]
      exact unaware_pure _
  · refine unaware_get (fun w _ => ?_) fun w start => ?_
    · rw [reveal, setComponent_of_ne other]
    cases slot : w.mComponents t' with
    | none => exact unaware_pure _
    | some c' =>
        by_cases enabled : getEnable t' c' = true
        · simp only [if_pos enabled]
          exact each w start.2 ⟨c', slot, enabled⟩ other
        · simp only [if_neg enabled]
          exact unaware_pure _

theorem blind_updateSlots (disabled : getEnable t c = false) {input : FrameInput F V Q}
    (each : ∀ t' w, J w → w.Runs t' → t' ≠ t → Blind c J (updateComponent lib input t'))
    (ts : List ComponentType) : Blind c J (updateSlots lib input ts) := by
  induction ts with
  | nil => exact unaware_pure _
  | cons t' ts ih => exact (blind_updateSlot lib disabled (each t')).bind fun _ => ih

theorem blind_update (disabled : getEnable t c = false) {input : FrameInput F V Q}
    (around : ∀ w a, J w → J { w with around := a })
    (lasts : ∀ t', t' ≠ .sound → ∀ w held, J w → J (World.put t' w held))
    (sound : ∀ w, J w → w.Runs .sound → .sound ≠ t →
      Blind c J (updateComponent lib input .sound)) : Blind c J (update lib input) := by
  apply Unaware.bind
  · exact blind_modify (fun _ => rfl) (fun w => around w _) fun _ => rfl
  refine fun _ => blind_updateSlots lib disabled (fun t' w holds runs other => ?_) slots
  cases t' with
  | mesh => exact blind_onComponent other (lasts .mesh (by decide)) _
  | sound => exact sound w holds runs other
  | camera => exact blind_onComponent other (lasts .camera (by decide)) _
  | physics => exact blind_onComponent other (lasts .physics (by decide)) _

section exec

variable {answers : Answers F V Q} {operation : List UInt8} {args : Message}

omit [Vectorial V] in
theorem MeshComponent.blind_execute (other : .mesh ≠ t)
    (lasts : ∀ w held, J w → J (World.put .mesh w held)) :
    Blind c J (MeshComponent.execute lib answers operation args) := by
  unfold MeshComponent.execute
  split_ifs
  · exact (blind_ofEval _).bind fun _ => blind_onComponent other lasts _
  · refine (blind_ofEval _).bind fun _ => (blind_ofEval _).bind fun _ => ?_
    refine (blind_ofEval _).bind fun _ => (blind_ofEval _).bind fun _ => ?_
    exact blind_onComponent other lasts _
  · exact unaware_pure _

theorem SoundComponent.blind_execute (other : .sound ≠ t)
    (lasts : ∀ w held, J w → J (World.put .sound w held))
    (heard : Reads answers operation args .sound →
      Blind c J (readDerived lib answers.derived answers.stale)) :
    Blind c J (SoundComponent.execute lib answers operation args) := by
  unfold SoundComponent.execute
  split_ifs with named
  · cases read : SoundComponent.getArguments args with
    | error e =>
        cases e with
        | thrown description => exact unaware_stop _
        | undefined => exact unaware_stop _
    | ok x =>
        apply Unaware.bind (unaware_pure x)
        rintro ⟨res_name, looped, enableSFX⟩
        refine (blind_onComponent other lasts _).bind fun _ => ?_
        split_ifs with found
        · exact (heard ⟨named, found, x, read⟩).bind fun _ => blind_onComponent other lasts _
        · exact unaware_pure _
  · exact unaware_pure _

omit [Scalar F] [Vectorial V] in
theorem CameraComponent.blind_execute (other : .camera ≠ t)
    (lasts : ∀ w held, J w → J (World.put .camera w held)) :
    Blind c J (CameraComponent.execute lib operation args) := by
  unfold CameraComponent.execute
  split_ifs
  · exact (blind_ofEval _).bind fun _ => blind_onComponent other lasts _
  · exact (blind_ofEval _).bind fun _ => blind_onComponent other lasts _
  · refine (blind_ofEval _).bind fun _ => (blind_ofEval _).bind fun _ => ?_
    exact blind_onComponent other lasts _
  · refine (blind_ofEval _).bind fun _ => (blind_ofEval _).bind fun _ => ?_
    exact (blind_ofEval _).bind fun _ => blind_onComponent other lasts _
  · exact (blind_ofEval _).bind fun _ => blind_onComponent other lasts _
  · exact (blind_setActiveCamera other).bind fun _ => unaware_pure _
  · exact unaware_pure _

theorem PhysicsComponent.blind_execute (other : .physics ≠ t)
    (lasts : ∀ w held, J w → J (World.put .physics w held))
    (heard : Reads answers operation args .physics →
      Blind c J (readDerived lib answers.derived answers.stale)) :
    Blind c J (PhysicsComponent.execute lib answers operation args) := by
  unfold PhysicsComponent.execute
  split_ifs with force torque box sphere
  · exact (blind_ofEval _).bind fun _ => blind_onComponent other lasts _
  · exact (blind_ofEval _).bind fun _ => blind_onComponent other lasts _
  · refine (blind_ofEval _).bind fun _ => (blind_ofEval _).bind fun _ => ?_
    refine (blind_ofEval _).bind fun _ => (blind_onComponent other lasts _).bind fun _ => ?_
    exact (heard (.inl box)).bind fun _ => blind_onComponent other lasts _
  · refine (blind_ofEval _).bind fun _ => (blind_ofEval _).bind fun _ => ?_
    refine (blind_ofEval _).bind fun _ => (blind_onComponent other lasts _).bind fun _ => ?_
    exact (heard (.inr sphere)).bind fun _ => blind_onComponent other lasts _
  · exact unaware_pure _

theorem blind_exec {slot : ComponentType} (other : slot ≠ t)
    (lasts : ∀ w held, J w → J (World.put slot w held))
    (heard : Reads answers operation args slot →
      Blind c J (readDerived lib answers.derived answers.stale)) :
    Blind c J (exec lib answers slot operation args) := by
  refine unaware_get (fun w _ => ?_) fun w _ => (unaware_orStop _ _).bind fun _ => ?_
  · rw [reveal, setComponent_of_ne other]
  cases slot with
  | mesh => exact MeshComponent.blind_execute lib other lasts
  | sound => exact SoundComponent.blind_execute lib other lasts heard
  | camera => exact CameraComponent.blind_execute lib other lasts
  | physics => exact PhysicsComponent.blind_execute lib other lasts heard

end exec

theorem blind_createComponent {slot : ComponentType} (other : slot ≠ t)
    (created : Bool) : Blind c (fun _ => True) (createComponent lib slot created) := by
  refine (unaware_require _ _).bind fun _ => unaware_modify ?_ fun w _ => ?_
  · rintro w ⟨empty, -⟩
    exact ⟨(setComponent_of_ne other.symm w _).trans empty, trivial⟩
  · exact put_reveal other w (newComponent lib slot, w.around)

omit [Scalar F] [Vectorial V] in
theorem blind_enableComponent {slot : ComponentType} (other : slot ≠ t) (b : Bool) :
    Blind c (fun _ => True) (enableComponent slot b) := by
  refine unaware_get (fun w _ => ?_) fun w _ => ?_
  · rw [reveal, setComponent_of_ne other]
  split
  · exact blind_onComponent other (fun _ _ => id) _
  · exact unaware_pure _

theorem exec_idle {w : World F V Q B} (slot : w.mComponents t = some c)
    (disabled : getEnable t c = false) {answers : Answers F V Q} {operation : List UInt8}
    {args : Message} (idle : operation ∉ acting t) :
    step lib w (.exec answers t operation args) = some w := by
  have quiet : (execute lib answers t operation args).run w = .returned ⟨⟩ w := by
    cases t with
    | mesh =>
        simp only [acting, List.mem_cons, List.not_mem_nil, or_false, not_or] at idle
        rw [execute, MeshComponent.execute, if_neg idle.1, if_neg idle.2, pure_run]
    | sound =>
        simp only [acting, List.mem_singleton] at idle
        rw [execute, SoundComponent.execute, if_neg idle, pure_run]
    | camera =>
        simp only [acting, List.mem_cons, List.not_mem_nil, or_false, not_or] at idle
        obtain ⟨firstPerson, position, orientation, rates, near⟩ := idle
        rw [execute, CameraComponent.execute, if_neg firstPerson, if_neg position,
          if_neg orientation, if_neg rates, if_neg near]
        split
        · rw [setActiveCamera, bind_of_returned (a := 1) (t := w)]
          · rfl
          · rw [bind_get_run, slot]
            exact congrArg (fun n => Ending.returned n w) (if_pos disabled)
        · rfl
    | physics =>
        simp only [acting, List.mem_cons, List.not_mem_nil, or_false, not_or] at idle
        obtain ⟨force, torque, box, sphere⟩ := idle
        rw [execute, PhysicsComponent.execute, if_neg force, if_neg torque, if_neg box,
          if_neg sphere, pure_run]
  have whole : (exec lib answers t operation args).run w = .returned ⟨⟩ w := by
    rw [exec, bind_get_run, slot, bind_some_run, quiet]
  exact congrArg (Ending.resumes Stop.caught) whole

omit [Scalar F] [Vectorial V] in
theorem reveal_without {w : World F V Q B} (slot : w.mComponents t = some c) :
    reveal t c (w.without t) = w := by
  have filled : Function.update w.mComponents t (some c) = w.mComponents :=
    slot ▸ Function.update_eq_self t w.mComponents
  simp only [reveal, World.without, World.setComponent, Function.update_idem, filled]

theorem masked_of_blind {w : World F V Q B} {op : Op F V Q B}
    (slot : w.mComponents t = some c) (blind : Blind c J (op.run lib)) (holds : J (w.without t)) :
    Masked lib t c w op := by
  have same := blind.same (w.without t) ⟨setComponent_self w none, holds⟩
  rw [reveal_without slot] at same
  rw [Masked, step, same, Ending.mapState_resumes]
  rfl

/-- What a step does to the surroundings and to other slots does not end it. -/
structure Lasting (J : World F V Q B → Prop) : Prop where
  around : ∀ w a, J w → J { w with around := a }
  put : ∀ t w held, J w → J (World.put t w held)

omit [Scalar F] [Vectorial V] in
theorem lasting_true : Lasting fun _ : World F V Q B => True := ⟨fun _ _ => id, fun _ _ _ => id⟩

omit [Scalar F] [Vectorial V] in
theorem lasting_unmoved : Lasting (World.Unmoved (F := F) (V := V) (Q := Q) (B := B)) :=
  ⟨fun _ _ => id, fun _ _ _ => id⟩

/-- Reading where the node is does not reach a component that would do nothing about a
transform, or is not told. -/
theorem exists_lasting {w : World F V Q B} {n : DerivedTransform V Q} {stale : Bool}
    (hears : stale = true → Deaf t c ∨ w.Unmoved) :
    ∃ J, Lasting J ∧ J (w.without t) ∧ Blind c J (readDerived lib n stale) := by
  by_cases notified : stale = true
  · rcases hears notified with deaf | unmoved
    · refine ⟨fun _ => True, lasting_true, trivial, ?_⟩
      exact blind_readDerived lib fun _ => blind_nodeUpdated lib deaf n
    · refine ⟨World.Unmoved, lasting_unmoved, unmoved, ?_⟩
      exact blind_readDerived lib fun _ => blind_unmoved lib n
  · refine ⟨fun _ => True, lasting_true, trivial, ?_⟩
    exact blind_readDerived lib fun now => absurd now notified

theorem masked_nodeUpdated {w : World F V Q B} (slot : w.mComponents t = some c)
    {n : DerivedTransform V Q} (hears : Deaf t c ∨ w.Unmoved) :
    Masked lib t c w (.nodeUpdated n) := by
  rcases hears with deaf | unmoved
  · exact masked_of_blind lib slot (blind_nodeUpdated lib deaf n) trivial
  · exact masked_of_blind lib slot (blind_unmoved lib n) unmoved

theorem masked_update {w : World F V Q B} (slot : w.mComponents t = some c)
    (disabled : getEnable t c = false) {input : FrameInput F V Q}
    (hears : input.stale = true → w.Runs .sound → Deaf t c ∨ w.Unmoved) :
    Masked lib t c w (.update input) := by
  by_cases runs : w.Runs .sound
  · obtain ⟨J, lasting, holds, heard⟩ := exists_lasting lib (n := input.derived)
      fun stale => hears stale runs
    refine masked_of_blind lib slot (blind_update lib disabled lasting.around
      (fun t' _ => lasting.put t') fun _ _ _ other => ?_) holds
    exact heard.bind fun _ => blind_onComponent other (lasting.put .sound) _
  · have kept : ∀ t', t' ≠ .sound → ∀ (w : World F V Q B) held,
        ¬ w.Runs .sound → ¬ (World.put t' w held).Runs .sound := by
      rintro t' other w held idle ⟨c', slot', enabled⟩
      refine idle ⟨c', ?_, enabled⟩
      exact (setComponent_of_ne other.symm w (some held.1)).symm.trans slot'
    refine masked_of_blind lib slot (blind_update lib disabled (J := fun w => ¬ w.Runs .sound)
      (fun _ _ => id) kept fun w idle now _ => absurd now idle) ?_
    rintro ⟨c', slot', enabled⟩
    rcases eq_or_ne .sound t with rfl | other
    · rw [World.without, setComponent_self] at slot'
      cases slot'
    · rw [World.without, setComponent_of_ne other] at slot'
      exact runs ⟨c', slot', enabled⟩

theorem masked_exec {w : World F V Q B} (slot : w.mComponents t = some c)
    {answers : Answers F V Q} {t' : ComponentType} (other : t' ≠ t) {operation : List UInt8}
    {args : Message}
    (hears : answers.stale = true → Reads answers operation args t' → Deaf t c ∨ w.Unmoved) :
    Masked lib t c w (.exec answers t' operation args) := by
  by_cases reads : Reads answers operation args t'
  · obtain ⟨J, lasting, holds, heard⟩ := exists_lasting lib (n := answers.derived)
      fun stale => hears stale reads
    exact masked_of_blind lib slot (blind_exec lib other (lasting.put t') fun _ => heard) holds
  · refine masked_of_blind lib slot (J := fun _ => True) ?_ trivial
    exact blind_exec lib other (lasting_true.put t') fun now => absurd now reads

theorem inert_of_guard {w : World F V Q B} (slot : w.mComponents t = some c)
    (disabled : getEnable t c = false) {op : Op F V Q B} (guard : Guard t w op) :
    Inert lib t w op := by
  intro c' slot'
  obtain rfl : c = c' := Option.some.inj (slot.symm.trans slot')
  have hears : op.Notifies w → Deaf t c ∨ w.Unmoved := fun now => guard.deaf now c slot
  cases op with
  | update input => exact masked_update lib slot disabled fun stale runs => hears ⟨stale, runs⟩
  | nodeUpdated n => exact masked_nodeUpdated lib slot (hears trivial)
  | exec answers t' operation args =>
      rcases eq_or_ne t' t with rfl | other
      · simp only [if_true]
        exact exec_idle lib slot disabled fun named => guard.idle ⟨rfl, named⟩
      · simp only [if_neg other]
        exact masked_exec lib slot other fun stale reads => hears ⟨stale, reads⟩
  | _ => trivial

theorem Masked.slot {w w' : World F V Q B} {op : Op F V Q B} (masked : Masked lib t c w op)
    (returned : step lib w op = some w') : w'.mComponents t = some c := by
  rw [masked, Option.map_eq_some_iff] at returned
  obtain ⟨v, -, rfl⟩ := returned
  exact setComponent_self v (some c)

omit [Scalar F] [Vectorial V] in
theorem resting_getEnable {c' : Of F V Q B t} (same : resting t c' = resting t c) :
    getEnable t c' = getEnable t c := by
  have enable : ∀ x : Of F V Q B t, getEnable t (resting t x) = getEnable t x := by
    cases t <;> exact fun _ => rfl
  rw [← enable c', same, enable]

omit [Scalar F] [Vectorial V] in
theorem still_put (w : World F V Q B) (around : Around F V Q) {c' : Of F V Q B t}
    (same : resting t c' = resting t c) : Still t c (World.put t w (c', around)) :=
  (congrArg (Option.map (resting t)) (setComponent_self w (some c'))).trans (congrArg some same)

theorem disable_again {w w' : World F V Q B} (slot : w.mComponents t = some c)
    (disabled : getEnable t c = false)
    (returned : step lib w (.enableComponent t false) = some w') : Still t c w' := by
  have called : (enableComponent t false).run w = (onComponent t (setEnable false t)).run w := by
    rw [enableComponent, bind_get_run, slot]
    rfl
  rw [step, Op.run, called, onComponent, bind_get_run, slot, bind_some_run, within_run] at returned
  cases t with
  | mesh =>
      obtain ⟨enable, entity, current, next, forward, total, cur, looping⟩ := c
      cases entity with
      | none => cases returned
      | some entity =>
          obtain rfl := Option.some.inj returned
          obtain rfl : enable = false := disabled
          exact still_put w _ rfl
  | sound =>
      obtain rfl := Option.some.inj returned
      obtain ⟨enable, sound⟩ := c
      obtain rfl : enable = false := disabled
      exact still_put w _ rfl
  | camera =>
      obtain rfl := Option.some.inj returned
      obtain ⟨enable, camera, forward, right, ahead, back, strafe, person, yaw, pitch⟩ := c
      obtain rfl : enable = false := disabled
      exact still_put w _ rfl
  | physics =>
      obtain rfl := Option.some.inj returned
      obtain ⟨enable, mass, offset, shape, state, body⟩ := c
      obtain rfl : enable = false := disabled
      exact still_put w _ rfl

theorem still_step {w w' : World F V Q B} (still : Still t c w)
    (disabled : getEnable t c = false) {op : Op F V Q B} (leaves : op.Leaves t)
    (guard : Guard t w op) (returned : step lib w op = some w') : Still t c w' := by
  obtain ⟨c', slot, same⟩ := Option.map_eq_some_iff.mp still
  have disabled' : getEnable t c' = false := (resting_getEnable same).trans disabled
  have kept : w'.mComponents t = some c' → Still t c w' := fun there => by
    rw [Still, there, ← same]
    rfl
  have inert := inert_of_guard lib slot disabled' guard c' slot
  cases op with
  | tick ticks =>
      obtain rfl := Option.some.inj returned
      exact kept slot
  | elsewhere around =>
      obtain rfl := Option.some.inj returned
      exact kept slot
  | simulate motionState body =>
      obtain rfl := Option.some.inj returned
      rcases eq_or_ne t .physics with rfl | other
      · rw [Still, ← same, setComponent_self, slot]
        rfl
      · exact kept ((setComponent_of_ne other w _).trans slot)
  | createComponent t' created =>
      have masked : Masked lib t c' w (.createComponent t' created) :=
        masked_of_blind lib slot (blind_createComponent lib leaves created) trivial
      exact kept (masked.slot lib returned)
  | enableComponent t' b =>
      rcases eq_or_ne t' t with rfl | other
      · obtain rfl : b = false := leaves rfl
        rw [Still, ← same]
        exact disable_again lib slot disabled' returned
      · have masked : Masked lib t c' w (.enableComponent t' b) :=
          masked_of_blind lib slot (blind_enableComponent other b) trivial
        exact kept (masked.slot lib returned)
  | update input => exact kept (Masked.slot lib inert returned)
  | nodeUpdated n => exact kept (Masked.slot lib inert returned)
  | exec answers t' operation args =>
      by_cases own : t' = t
      · simp only [if_pos own] at inert
        obtain rfl := Option.some.inj (inert.symm.trans returned)
        exact kept slot
      · simp only [if_neg own] at inert
        exact kept (Masked.slot lib inert returned)

/-- Along a run in which nothing reaches a disabled component that is not gated, the
component has no part in any step, and is still there. -/
theorem disabled_inert {w : World F V Q B} (slot : w.mComponents t = some c)
    (disabled : getEnable t c = false) {ops : List (Op F V Q B)}
    (leaves : ∀ op ∈ ops, op.Leaves t) (guarded : Along (step lib) (Guard t) w ops) :
    Along (step lib) (Inert lib t) w ops ∧ Throughout (step lib) (Still t c) w ops := by
  refine along_throughout (fun v op still _ guard => ?_) (fun v op v' still left guard returned =>
    still_step lib still disabled left guard returned) ?_ leaves guarded
  · obtain ⟨c', there, same⟩ := Option.map_eq_some_iff.mp still
    exact inert_of_guard lib there ((resting_getEnable same).trans disabled) guard
  · rw [Still, slot]
    rfl

end routes

section line

local instance : Scalar ℤ where
  decidableLT := inferInstance
  decidableLE := inferInstance

local instance : Vectorial ℤ where

def line : Library ℤ ℤ ℤ (ℤ × ℤ) where
  real x := x.bits.toNat
  vector x _ _ := x
  scale v x := v * x
  quarter := 0
  unitX := 1
  unitY := 0
  negativeUnitZ := 0
  degrees angle _ := angle
  radians angle _ := angle
  getPitch q := q
  rotateNode q turn := q + turn
  rotateCamera q turn := q + turn
  translate n d := n.position + d
  convertLocalToWorldPosition n offset := n.position + offset
  perSecond way dT := way / dT.toInt
  setTimePosition a time := { a with timePosition := time }
  newCamera := ⟨0, 0, 100⟩
  calculateLocalInertia _ _ := 0
  newBody _ transform _ _ := transform
  setWorldTransform _ transform := transform
  applyForce body force _ := (body.1 + force, body.2)
  applyTorqueImpulse body torque := (body.1, body.2 + torque)

def boxCamera : CameraComponent ℤ ℤ ℤ := { CameraComponent.constructed line with mEnable := false }

/-- An object with a disabled camera and a disabled box of mass zero, 20 ms after its
construction. -/
def boxWorld : World ℤ ℤ ℤ (ℤ × ℤ) where
  mLastTick := 20
  mOldTime := 0
  mNewTime := none
  around := ⟨chars "Box", ⟨0, 0⟩, none, none, none, none, 0, .missing⟩
  mComponents
    | .camera => some boxCamera
    | .physics => some ⟨false, some 0, 0, some (.box 1), some (0, 0), some (0, 0)⟩
    | _ => none

def nearArgs : Message := ((Message.initialized.addFloat ⟨2⟩).value).getD .initialized

def noAnswers : Answers ℤ ℤ ℤ := ⟨none, false, ⟨0, 0⟩, false⟩

/-- A frame with a stale node, and a script that activates the camera. -/
def boxOps : List (Op ℤ ℤ ℤ (ℤ × ℤ)) :=
  [.update ⟨20, false, 0, 1, 1, 1, 1, ⟨0, 0⟩, true⟩,
    .exec noAnswers .camera (chars "activate") nearArgs]

theorem disabled_inert_box : Along (step line) (Inert line .camera) boxWorld boxOps ∧
    Throughout (step line) (Still .camera boxCamera) boxWorld boxOps := by
  refine disabled_inert line (t := .camera) (c := boxCamera) rfl rfl ?_ ?_
  · simp only [boxOps, List.mem_cons, List.not_mem_nil, or_false]
    rintro op (rfl | rfl) <;> trivial
  · refine ⟨⟨id, fun _ _ _ => .inl trivial⟩, fun w _ => ⟨⟨?_, fun _ _ _ => .inl trivial⟩, ?_⟩⟩
    · rintro ⟨-, named⟩
      exact absurd named (by decide)
    · exact fun _ _ => trivial

/-- A script sets the near distance of a camera that is disabled, and a disabled box follows
the node. -/
theorem not_disabled_inert :
    (boxWorld.mComponents .camera).map (getEnable .camera) = some false ∧
      ¬ Along (step line) (Inert line .camera) boxWorld
        [.exec noAnswers .camera (chars "setNear") nearArgs] ∧
      (boxWorld.mComponents .physics).map (getEnable .physics) = some false ∧
      ¬ Along (step line) (Inert line .physics) boxWorld [.nodeUpdated ⟨5, 0⟩] := by
  refine ⟨rfl, ?_, rfl, ?_⟩
  · rintro ⟨inert, -⟩
    have same : step line boxWorld (.exec noAnswers .camera (chars "setNear") nearArgs) =
        some boxWorld := inert _ rfl
    have near := congrArg (Option.map fun w : World ℤ ℤ ℤ (ℤ × ℤ) =>
      (w.mComponents .camera).map fun c => c.mCamera.nearClipDistance) same
    revert near
    decide
  · rintro ⟨inert, -⟩
    have masked := inert _ rfl
    have place := congrArg (Option.map fun w : World ℤ ℤ ℤ (ℤ × ℤ) =>
      (w.mComponents .physics).map fun c => c.mBody) masked
    revert place
    decide

end line

end Ssuge.Components

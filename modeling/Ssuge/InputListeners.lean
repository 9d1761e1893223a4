import Ssuge.Enrolment
import Ssuge.InputManager
import Mathlib.Data.List.Count
import Mathlib.Data.List.Nodup

/-! The listeners are a set in the order of their registration, and a broadcast reaches
each of them once. The loop of a broadcast reads the list anew in every round, and
the notified scripts can only append to it, so it comes to those that are registered
while it is under way as well. -/

namespace Ssuge

open Enrolment

inductive ListenerCall
  | addListener (gObject : Ptr)
  | removeListener (gObject : Ptr)
deriving DecidableEq, Repr

namespace InputManager

def call (m : InputManager) : ListenerCall → InputManager
  | .addListener gObject => (m.addListener gObject).1
  | .removeListener gObject => (m.removeListener gObject).1

def calls : List ListenerCall → InputManager := List.foldl call constructed

/-- What the calls should do: to join a set, and to leave it. -/
def note (b : Book Ptr) : ListenerCall → Book Ptr
  | .addListener gObject => b.join gObject
  | .removeListener gObject => b.leave gObject

def registered : List ListenerCall → Book Ptr := List.foldl note .empty

structure FormsSet (m : InputManager) (b : Book Ptr) : Prop where
  nodup : m.mInputListeners.Nodup
  lists : Lists b m.mInputListeners
  added : ∀ gObject, (m.addListener gObject).2 = 1 ↔ b.Member gObject
  unchanged : ∀ gObject, (m.addListener gObject).1 = m ↔ b.Member gObject
  removed : ∀ gObject, (m.removeListener gObject).2 = 0 ↔ b.Member gObject
  gone : ∀ gObject, gObject ∉ (m.removeListener gObject).1.mInputListeners

def isScriptEvent : Notification → Bool
  | .scriptEvent .. => true
  | .onAction .. => false

/-- A broadcast with what came of it: the listeners at its end are those at its start and
after them those that the notified scripts have registered, and each got one event,
in the order of the list. -/
structure Delivers (m : InputManager) (responses : Responses) (event : Ptr → Notification)
    (outcome : InputManager × List Notification) : Prop where
  before : m.mInputListeners <+: outcome.1.mInputListeners
  during : ∀ gObject, gObject ∈ outcome.1.mInputListeners ↔ gObject ∈ m.mInputListeners ∨
    ∃ objects ∈ responses.take outcome.1.mInputListeners.length, gObject ∈ objects
  order : outcome.2.filter isScriptEvent = outcome.1.mInputListeners.map event
  once : ∀ gObject ∈ outcome.1.mInputListeners, outcome.2.count (event gObject) = 1

theorem addListener_mem {m : InputManager} {gObject : Ptr} (h : gObject ∈ m.mInputListeners) :
    m.addListener gObject = (m, 1) := if_pos h

theorem addListener_absent {m : InputManager} {gObject : Ptr} (h : gObject ∉ m.mInputListeners) :
    m.addListener gObject =
      ({ m with mInputListeners := m.mInputListeners ++ [gObject] }, 0) := if_neg h

theorem removeListener_listeners (m : InputManager) (gObject : Ptr) :
    (m.removeListener gObject).1.mInputListeners = m.mInputListeners.erase gObject := by
  simp only [removeListener, List.idxOf_lt_length_iff]
  split
  · exact (List.erase_eq_eraseIdx_of_idxOf rfl).symm
  · exact (List.erase_of_not_mem ‹_›).symm

theorem removeListener_result (m : InputManager) (gObject : Ptr) :
    (m.removeListener gObject).2 = 0 ↔ gObject ∈ m.mInputListeners := by
  simp only [removeListener, List.idxOf_lt_length_iff]
  split <;> simp [*]

theorem lists_call {m : InputManager} {b : Book Ptr} (h : Lists b m.mInputListeners)
    (c : ListenerCall) : Lists (note b c) (m.call c).mInputListeners := by
  cases c with
  | addListener gObject =>
      by_cases listed : gObject ∈ m.mInputListeners
      · rw [call, addListener_mem listed]
        exact h.join_mem listed
      · rw [call, addListener_absent listed]
        exact h.join_append listed
  | removeListener gObject =>
      rw [call, removeListener_listeners]
      exact h.leave_erase gObject

theorem lists_calls (cs : List ListenerCall) :
    Lists (registered cs) (calls cs).mInputListeners := by
  suffices run : ∀ (m : InputManager) (b : Book Ptr), Lists b m.mInputListeners →
      Lists (cs.foldl note b) (cs.foldl call m).mInputListeners from
    run constructed .empty Lists.empty
  induction cs with
  | nil => exact fun m b h => h
  | cons c cs ih => exact fun m b h => ih _ _ (lists_call h c)

theorem formsSet {m : InputManager} {b : Book Ptr} (h : Lists b m.mInputListeners) :
    FormsSet m b := by
  refine ⟨h.nodup, h, fun g => ?_, fun g => ?_, fun g => ?_, fun g => ?_⟩
  · rw [← h.members g]
    by_cases listed : g ∈ m.mInputListeners
    · simp [addListener_mem listed, listed]
    · simp [addListener_absent listed, listed]
  · rw [← h.members g]
    by_cases listed : g ∈ m.mInputListeners
    · simp [addListener_mem listed, listed]
    · refine iff_of_false (fun same => ?_) listed
      rw [addListener_absent listed] at same
      have lists := congrArg mInputListeners same
      simp at lists
  · rw [removeListener_result, h.members g]
  · rw [removeListener_listeners, h.nodup.mem_erase_iff]
    exact fun listed => listed.1 rfl

section broadcast

theorem register_extends (m : InputManager) (objects : List Ptr) :
    m.mInputListeners <+: (m.register objects).mInputListeners := by
  induction objects generalizing m with
  | nil => exact List.prefix_refl _
  | cons g objects ih =>
      refine List.IsPrefix.trans ?_ (ih (m.addListener g).1)
      by_cases listed : g ∈ m.mInputListeners
      · exact addListener_mem listed ▸ List.prefix_refl _
      · exact addListener_absent listed ▸ List.prefix_append _ _

theorem mem_register (m : InputManager) (objects : List Ptr) (gObject : Ptr) :
    gObject ∈ (m.register objects).mInputListeners ↔
      gObject ∈ m.mInputListeners ∨ gObject ∈ objects := by
  induction objects generalizing m with
  | nil => simp [register]
  | cons g objects ih =>
      refine (ih (m.addListener g).1).trans ?_
      by_cases listed : g ∈ m.mInputListeners
      · rw [addListener_mem listed, List.mem_cons]
        constructor
        · exact fun h => h.imp_right .inr
        · rintro (h | rfl | h)
          · exact .inl h
          · exact .inl listed
          · exact .inr h
      · rw [addListener_absent listed, List.mem_append, List.mem_singleton, List.mem_cons, or_assoc]

theorem register_nodup {m : InputManager} (h : m.mInputListeners.Nodup) (objects : List Ptr) :
    (m.register objects).mInputListeners.Nodup := by
  induction objects generalizing m with
  | nil => exact h
  | cons g objects ih =>
      refine ih (m := (m.addListener g).1) ?_
      by_cases listed : g ∈ m.mInputListeners
      · rwa [addListener_mem listed]
      · rw [addListener_absent listed]
        exact List.nodup_append.mpr ⟨h, by simp, fun x hx y hy same =>
          listed (List.mem_singleton.mp hy ▸ same ▸ hx)⟩

/-- From round `i` on, a broadcast sends one event to every listener behind it in the list
that it leaves. -/
theorem broadcast_spec (method : List UInt8) (message : List Param) (responses : Responses)
    (i : Nat) (m : InputManager) :
    let outcome := broadcast method message responses i m
    m.mInputListeners <+: outcome.1.mInputListeners ∧
      (m.mInputListeners.Nodup → outcome.1.mInputListeners.Nodup) ∧
      (∀ gObject, gObject ∈ outcome.1.mInputListeners ↔ gObject ∈ m.mInputListeners ∨
        ∃ objects ∈ responses.take (outcome.1.mInputListeners.length - i), gObject ∈ objects) ∧
      outcome.2 = (outcome.1.mInputListeners.drop i).map fun listener =>
        .scriptEvent listener method message := by
  induction responses generalizing i m with
  | nil => exact ⟨List.prefix_refl _, id, by simp [broadcast], rfl⟩
  | cons objects responses ih =>
      rw [broadcast]
      cases next : m.mInputListeners[i]? with
      | none =>
          have past : m.mInputListeners.length ≤ i := List.getElem?_eq_none_iff.mp next
          refine ⟨List.prefix_refl _, id, fun g => ?_, ?_⟩
          · simp [Nat.sub_eq_zero_of_le past]
          · simp [List.drop_eq_nil_of_le past]
      | some listener =>
          obtain ⟨extended, nodup, members, sent⟩ := ih (i + 1) (m.register objects)
          set outcome := broadcast method message responses (i + 1) (m.register objects)
          have extends_ := (register_extends m objects).trans extended
          obtain ⟨listed, found⟩ := List.getElem?_eq_some_iff.mp next
          have inside : i < outcome.1.mInputListeners.length := listed.trans_le extends_.length_le
          have value : outcome.1.mInputListeners[i] = listener :=
            (extends_.getElem listed).symm.trans found
          have left : outcome.1.mInputListeners.length - i =
              outcome.1.mInputListeners.length - (i + 1) + 1 := by omega
          refine ⟨extends_, fun h => nodup (register_nodup h objects), fun g => ?_, ?_⟩
          · rw [members g, mem_register, left, List.take_succ_cons, List.exists_mem_cons_iff,
              or_assoc]
          · change _ :: outcome.2 = _
            rw [sent, List.drop_eq_getElem_cons inside, List.map_cons, value]

theorem count_map_event {l : List Ptr} (nodup : l.Nodup) {event : Ptr → Notification}
    (injective : Function.Injective event) {gObject : Ptr} (h : gObject ∈ l) :
    (l.map event).count (event gObject) = 1 := by
  rw [List.count_map_of_injective _ _ injective]
  exact List.count_eq_one_of_mem nodup h

def scriptEvent (method : List UInt8) (message : List Param) (listener : Ptr) : Notification :=
  .scriptEvent listener method message

theorem delivers_broadcast {m : InputManager} (nodup : m.mInputListeners.Nodup)
    (method : List UInt8) (message : List Param) (responses : Responses)
    {others : List Notification} (apart : ∀ n ∈ others, isScriptEvent n = false) :
    Delivers m responses (scriptEvent method message)
      ((broadcast method message responses 0 m).1,
        (broadcast method message responses 0 m).2 ++ others) := by
  obtain ⟨before, kept, during, sent⟩ := broadcast_spec method message responses 0 m
  rw [List.drop_zero] at sent
  have own : ∀ n ∈ (broadcast method message responses 0 m).2, isScriptEvent n := by
    intro n member
    rw [sent] at member
    obtain ⟨listener, -, rfl⟩ := List.mem_map.mp member
    rfl
  refine ⟨before, during, ?_, fun g h => ?_⟩
  · rw [List.filter_append, List.filter_eq_self.mpr own,
      List.filter_eq_nil_iff.mpr fun n member => by simp [apart n member], List.append_nil, sent]
    rfl
  · have elsewhere : scriptEvent method message g ∉ others := fun member => by
      simpa [scriptEvent, isScriptEvent] using apart _ member
    rw [List.count_append, List.count_eq_zero.mpr elsewhere, sent]
    exact count_map_event (kept nodup) (fun a b same => (Notification.scriptEvent.inj same).1) h

theorem delivers_sendActionMessage {m : InputManager} (nodup : m.mInputListeners.Nodup)
    (action : InputActions) (actionState : Bool) (responses : Responses) :
    Delivers m responses
      (scriptEvent (CString.chars "onAction")
        [.string (actionEnumToString action), .int (if actionState then 1 else 0)])
      (m.sendActionMessage action actionState responses) :=
  delivers_broadcast nodup _ _ _ (by simp [isScriptEvent])

theorem delivers_sendKeyMessage {m : InputManager} (nodup : m.mInputListeners.Nodup)
    (keyString : List UInt8) (keyState : Bool) (responses : Responses) :
    Delivers m responses
      (scriptEvent (CString.chars "onKeydown")
        [.string keyString, .int (if keyState then 1 else 0)])
      (m.sendKeyMessage keyString keyState responses) := by
  have nothing : ∀ n ∈ ([] : List Notification), isScriptEvent n = false := by simp
  have delivered := delivers_broadcast nodup (CString.chars "onKeydown")
    [.string keyString, .int (if keyState then 1 else 0)] responses nothing
  rwa [List.append_nil] at delivered

end broadcast

/-- After all calls to register and to unregister, wherever they came from, the listeners
form a set in the order of their registration, and both kinds of broadcast reach every
listener once. -/
theorem listeners_spec (cs : List ListenerCall) :
    FormsSet (calls cs) (registered cs) ∧
      (∀ action actionState responses, Delivers (calls cs) responses
        (scriptEvent (CString.chars "onAction")
          [.string (actionEnumToString action), .int (if actionState then 1 else 0)])
        ((calls cs).sendActionMessage action actionState responses)) ∧
      ∀ keyString keyState responses, Delivers (calls cs) responses
        (scriptEvent (CString.chars "onKeydown")
          [.string keyString, .int (if keyState then 1 else 0)])
        ((calls cs).sendKeyMessage keyString keyState responses) := by
  have lists := lists_calls cs
  exact ⟨formsSet lists, fun _ _ _ => delivers_sendActionMessage lists.nodup _ _ _,
    fun _ _ _ => delivers_sendKeyMessage lists.nodup _ _ _⟩

end InputManager

end Ssuge

import Ssuge.GuardedRun
import Ssuge.InputEvents

/-! The queue of SDL before `update`. One call polls one event, so the events of a frame
are all handled in it only if there is at most one; the others wait for the frames
after it. -/

namespace Ssuge.InputManager

open RecordedRun GuardedRun

/-- An event that waits, with what the notified scripts will register when it is handled. -/
structure Pending where
  event : Event
  actionResponses : Responses
  keyResponses : Responses

structure Input where
  manager : InputManager
  queue : List Pending

variable (keyName : Int32 → List UInt8)

def dispatchPending (m : InputManager) (p : Pending) : Run (InputManager × List Notification) :=
  m.dispatch keyName p.event p.actionResponses p.keyResponses

/-- `update` on the first event that waits. -/
def updatePending (m : InputManager) : List Pending → Run (Nat × InputManager × List Notification)
  | [] => m.update keyName none [] []
  | p :: _ => m.update keyName (some p.event) p.actionResponses p.keyResponses

/-- The handlers on all events that wait, in the order of their arrival. -/
def handleAll (m : InputManager) : List Pending → Run (InputManager × List Notification)
  | [] => pure (m, [])
  | p :: later => do
      let (m, sent) ← m.dispatchPending keyName p
      let (m, sentLater) ← handleAll m later
      pure (m, sent ++ sentLater)

inductive Tick
  | arrive (p : Pending)
  | update
  /-- What the rest of the program does with the manager between two calls. -/
  | between (change : InputManager → InputManager)

def tick (s : Input) : Tick → Option Input
  | .arrive p => some { s with queue := s.queue ++ [p] }
  | .update => (s.manager.updatePending keyName s.queue).value.map fun (_, m, _) =>
      ⟨m, s.queue.tail⟩
  | .between change => some { s with manager := change s.manager }

/-- After a call of `update` the flags are those, and the notifications sent are those, of
the handlers on everything that waited, and nothing waits any more. -/
def NotDelayed (s : Input) : Tick → Prop
  | .update => ∃ code m sent m' sent',
      (s.manager.updatePending keyName s.queue).value = some (code, m, sent) ∧
      (s.manager.handleAll keyName s.queue).value = some (m', sent') ∧
      m.mActiveActions = m'.mActiveActions ∧ sent = sent' ∧ s.queue.tail = []
  | _ => True

def AtMostOne (s : Input) : Tick → Prop
  | .update => s.queue.length ≤ 1
  | _ => True

def Pending.NoQuit (p : Pending) : Prop := p.event ≠ .quit

def Tick.NoQuit : Tick → Prop
  | .arrive p => p.NoQuit
  | _ => True

variable {keyName}

theorem dispatchPending_returns (m : InputManager) (p : Pending) :
    ∃ m' sent, (m.dispatchPending keyName p).value = some (m', sent) := by
  obtain ⟨m', sent, returned, -⟩ :=
    dispatch_flags keyName m p.event p.actionResponses p.keyResponses
  exact ⟨m', sent, returned⟩

theorem updatePending_cons {p : Pending} (noQuit : p.NoQuit) (m : InputManager)
    (later : List Pending) : (m.updatePending keyName (p :: later)).value =
      (m.dispatchPending keyName p).value.map fun handled => (0, handled) := by
  rw [updatePending, update]
  · rw [bind_value]
    exact (Option.map_eq_bind ..).symm
  · exact noQuit

/-- One call: what waits is handled as if at once exactly when it is at most one event. -/
theorem notDelayed_iff {s : Input} (noQuit : ∀ p ∈ s.queue, p.NoQuit) (t : Tick) :
    NotDelayed keyName s t ↔ AtMostOne s t := by
  cases t with
  | update =>
      obtain ⟨m, queue⟩ := s
      constructor
      · rintro ⟨code, m₁, sent, m₂, sent', -, -, -, -, nothing⟩
        rcases queue with _ | ⟨p, later⟩
        · exact Nat.zero_le 1
        · obtain rfl : later = [] := nothing
          exact Nat.le_refl 1
      · intro atMostOne
        rcases queue with _ | ⟨p, later⟩
        · exact ⟨0, m, [], m, [], rfl, rfl, rfl, rfl, rfl⟩
        · obtain rfl : later = [] := by simpa [AtMostOne] using atMostOne
          obtain ⟨m', sent, returned⟩ :
              ∃ m' sent, (m.dispatchPending keyName p).value = some (m', sent) :=
            dispatchPending_returns m p
          refine ⟨0, m', sent, m', sent, ?_, ?_, rfl, rfl, rfl⟩
          · rw [updatePending_cons (noQuit p (by simp)), returned]
            rfl
          · change (m.dispatchPending keyName p >>= _).value = _
            rw [bind_value_of returned]
            change some (m', sent ++ []) = _
            rw [List.append_nil]
  | _ => exact Iff.rfl

theorem tick_noQuit {s s' : Input} {t : Tick} (noQuit : ∀ p ∈ s.queue, p.NoQuit)
    (legal : t.NoQuit) (returned : tick keyName s t = some s') : ∀ p ∈ s'.queue, p.NoQuit := by
  cases t with
  | arrive p =>
      obtain rfl := Option.some.inj returned
      intro q member
      rcases List.mem_append.mp member with waiting | new
      · exact noQuit q waiting
      · exact List.mem_singleton.mp new ▸ legal
  | update =>
      obtain ⟨⟨code, m, sent⟩, -, rfl⟩ := Option.map_eq_some_iff.mp returned
      exact fun q member => noQuit q (List.mem_of_mem_tail member)
  | between change =>
      obtain rfl := Option.some.inj returned
      exact noQuit

/-- Over any frames without a quit event, whatever waits at the start: no call of `update`
delays input exactly when at most one event waits at each of them. -/
theorem notDelayed_run_iff {s : Input} (noQuit : ∀ p ∈ s.queue, p.NoQuit) {ticks : List Tick}
    (legal : ∀ t ∈ ticks, t.NoQuit) :
    Along (tick keyName) (NotDelayed keyName) s ticks ↔ Along (tick keyName) AtMostOne s ticks :=
  along_iff (I := fun s => ∀ p ∈ s.queue, p.NoQuit) (L := Tick.NoQuit)
    (fun _ t waiting _ => notDelayed_iff waiting t)
    (fun _ _ _ waiting legal _ returned => tick_noQuit waiting legal returned)
    noQuit legal

/-- A key goes down and, in the next frame, up again. -/
theorem notDelayed_key : Along (tick fun _ => []) (NotDelayed fun _ => [])
    ⟨initializeInputManager, []⟩
    [.arrive ⟨.keyDown 119 0, [], []⟩, .update, .arrive ⟨.keyUp 119 0, [], []⟩, .update] := by
  refine (notDelayed_run_iff (by simp) ?_).mpr ?_
  · simp [Tick.NoQuit, Pending.NoQuit]
  · refine ⟨trivial, ?_⟩
    rintro _ ⟨⟩
    refine ⟨Nat.le_refl 1, ?_⟩
    rintro _ ⟨⟩
    refine ⟨trivial, ?_⟩
    rintro _ ⟨⟩
    exact ⟨Nat.le_refl 1, fun _ _ => trivial⟩

/-- A key that goes down and up within a frame is still down after the call, and stays so
for the frame. -/
theorem delayed_key : ¬ NotDelayed (fun _ => [])
    ⟨initializeInputManager, [⟨.keyDown 119 0, [], []⟩, ⟨.keyUp 119 0, [], []⟩]⟩ .update := by
  rintro ⟨code, m, sent, m', sent', updated, all, flags, -⟩
  obtain rfl : m = _ := congrArg (fun r => r.2.1) (Option.some.inj updated.symm)
  obtain rfl : m' = _ := congrArg Prod.fst (Option.some.inj all.symm)
  exact absurd flags (by decide)

end Ssuge.InputManager

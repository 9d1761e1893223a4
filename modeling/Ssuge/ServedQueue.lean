import Mathlib.Data.List.Infix
import Mathlib.Order.Bounds.Basic
import Mathlib.Tactic.Common

/-! Queues that are served one by one. In each round some items join at the end, and then
the first item that waits leaves, if there is one. Nothing is lost and nothing overtakes.
What waits at the end is what has joined beyond one item a round, counted from the start or
from the round in which the queue was empty last. -/

namespace Ssuge.ServedQueue

variable {α : Type}

/-- What waits after some rounds, each of them given by the items that join. -/
def waiting : List α → List (List α) → List α
  | queue, [] => queue
  | queue, joined :: rounds => waiting (queue ++ joined).tail rounds

def served : List α → List (List α) → List α
  | _, [] => []
  | queue, joined :: rounds =>
      (queue ++ joined).head?.toList ++ served (queue ++ joined).tail rounds

/-- How many items join beyond one a round. -/
def excess (rounds : List (List α)) : Nat := rounds.flatten.length - rounds.length

theorem served_append (queue : List α) (rounds later : List (List α)) :
    served queue (rounds ++ later) =
      served queue rounds ++ served (waiting queue rounds) later := by
  induction rounds generalizing queue with
  | nil => rfl
  | cons joined rounds ih => rw [List.cons_append, served, served, ih, List.append_assoc, waiting]

end Ssuge.ServedQueue

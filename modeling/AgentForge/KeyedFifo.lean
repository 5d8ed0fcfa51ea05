import Mathlib.Logic.Function.Basic

/-! One queue for each key, first in first out. This is what a dispatcher that serves many
customers is for; how it keeps the queues, and where a message is between being put and being
taken, is not said here. -/
namespace KeyedFifo

/-- A message is put into the queue of its key, or taken from it. -/
inductive Op (Msg : Type) where
  | put (msg : Msg)
  | take (msg : Msg)

section Queues

variable {Key Msg : Type} [DecidableEq Key] (key : Msg → Key)

/-- The queues after these operations, latest first: a message is put at the end and taken
from the front. -/
inductive Reached : List (Op Msg) → (Key → List Msg) → Prop where
  | empty : Reached [] fun _ => []
  | put {ops : List (Op Msg)} {lines : Key → List Msg} (before : Reached ops lines) (msg : Msg) :
      Reached (.put msg :: ops) (Function.update lines (key msg) (lines (key msg) ++ [msg]))
  | take {ops : List (Op Msg)} {lines : Key → List Msg} {msg : Msg} {rest : List Msg}
      (before : Reached ops lines) (first : lines (key msg) = msg :: rest) :
      Reached (.take msg :: ops) (Function.update lines (key msg) rest)

/-- What was put for a key, oldest first. -/
def putFor (k : Key) : List (Op Msg) → List Msg
  | [] => []
  | .put msg :: ops => putFor k ops ++ if key msg = k then [msg] else []
  | .take _ :: ops => putFor k ops

/-- What was taken for a key, oldest first. -/
def takenFor (k : Key) : List (Op Msg) → List Msg
  | [] => []
  | .put _ :: ops => takenFor k ops
  | .take msg :: ops => takenFor k ops ++ if key msg = k then [msg] else []

variable {key}

/-- What was taken, followed by what waits, is what was put. -/
theorem Reached.balance (reached : Reached key ops lines) (k : Key) :
    takenFor key k ops ++ lines k = putFor key k ops := by
  induction reached with
  | empty => rfl
  | put before msg ih =>
    rw [takenFor, putFor, ← ih]
    by_cases own : key msg = k
    · subst own
      rw [Function.update_self, if_pos rfl, List.append_assoc]
    · rw [Function.update_of_ne (Ne.symm own), if_neg own, List.append_nil]
  | take before first ih =>
    rename_i msg rest
    rw [takenFor, putFor, ← ih]
    by_cases own : key msg = k
    · subst own
      rw [Function.update_self, if_pos rfl, first, List.append_assoc]
      rfl
    · rw [Function.update_of_ne (Ne.symm own), if_neg own, List.append_nil]

end Queues

end KeyedFifo

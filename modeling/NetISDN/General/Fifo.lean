import Mathlib.Data.List.Basic

/-!
# Queues

What a queue does is a sequence of transfers: items enter at its end, leave at its front, or all
are cleared. Since it was last cleared, what has entered is what has left, and then what is in it,
in order (`Transfers.conservation`): nothing is lost, repeated or reordered.
-/

namespace Fifo

variable {α : Type*}

/-- A transfer into or out of a queue. -/
inductive Transfer (α : Type*) where
  | enter (l : List α)
  | leave (l : List α)
  | clear

/-- A transfer takes a queue with the contents `q` to one with the contents `q'`. -/
def Transfers (q : List α) : Transfer α → List α → Prop
  | .enter l, q' => q' = q ++ l
  | .leave l, q' => q = l ++ q'
  | .clear, q' => q' = []

/-- What has entered since the queue was last cleared. -/
def entered (tr : List (Transfer α)) : List α :=
  tr.foldl (fun acc t => match t with
    | .enter l => acc ++ l
    | .leave _ => acc
    | .clear => []) []

/-- What has left since the queue was last cleared. -/
def left (tr : List (Transfer α)) : List α :=
  tr.foldl (fun acc t => match t with
    | .enter _ => acc
    | .leave l => acc ++ l
    | .clear => []) []

variable {tr : List (Transfer α)} {t : Transfer α} {q q' : List α}

/-- What has entered after one more transfer. -/
theorem entered_append_singleton : entered (tr ++ [t]) = match t with
    | .enter l => entered tr ++ l
    | .leave _ => entered tr
    | .clear => [] := by
  rw [entered, List.foldl_append]
  rfl

/-- What has left after one more transfer. -/
theorem left_append_singleton : left (tr ++ [t]) = match t with
    | .enter _ => left tr
    | .leave l => left tr ++ l
    | .clear => [] := by
  rw [left, List.foldl_append]
  rfl

/-- **The conservation law.** A transfer keeps what has entered equal to what has left and what is
in the queue. -/
theorem Transfers.conservation (h : Transfers q t q') (hq : entered tr = left tr ++ q) :
    entered (tr ++ [t]) = left (tr ++ [t]) ++ q' := by
  rw [entered_append_singleton, left_append_singleton]
  cases t with
  | enter l =>
      obtain rfl : q' = q ++ l := h
      simp only [hq, List.append_assoc]
  | leave l =>
      obtain rfl : q = l ++ q' := h
      simp only [hq, List.append_assoc]
  | clear =>
      obtain rfl : q' = [] := h
      rfl

end Fifo

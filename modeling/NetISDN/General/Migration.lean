import Mathlib.Data.List.Basic

/-!
# Scripts of statements that can fail

A script changes a store statement by statement. A statement may be invalid in the store, or be
rejected for reasons outside it; either way it changes nothing. A step that checks its statement
ends the script when the statement fails. A script that is run again after a failure meets the
store as the failure left it, and so comes to grief at a checked statement that is valid only once.
-/

namespace Migration

variable {σ ι : Type*} (exec : ι → σ → Option σ) (rejects : ι → Bool)

/-- A statement is run: whether it succeeded, and the store after it. -/
def query (s : σ) (i : ι) : Bool × σ :=
  if rejects i then (false, s)
  else match exec i s with
    | some s' => (true, s')
    | none => (false, s)

/-- A step of a script. The script ends with failure when the statement of a checked step fails. -/
structure Step (ι : Type*) where
  statement : ι
  checked : Bool

/-- A script is run: whether it came to its end, and the store after it. -/
def run : List (Step ι) → σ → Bool × σ
  | [], s => (true, s)
  | x :: xs, s =>
    let (ok, s') := query exec rejects s x.statement
    if x.checked ∧ ok = false then (false, s') else run xs s'

variable {exec rejects} {s s' : σ} {x : Step ι} {xs ys : List (Step ι)} {i : ι}

/-- The first statement ends the script when it is checked and fails. -/
theorem run_cons : run exec rejects (x :: xs) s =
    if x.checked ∧ (query exec rejects s x.statement).1 = false then
      (false, (query exec rejects s x.statement).2)
    else run exec rejects xs (query exec rejects s x.statement).2 := rfl

/-- A statement that is rejected changes nothing. -/
theorem query_rejected (h : rejects i = true) : query exec rejects s i = (false, s) := if_pos h

/-- A statement that is accepted is performed. -/
theorem query_accepted (h : rejects i = false) (hs : exec i s = some s') :
    query exec rejects s i = (true, s') := by
  rw [query, if_neg (by simp [h]), hs]

/-- A statement that is not valid changes nothing. -/
theorem query_invalid (h : exec i s = none) : query exec rejects s i = (false, s) := by
  rw [query, h]
  split <;> rfl

/-- The second part of a script runs if the first comes to its end. -/
theorem run_append : run exec rejects (xs ++ ys) s =
    if (run exec rejects xs s).1 then run exec rejects ys (run exec rejects xs s).2
    else (false, (run exec rejects xs s).2) := by
  induction xs generalizing s with
  | nil => rfl
  | cons x xs ih =>
      rw [List.cons_append, run_cons, run_cons, ih]
      split
      · rfl
      · rfl

/-- A statement that is run preserves what it preserves where it is valid. -/
theorem query_preserves {P : σ → Prop} (hP : ∀ s', exec i s = some s' → P s') (h : P s) :
    P (query exec rejects s i).2 := by
  rw [query]
  split
  · exact h
  · split
    · next s' hs => exact hP s' hs
    · exact h

variable (rejects) in
/-- What each of its statements preserves, a script preserves. -/
theorem run_preserves {P : σ → Prop}
    (hP : ∀ x ∈ xs, ∀ s s', exec x.statement s = some s' → P s → P s') (h : P s) :
    P (run exec rejects xs s).2 := by
  induction xs generalizing s with
  | nil => exact h
  | cons x xs ih =>
      have hquery : P (query exec rejects s x.statement).2 :=
        query_preserves (fun s' hs => hP x (.head _) s s' hs h) h
      rw [run_cons]
      split
      · exact hquery
      · exact ih (fun y hy => hP y (.tail _ hy)) hquery

/-- A script does not come to its end past a checked statement that is rejected. -/
theorem run_rejected (hx : x ∈ xs) (hchecked : x.checked = true)
    (hrej : rejects x.statement = true) : (run exec rejects xs s).1 = false := by
  induction xs generalizing s with
  | nil => cases hx
  | cons y ys ih =>
      rw [run_cons]
      rcases List.mem_cons.1 hx with rfl | hx
      · rw [query_rejected hrej, if_pos ⟨hchecked, rfl⟩]
      · split
        · rfl
        · exact ih hx

/-- A script ends where a checked statement has become invalid for good. -/
theorem run_spent {P : σ → Prop} (hP : ∀ y ∈ xs, ∀ s s', exec y.statement s = some s' → P s → P s')
    (hspent : ∀ s, P s → exec x.statement s = none) (hchecked : x.checked = true) (h : P s) :
    run exec rejects (xs ++ x :: ys) s = (false, (run exec rejects xs s).2) := by
  rw [run_append]
  split
  · rw [run_cons, query_invalid (hspent _ (run_preserves rejects hP h)), if_pos ⟨hchecked, rfl⟩]
  · rfl

/-- The store after all statements of a script, if they are valid one after the other. -/
def execAll (exec : ι → σ → Option σ) : List (Step ι) → σ → Option σ
  | [], s => some s
  | x :: xs, s => (exec x.statement s).bind (execAll exec xs)

/-- A script of valid statements none of which is rejected comes to its end. -/
theorem run_accepted (hrej : ∀ x ∈ xs, rejects x.statement = false)
    (h : execAll exec xs s = some s') : run exec rejects xs s = (true, s') := by
  induction xs generalizing s with
  | nil =>
      obtain rfl := Option.some.inj h
      rfl
  | cons x xs ih =>
      obtain ⟨s₁, h₁, h⟩ := Option.bind_eq_some_iff.1 h
      rw [run_cons, query_accepted (hrej x (.head _)) h₁, if_neg (by simp)]
      exact ih (fun y hy => hrej y (.tail _ hy)) h

end Migration

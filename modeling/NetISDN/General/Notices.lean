import Mathlib.Logic.Basic
import Mathlib.Data.List.Basic

/-!
# Views that are told what has changed

A view shows, for each key `κ`, what it has last read of a store. Whoever changes the store posts a
message about every key that looks different now; the view reads a key again when it handles a
message about it. `Coherent` says that the view is right about every key of which no message is
left: none that waits, and none that has been lost. Messages may overtake one another and arrive
more than once, since the view reads what is in the store when it handles one and not what was there
when it was posted.
-/

namespace Notices

variable {κ ν μ : Type*} {about : μ → κ → Prop} {truth truth' shown shown' : κ → ν}
  {ms ms' : List μ}
  {m : μ}

/-- The view is right about every key of which no message of `ms` tells. -/
def Coherent (about : μ → κ → Prop) (truth shown : κ → ν) (ms : List μ) : Prop :=
  ∀ k, (∀ m ∈ ms, ¬ about m k) → shown k = truth k

/-- A view that has read everything. -/
theorem coherent_of_forall (h : ∀ k, shown k = truth k) : Coherent about truth shown ms :=
  fun k _ => h k

/-- What the network does to the messages, as long as it keeps each of them somewhere. -/
theorem Coherent.of_subset (h : Coherent about truth shown ms) (hsub : ms ⊆ ms') :
    Coherent about truth shown ms' :=
  fun k hk => h k fun m hm => hk m (hsub hm)

/-- A change of the store, with messages about all that looks different. -/
theorem Coherent.post (h : Coherent about truth shown ms)
    (hposted : ∀ k, truth' k ≠ truth k → ∃ m ∈ ms', about m k) :
    Coherent about truth' shown (ms ++ ms') := by
  intro k hk
  obtain ⟨hold, hnew⟩ := List.forall_mem_append.1 hk
  by_contra hne
  obtain ⟨m, hm, hmk⟩ := hposted k fun heq => hne ((h k hold).trans heq.symm)
  exact hnew m hm hmk

/-- A message is handled: the view reads again what it is about, and leaves the rest as it is or
reads it again too. -/
theorem Coherent.read (h : Coherent about truth shown (m :: ms))
    (hread : ∀ k, about m k → shown' k = truth k)
    (hrest : ∀ k, ¬ about m k → shown' k = shown k ∨ shown' k = truth k) :
    Coherent about truth shown' ms := by
  intro k hk
  by_cases hmk : about m k
  · exact hread k hmk
  · rcases hrest k hmk with heq | heq
    · rw [heq]
      exact h k (List.forall_mem_cons.2 ⟨hmk, hk⟩)
    · exact heq

end Notices

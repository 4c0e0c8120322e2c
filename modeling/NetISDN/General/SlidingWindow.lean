import Mathlib.Algebra.BigOperators.Group.List.Basic
import Mathlib.Algebra.Order.BigOperators.Group.List
import Mathlib.Algebra.Order.Field.Basic
import Mathlib.Data.List.DropRight

/-!
# Sliding windows

The window of length `n` of a stream is the end of it, `List.rtake n`: all of the stream as long as
it is shorter than `n`. A queue that is trimmed to `n` after each value holds the window
(`rtake_append`), whatever has been dropped before. `mean` is the arithmetic mean, and lies between
any bounds of the values.
-/

namespace SlidingWindow

section
variable {α : Type*} {n : Nat}

/-- The last elements of a list, at most as many as it has. -/
theorem length_rtake (n : Nat) (l : List α) : (l.rtake n).length = min n l.length := by
  rw [List.rtake, List.length_drop]
  omega

/-- What has left the window has no part in the windows to come. -/
theorem rtake_append (l l' : List α) : (l.rtake n ++ l').rtake n = (l ++ l').rtake n := by
  simp only [List.rtake, List.length_append, List.length_drop, List.drop_append, List.drop_drop]
  congr 2 <;> omega

/-- `n` values replace the window. -/
theorem rtake_append_replicate (l : List α) (v : α) :
    (l ++ List.replicate n v).rtake n = List.replicate n v := by
  rw [List.rtake, List.length_append, List.length_replicate, Nat.add_sub_cancel,
    List.drop_left]

end

section
variable {K : Type*} [Field K]

/-- The arithmetic mean; of no value it is 0. -/
def mean (l : List K) : K := l.sum / l.length

@[simp] theorem mean_nil : mean ([] : List K) = 0 := by
  rw [mean, List.sum_nil, zero_div]

variable [LinearOrder K] [IsStrictOrderedRing K] {l : List K} {a b : K}

/-- The mean lies between bounds of the values that are bounds of 0. -/
theorem mean_mem_Icc (h : ∀ v ∈ l, v ∈ Set.Icc a b) (h₀ : 0 ∈ Set.Icc a b) :
    mean l ∈ Set.Icc a b := by
  cases l with
  | nil =>
      rw [mean_nil]
      exact h₀
  | cons v l =>
      have hlen : (0 : K) < (v :: l).length := by
        rw [Nat.cast_pos]
        exact Nat.succ_pos _
      have hlow := List.card_nsmul_le_sum (v :: l) a fun w hw => (h w hw).1
      have hhigh := List.sum_le_card_nsmul (v :: l) b fun w hw => (h w hw).2
      rw [nsmul_eq_mul] at hlow hhigh
      constructor
      · rw [mean, le_div_iff₀ hlen, mul_comm]
        exact hlow
      · rw [mean, div_le_iff₀ hlen, mul_comm]
        exact hhigh

end

end SlidingWindow

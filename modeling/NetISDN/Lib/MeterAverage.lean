import Mathlib.Algebra.Order.Field.Rat
import NetISDN.General.Runs
import NetISDN.General.SlidingWindow

/-!
# Meter averages

`MeterAverage` (`meteraverage.cpp`): the average of the last values, from a running total and a
queue. The arithmetic is exact.
-/

namespace NetISDN

open SlidingWindow TransitionSystem

/-- `MeterAverage`. The front of the queue is the head of the list. -/
structure MeterAverage where
  maxsize : Int
  total : ℚ
  values : List ℚ

namespace MeterAverage

/-- The constructor (`meteraverage.cpp:26`). -/
def new (maxsize : Int) : MeterAverage where
  maxsize := maxsize
  total := 0
  values := []

/-- `average` (`meteraverage.cpp:33`). -/
def average (m : MeterAverage) : ℚ :=
  if m.values.length = 0 then 0 else m.total / m.values.length

/-- The loop of `addValue`: so many values leave the queue. The front of an empty one is
undefined. -/
def popFront (m : MeterAverage) : Nat → Option MeterAverage
  | 0 => some m
  | size + 1 =>
      match m.values with
      | [] => none
      | front :: values => popFront { m with total := m.total - front, values := values } size

/-- `addValue` (`meteraverage.cpp:42`). -/
def addValue (m : MeterAverage) (value : ℚ) : Option MeterAverage :=
  let m := { m with total := m.total + value, values := m.values ++ [value] }
  let size : Int := m.values.length - m.maxsize
  m.popFront size.toNat

/-- `preset` (`meteraverage.cpp:54`). -/
def preset (m : MeterAverage) (value : ℚ) : MeterAverage :=
  { m with
    total := value * m.maxsize
    values := List.replicate m.maxsize.toNat value }

/-- A call that changes an average. -/
inductive Call where
  | addValue (value : ℚ)
  | preset (value : ℚ)
  deriving DecidableEq

/-- A call is made. -/
def apply (m : MeterAverage) : Call → Option MeterAverage
  | .addValue value => m.addValue value
  | .preset value => some (m.preset value)

/-- The values that a call brings to an average over `n` values. -/
def Call.values (n : Nat) : Call → List ℚ
  | .addValue value => [value]
  | .preset value => List.replicate n value

/-! ## The window -/

variable {m m' : MeterAverage} {n : Nat} {vs : List ℚ} {value : ℚ} {calls : List Call}

/-- An average over `n` values, after the values `vs`: the queue is their window, and the total is
its sum. -/
structure Follows (n : Nat) (vs : List ℚ) (m : MeterAverage) : Prop where
  maxsize : m.maxsize = n
  values : m.values = vs.rtake n
  total : m.total = m.values.sum

/-- A new meter follows no values. -/
theorem follows_new (n : Nat) : Follows n [] (new n) :=
  ⟨rfl, (List.rtake_nil n).symm, List.sum_nil.symm⟩

/-- The loop takes the oldest values out of the queue and off the total. -/
theorem popFront_spec {size : Nat} (h : size ≤ m.values.length) (htotal : m.total = m.values.sum) :
    ∃ m', m.popFront size = some m' ∧ m'.maxsize = m.maxsize ∧
      m'.values = m.values.drop size ∧ m'.total = m'.values.sum := by
  induction size generalizing m with
  | zero => exact ⟨m, rfl, rfl, rfl, htotal⟩
  | succ size ih =>
      cases hvalues : m.values with
      | nil =>
          rw [hvalues] at h
          exact absurd h (Nat.not_succ_le_zero size)
      | cons front values =>
          rw [hvalues] at h htotal
          have htotal' : m.total - front = values.sum := by
            rw [htotal, List.sum_cons, add_sub_cancel_left]
          obtain ⟨m', hpop, hmax, hvalues', hsum⟩ :=
            ih (m := { m with total := m.total - front, values := values })
              (Nat.le_of_succ_le_succ h) htotal'
          refine ⟨m', ?_, hmax, hvalues', hsum⟩
          rw [popFront, hvalues]
          exact hpop

/-- `addValue` moves the window on by a value. -/
theorem Follows.addValue (h : Follows n vs m) (value : ℚ) :
    ∃ m', m.addValue value = some m' ∧ Follows n (vs ++ [value]) m' := by
  have hsize : ((((m.values ++ [value]).length : Int) - m.maxsize).toNat)
      = (m.values ++ [value]).length - n := by
    rw [h.maxsize]
    omega
  have htotal : m.total + value = (m.values ++ [value]).sum := by
    rw [List.sum_append, List.sum_singleton, h.total]
  obtain ⟨m', hpop, hmax, hvalues, hsum⟩ :=
    popFront_spec (m := { m with total := m.total + value, values := m.values ++ [value] })
      (show (m.values ++ [value]).length - n ≤ _ from Nat.sub_le _ _) htotal
  refine ⟨m', ?_, hmax.trans h.maxsize, ?_, hsum⟩
  · simp only [MeterAverage.addValue, hsize]
    exact hpop
  · rw [hvalues, ← rtake_append, ← h.values]
    rfl

/-- `preset` fills the window with a value. -/
theorem Follows.preset (h : Follows n vs m) (value : ℚ) :
    Follows n (vs ++ List.replicate n value) (m.preset value) := by
  have hvalues : (m.preset value).values = List.replicate n value := by
    rw [MeterAverage.preset, h.maxsize, Int.toNat_natCast]
  refine ⟨h.maxsize, ?_, ?_⟩
  · rw [rtake_append_replicate, hvalues]
  · rw [hvalues, List.sum_replicate, nsmul_eq_mul, MeterAverage.preset, h.maxsize, Int.cast_natCast,
      mul_comm]

/-- The step lemma: a call can be made, and moves the window on by the values that it brings. -/
theorem Follows.apply (h : Follows n vs m) (call : Call) :
    ∃ m', m.apply call = some m' ∧ Follows n (vs ++ call.values n) m' := by
  cases call with
  | addValue value => exact h.addValue value
  | preset value => exact ⟨_, rfl, h.preset value⟩

/-- The run lemma. -/
theorem Follows.applyAll (h : Follows n vs m) (calls : List Call) :
    ∃ m', calls.foldlM MeterAverage.apply m = some m' ∧
    Follows n (vs ++ calls.flatMap (Call.values n)) m' := by
  induction calls generalizing m vs with
  | nil => exact ⟨m, rfl, by simpa using h⟩
  | cons call calls ih =>
      obtain ⟨m₁, hcall, h₁⟩ := h.apply call
      obtain ⟨m₂, hcalls, h₂⟩ := ih h₁
      refine ⟨m₂, ?_, ?_⟩
      · rw [List.foldlM_cons, hcall]
        exact hcalls
      · rw [List.flatMap_cons, ← List.append_assoc]
        exact h₂

/-- The average is the mean of the window. -/
theorem Follows.average (h : Follows n vs m) : m.average = mean (vs.rtake n) := by
  rw [MeterAverage.average, mean, h.total, ← h.values]
  split
  · next hlen => rw [hlen, Nat.cast_zero, div_zero]
  · rfl

/-- A meter holds no more values than it was made for. -/
theorem Follows.length_le (h : Follows n vs m) : m.values.length ≤ n := by
  rw [h.values, length_rtake]
  exact Nat.min_le_left _ _

end MeterAverage

end NetISDN

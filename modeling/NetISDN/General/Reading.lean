import NetISDN.General.ByteMemory

/-!
# What a reader examines

A `Reading` is a result together with the addresses that have been examined for it. Readers compose
in the monad, and what one examines is within a bound exactly if all of its steps are. A reader that
may end without a result is one in `OptionT Reading`.
-/

/-- A result, and the addresses examined for it. -/
structure Reading (α : Type) where
  result : α
  examined : List Nat

namespace Reading

variable {α β : Type}

instance : Monad Reading where
  pure a := ⟨a, []⟩
  bind r f := ⟨(f r.result).result, r.examined ++ (f r.result).examined⟩

@[simp] theorem result_pure (a : α) : (pure a : Reading α).result = a := rfl

@[simp] theorem result_bind (r : Reading α) (f : α → Reading β) :
    (r >>= f).result = (f r.result).result := rfl

/-- All that is examined lies below `n`. -/
def Within (n : Nat) (r : Reading α) : Prop := ∀ a ∈ r.examined, a < n

@[simp] theorem within_pure (n : Nat) (a : α) : (pure a : Reading α).Within n :=
  List.forall_mem_nil _

@[simp] theorem within_bind (n : Nat) (r : Reading α) (f : α → Reading β) :
    (r >>= f).Within n ↔ r.Within n ∧ (f r.result).Within n := List.forall_mem_append

/-! ## Readers that may end without a result -/

/-- A result that is there or not, for which nothing is examined. -/
def ofOption (o : Option α) : OptionT Reading α := OptionT.mk (pure o)

@[simp] theorem run_ofOption (o : Option α) : (ofOption o).run = pure o := rfl

/-- A value is the result at once. -/
theorem result_run_pure (a : α) : (pure a : OptionT Reading α).run.result = some a := rfl

/-- The result of two readers, one after the other. -/
theorem result_run_bind (x : OptionT Reading α) (f : α → OptionT Reading β) :
    (x >>= f).run.result = x.run.result.bind fun a => (f a).run.result := by
  rw [OptionT.run_bind, Option.elimM, result_bind]
  cases x.run.result <;> rfl

/-- The result of a reader that is chosen by a condition. -/
theorem result_run_ite {p : Prop} [Decidable p] {x y : OptionT Reading α} :
    (if p then x else y).run.result = if p then x.run.result else y.run.result := by
  split <;> rfl

/-- A value needs no memory. -/
theorem within_run_pure (n : Nat) (a : α) : (pure a : OptionT Reading α).run.Within n :=
  List.forall_mem_nil _

/-- The memory of a reader that is chosen by a condition. -/
theorem within_run_ite {p : Prop} [Decidable p] {n : Nat} {x y : OptionT Reading α} :
    (if p then x else y).run.Within n ↔ if p then x.run.Within n else y.run.Within n := by
  split <;> rfl

/-- Behind a step without a result nothing is examined. -/
theorem within_run_bind (n : Nat) (x : OptionT Reading α) (f : α → OptionT Reading β) :
    (x >>= f).run.Within n ↔
      x.run.Within n ∧ ∀ a, x.run.result = some a → (f a).run.Within n := by
  rw [OptionT.run_bind, Option.elimM, within_bind]
  refine and_congr_right fun _ => ?_
  cases x.run.result with
  | none => exact iff_of_true (within_pure n none) fun _ h => by cases h
  | some a => simp

end Reading

namespace ByteMemory

variable {n : Nat}

/-- The byte at `p` is examined. -/
def readByte (m : ByteMemory) (p : Nat) : Reading (BitVec 8) := ⟨m.byte p, [p]⟩

/-- The word at `p` is examined. -/
def readWord (m : ByteMemory) (p : Nat) : Reading (BitVec 32) :=
  ⟨m.word p, [p, p + 1, p + 2, p + 3]⟩

/-- The `n` bytes from `p` on are examined. -/
def readBytes (m : ByteMemory) (p n : Nat) : Reading (List (BitVec 8)) :=
  ⟨m.bytes p n, (List.range n).map (p + ·)⟩

/-- The `n` words from `p` on are examined. -/
def readWords (m : ByteMemory) (p : Nat) : Nat → Reading (List (BitVec 32))
  | 0 => pure []
  | n + 1 => do
      let w ← m.readWord p
      let ws ← m.readWords (p + 4) n
      return w :: ws

@[simp] theorem result_readByte (m : ByteMemory) (p : Nat) : (m.readByte p).result = m.byte p := rfl

@[simp] theorem result_readWord (m : ByteMemory) (p : Nat) : (m.readWord p).result = m.word p := rfl

@[simp] theorem result_readBytes (m : ByteMemory) (p n : Nat) :
    (m.readBytes p n).result = m.bytes p n := rfl

@[simp] theorem result_readWords (m : ByteMemory) (p n : Nat) :
    (m.readWords p n).result = m.words p n := by
  induction n generalizing p with
  | zero => rfl
  | succ n ih => simp [readWords, words, ih]

@[simp] theorem within_readByte (m : ByteMemory) (p : Nat) :
    (m.readByte p).Within n ↔ p < n := List.forall_mem_singleton

@[simp] theorem within_readWord (m : ByteMemory) (p : Nat) :
    (m.readWord p).Within n ↔ p + 4 ≤ n := by
  simp only [Reading.Within, readWord, List.forall_mem_cons, List.not_mem_nil, false_imp_iff,
    implies_true, and_true]
  omega

@[simp] theorem within_readBytes (m : ByteMemory) (p l : Nat) :
    (m.readBytes p l).Within n ↔ l = 0 ∨ p + l ≤ n := by
  simp only [Reading.Within, readBytes, List.forall_mem_map, List.mem_range]
  constructor
  · intro h
    rcases Nat.eq_zero_or_pos l with hl | hl
    · exact .inl hl
    · have := h (l - 1) (by omega)
      omega
  · intro h i hi
    omega

@[simp] theorem within_readWords (m : ByteMemory) (p l : Nat) :
    (m.readWords p l).Within n ↔ l = 0 ∨ p + 4 * l ≤ n := by
  induction l generalizing p with
  | zero => simp [readWords]
  | succ l ih =>
      simp only [readWords, Reading.within_bind, within_readWord, ih, Reading.within_pure, and_true]
      omega

end ByteMemory

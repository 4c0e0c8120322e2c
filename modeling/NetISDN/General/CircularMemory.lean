import NetISDN.General.ByteMemory

/-!
# Circular memory

The first `size` bytes of a memory, as a circle: behind the last of them comes the first. A stretch
of the circle (`ring`) is made of at most two stretches of the memory, and grows by what is written
behind it.
-/

namespace ByteMemory

variable {m m' : ByteMemory} {size p q n k : Nat} {bs : List (BitVec 8)}

/-- The `n` bytes from `p` on, on the circle of the first `size` bytes. -/
def ring (m : ByteMemory) (size p n : Nat) : List (BitVec 8) :=
  (List.range n).map fun i => m.byte ((p + i) % size)

@[simp] theorem length_ring : (m.ring size p n).length = n := by
  rw [ring, List.length_map, List.length_range]

@[simp] theorem ring_zero : m.ring size p 0 = [] := rfl

/-- A stretch of the circle behind another. -/
theorem ring_add : m.ring size p (n + k) = m.ring size p n ++ m.ring size ((p + n) % size) k := by
  rw [ring, List.range_add, List.map_append, List.map_map]
  refine congrArg _ (List.map_congr_left fun i _ => congrArg m.byte ?_)
  show (p + (n + i)) % size = ((p + n) % size + i) % size
  rw [Nat.mod_add_mod, Nat.add_assoc]

/-- A stretch that does not come round is one of the memory. -/
theorem ring_eq_bytes (h : p + n ≤ size) : m.ring size p n = m.bytes p n := by
  refine List.map_congr_left fun i hi => congrArg m.byte (Nat.mod_eq_of_lt ?_)
  rw [List.mem_range] at hi
  omega

/-- A place on the circle, once round at most. -/
theorem mod_eq_wrap (h : q < 2 * size) : q % size = if q < size then q else q - size := by
  split
  · next hlt => exact Nat.mod_eq_of_lt hlt
  · next hge =>
      rw [Nat.mod_eq_sub_mod (Nat.not_lt.1 hge), Nat.mod_eq_of_lt (by omega)]

/-- What is written behind a stretch of the circle leaves the stretch alone. -/
theorem ring_setBytes (hp : p < size) (hq : (p + n) % size = q)
    (hlen : n + bs.length ≤ size) : (m.setBytes q bs).ring size p n = m.ring size p n := by
  refine List.map_congr_left fun i hi => frame_setBytes _ ?_
  rw [List.mem_range] at hi
  rw [mod_eq_wrap (by omega)] at hq ⊢
  split at hq
  · split <;> omega
  · split <;> omega

/-- **A stretch of the circle grows** by what is written behind it. -/
theorem ring_append (hp : p < size) (hq : (p + n) % size = q) (hfit : q + bs.length ≤ size)
    (hlen : n + bs.length ≤ size) :
    (m.setBytes q bs).ring size p (n + bs.length) = m.ring size p n ++ bs := by
  rw [ring_add, ring_setBytes hp hq hlen, hq, ring_eq_bytes hfit, bytes_setBytes]

end ByteMemory

import Mathlib.Algebra.Ring.Int.Defs
import Mathlib.Algebra.Ring.Nat
import NetISDN.General.CircularMemory
import NetISDN.General.Fifo
import NetISDN.General.Runs

/-!
# The ring buffer

`RingBuffer` (`ringbuffer.cpp`): bytes on a circle between a read and a write pointer. A copy to or
from the buffer that leaves its `size` bytes has no result (`none`), and so has a copy from a source
behind its end. The buffer is a bounded queue: it always holds what has been written and not yet
read, in order (`isBoundedFifo_of_runs`).
-/

namespace NetISDN

open Fifo (Transfer)
open TransitionSystem

/-- `ringbuffer_t` (`ringbuffer.h:40`); a `size_t` has 64 bits. -/
structure RingBuffer where
  buf : ByteMemory
  writePtr : BitVec 64
  readPtr : BitVec 64
  size : BitVec 64
  sizeMask : BitVec 64

namespace RingBuffer

/-- The loop of the constructor: the least power of two from `1<<p` on that is not below `sz`.
A shift by more than 30 overflows. -/
def powerOfTwo (sz : Int) : Nat → Nat → Option Nat
  | 0, _ => none
  | fuel + 1, p => if (2 : Int) ^ p < sz then powerOfTwo sz fuel (p + 1) else some p

/-- `RingBuffer` (`ringbuffer.cpp:37`). The bytes of the buffer are what `malloc` finds there. -/
def new (sz : Int) (mem : ByteMemory) : Option RingBuffer := do
  let p ← powerOfTwo sz 30 1
  return {
    buf := mem
    writePtr := 0
    readPtr := 0
    size := (1 : BitVec 64) <<< p
    sizeMask := (1 : BitVec 64) <<< p - 1
  }

/-- `reset` (`ringbuffer.cpp:80`). -/
def reset (rb : RingBuffer) : RingBuffer := { rb with readPtr := 0, writePtr := 0 }

/-- `writeAdvance` (`ringbuffer.cpp:87`). -/
def writeAdvance (rb : RingBuffer) (cnt : BitVec 64) : RingBuffer :=
  { rb with writePtr := (rb.writePtr + cnt) &&& rb.sizeMask }

/-- `readAdvance` (`ringbuffer.cpp:94`). -/
def readAdvance (rb : RingBuffer) (cnt : BitVec 64) : RingBuffer :=
  { rb with readPtr := (rb.readPtr + cnt) &&& rb.sizeMask }

/-- `writeSpace` (`ringbuffer.cpp:101`). -/
def writeSpace (rb : RingBuffer) : BitVec 64 :=
  let w := rb.writePtr
  let r := rb.readPtr
  if w > r then ((r - w + rb.size) &&& rb.sizeMask) - 1
  else if w < r then (r - w) - 1
  else rb.size - 1

/-- `readSpace` (`ringbuffer.cpp:117`). -/
def readSpace (rb : RingBuffer) : BitVec 64 :=
  let w := rb.writePtr
  let r := rb.readPtr
  if w > r then w - r
  else (w - r + rb.size) &&& rb.sizeMask

/-- `memcpy(dest,&(rb->buf[p]),n)`. -/
def copyOut (rb : RingBuffer) (p n : BitVec 64) : Option (List (BitVec 8)) :=
  if p.toNat + n.toNat ≤ rb.size.toNat then some (rb.buf.bytes p.toNat n.toNat) else none

/-- `memcpy(&(rb->buf[p]),src+k,n)`. -/
def copyIn (rb : RingBuffer) (p : BitVec 64) (src : List (BitVec 8)) (k n : BitVec 64) :
    Option RingBuffer :=
  if k.toNat + n.toNat ≤ src.length ∧ p.toNat + n.toNat ≤ rb.size.toNat then
    some { rb with buf := rb.buf.setBytes p.toNat ((src.drop k.toNat).take n.toNat) }
  else none

/-- The lengths `n1` and `n2` of the two copies of `read` and `write`, from a pointer on. -/
def parts (rb : RingBuffer) (ptr cnt : BitVec 64) : BitVec 64 × BitVec 64 :=
  let cnt2 := ptr + cnt
  if cnt2 > rb.size then (rb.size - ptr, cnt2 &&& rb.sizeMask) else (cnt, 0)

/-- `read` (`ringbuffer.cpp:131`): the buffer behind it, what it returns, and what it copies to
`dest`. -/
def read (rb : RingBuffer) (cnt : BitVec 64) :
    Option (RingBuffer × BitVec 64 × List (BitVec 8)) := do
  let free_cnt := rb.readSpace
  if free_cnt = 0 then return (rb, 0, [])
  let to_read := if cnt > free_cnt then free_cnt else cnt
  let (n1, n2) := rb.parts rb.readPtr to_read
  let dest ← rb.copyOut rb.readPtr n1
  let rb := rb.readAdvance n1
  if n2 = 0 then return (rb, to_read, dest)
  let dest2 ← rb.copyOut rb.readPtr n2
  return (rb.readAdvance n2, to_read, dest ++ dest2)

/-- `write` (`ringbuffer.cpp:168`): the buffer behind it, and what it returns. -/
def write (rb : RingBuffer) (src : List (BitVec 8)) (cnt : BitVec 64) :
    Option (RingBuffer × BitVec 64) := do
  let free_cnt := rb.writeSpace
  if free_cnt = 0 then return (rb, 0)
  let to_write := if cnt > free_cnt then free_cnt else cnt
  let (n1, n2) := rb.parts rb.writePtr to_write
  let rb ← rb.copyIn rb.writePtr src 0 n1
  let rb := rb.writeAdvance n1
  if n2 = 0 then return (rb, to_write)
  let rb ← rb.copyIn rb.writePtr src n1 n2
  return (rb.writeAdvance n2, to_write)

/-! ## The buffer as a queue -/

variable {rb rb' : RingBuffer} {cnt n : BitVec 64} {src : List (BitVec 8)} {mem : ByteMemory}
  {sz : Int} {k : Nat}

/-- The size is a power of two, and the pointers are below it. -/
structure WellFormed (rb : RingBuffer) : Prop where
  size : ∃ k, 1 ≤ k ∧ k ≤ 30 ∧ rb.size.toNat = 2 ^ k
  mask : rb.sizeMask.toNat = rb.size.toNat - 1
  write_lt : rb.writePtr.toNat < rb.size.toNat
  read_lt : rb.readPtr.toNat < rb.size.toNat

/-- How many bytes are in the buffer. -/
def used (rb : RingBuffer) : Nat :=
  (rb.writePtr.toNat + rb.size.toNat - rb.readPtr.toNat) % rb.size.toNat

/-- The bytes in the buffer, the oldest first. -/
def contents (rb : RingBuffer) : List (BitVec 8) :=
  rb.buf.ring rb.size.toNat rb.readPtr.toNat rb.used

@[simp] theorem length_contents : rb.contents.length = rb.used := ByteMemory.length_ring

/-- The sizes a ring can have. -/
theorem WellFormed.size_le (h : rb.WellFormed) : 2 ≤ rb.size.toNat ∧ rb.size.toNat ≤ 2 ^ 30 := by
  obtain ⟨k, hk, hk', hsize⟩ := h.size
  rw [hsize]
  exact ⟨Nat.le_self_pow (by omega) 2, Nat.pow_le_pow_right (by decide) hk'⟩

/-- The mask takes the remainder. -/
theorem WellFormed.toNat_and (h : rb.WellFormed) (x : BitVec 64) :
    (x &&& rb.sizeMask).toNat = x.toNat % rb.size.toNat := by
  obtain ⟨k, -, -, hsize⟩ := h.size
  rw [BitVec.toNat_and, h.mask, hsize, Nat.and_two_pow_sub_one_eq_mod]

/-- What is used, by where the two pointers stand. -/
theorem WellFormed.used_eq (h : rb.WellFormed) : rb.used =
    if rb.readPtr.toNat ≤ rb.writePtr.toNat then rb.writePtr.toNat - rb.readPtr.toNat
    else rb.writePtr.toNat + rb.size.toNat - rb.readPtr.toNat := by
  have hw := h.write_lt
  have hr := h.read_lt
  rw [used, ByteMemory.mod_eq_wrap (by omega)]
  split <;> split <;> omega

/-- A ring is never used up whole. -/
theorem WellFormed.used_lt (h : rb.WellFormed) : rb.used < rb.size.toNat :=
  Nat.mod_lt _ (by have := h.size_le; omega)

/-- The distance from one pointer to another, as the buffer computes it. -/
theorem WellFormed.toNat_distance (h : rb.WellFormed) {p q : BitVec 64}
    (hp : p.toNat < rb.size.toNat) (hq : q.toNat < rb.size.toNat) :
    ((p - q + rb.size) &&& rb.sizeMask).toNat =
      (p.toNat + rb.size.toNat - q.toNat) % rb.size.toNat := by
  have hsize := h.size_le
  rw [h.toNat_and, BitVec.toNat_add, BitVec.toNat_sub]
  congr 1
  omega

/-- `readSpace` is the number of bytes in the buffer. -/
theorem WellFormed.toNat_readSpace (h : rb.WellFormed) : rb.readSpace.toNat = rb.used := by
  have hw := h.write_lt
  have hr := h.read_lt
  rw [readSpace]
  simp only [BitVec.lt_def, gt_iff_lt]
  split
  · next hlt =>
      rw [h.used_eq, if_pos (by omega), BitVec.toNat_sub]
      omega
  · rw [h.toNat_distance hw hr, used]

/-- `writeSpace` is what is left of all bytes of the buffer but one. -/
theorem WellFormed.toNat_writeSpace (h : rb.WellFormed) :
    rb.writeSpace.toNat = rb.size.toNat - 1 - rb.used := by
  have hw := h.write_lt
  have hr := h.read_lt
  have hsize := h.size_le
  have hone : (1 : BitVec 64).toNat = 1 := rfl
  rw [h.used_eq, writeSpace]
  simp only [BitVec.lt_def, gt_iff_lt]
  split
  · next hlt =>
      have hdist := h.toNat_distance hr hw
      rw [Nat.mod_eq_of_lt (by omega)] at hdist
      rw [if_pos (by omega), BitVec.toNat_sub, hdist, hone]
      omega
  · split
    · next hlt =>
        rw [if_neg (by omega), BitVec.toNat_sub, BitVec.toNat_sub, hone]
        omega
    · rw [if_pos (by omega), BitVec.toNat_sub, hone]
      omega

/-- One byte of a ring always stays empty. -/
theorem WellFormed.spaces (h : rb.WellFormed) :
    rb.readSpace.toNat + rb.writeSpace.toNat = rb.size.toNat - 1 := by
  have hused := h.used_lt
  rw [h.toNat_readSpace, h.toNat_writeSpace]
  omega

/-! ## The pointers -/

/-- A pointer that moves on. -/
theorem WellFormed.toNat_advance (h : rb.WellFormed) {p : BitVec 64} (hp : p.toNat < rb.size.toNat)
    {cnt : BitVec 64} (hcnt : cnt.toNat ≤ rb.size.toNat) :
    ((p + cnt) &&& rb.sizeMask).toNat = (p.toNat + cnt.toNat) % rb.size.toNat := by
  have hsize := h.size_le
  rw [h.toNat_and, BitVec.toNat_add, Nat.mod_eq_of_lt (b := 2 ^ 64) (by omega)]

/-- Moving the write pointer keeps the ring well formed. -/
theorem WellFormed.writeAdvance (h : rb.WellFormed) : (rb.writeAdvance cnt).WellFormed where
  size := h.size
  mask := h.mask
  write_lt := by
    rw [RingBuffer.writeAdvance, h.toNat_and]
    exact Nat.mod_lt _ (by have := h.size_le; omega)
  read_lt := h.read_lt

/-- Moving the read pointer keeps the ring well formed. -/
theorem WellFormed.readAdvance (h : rb.WellFormed) : (rb.readAdvance cnt).WellFormed where
  size := h.size
  mask := h.mask
  write_lt := h.write_lt
  read_lt := by
    rw [RingBuffer.readAdvance, h.toNat_and]
    exact Nat.mod_lt _ (by have := h.size_le; omega)

/-- A ring that is emptied is well formed. -/
theorem WellFormed.reset (h : rb.WellFormed) : rb.reset.WellFormed where
  size := h.size
  mask := h.mask
  write_lt := Nat.zero_lt_of_lt h.write_lt
  read_lt := Nat.zero_lt_of_lt h.write_lt

/-- `reset` empties the buffer. -/
theorem contents_reset : rb.reset.contents = [] := by
  have hused : rb.reset.used = 0 := by simp [used, RingBuffer.reset]
  rw [contents, hused, ByteMemory.ring_zero]

/-- The write pointer stands behind the bytes in the buffer. -/
theorem WellFormed.writePtr_eq (h : rb.WellFormed) :
    (rb.readPtr.toNat + rb.used) % rb.size.toNat = rb.writePtr.toNat := by
  have hw := h.write_lt
  have hr := h.read_lt
  have hused := h.used_eq
  rw [ByteMemory.mod_eq_wrap (by have := h.used_lt; omega)]
  split at hused <;> split <;> omega

/-- What is written is used, as long as it fits. -/
theorem WellFormed.used_writeAdvance (h : rb.WellFormed)
    (hcnt : rb.used + cnt.toNat < rb.size.toNat) :
    (rb.writeAdvance cnt).used = rb.used + cnt.toNat := by
  have hw := h.write_lt
  have hr := h.read_lt
  have hadv := h.toNat_advance hw (show cnt.toNat ≤ rb.size.toNat by omega)
  have hused := h.used_eq
  have hused' : (rb.writeAdvance cnt).used =
      if rb.readPtr.toNat ≤ ((rb.writePtr + cnt) &&& rb.sizeMask).toNat
      then ((rb.writePtr + cnt) &&& rb.sizeMask).toNat - rb.readPtr.toNat
      else ((rb.writePtr + cnt) &&& rb.sizeMask).toNat + rb.size.toNat - rb.readPtr.toNat :=
    h.writeAdvance.used_eq
  rw [ByteMemory.mod_eq_wrap (by omega)] at hadv
  rw [hused']
  split at hused <;> split at hadv <;> split <;> omega

/-- What is read is free again. -/
theorem WellFormed.used_readAdvance (h : rb.WellFormed) (hcnt : cnt.toNat ≤ rb.used) :
    (rb.readAdvance cnt).used = rb.used - cnt.toNat := by
  have hw := h.write_lt
  have hr := h.read_lt
  have hlt := h.used_lt
  have hadv := h.toNat_advance hr (show cnt.toNat ≤ rb.size.toNat by omega)
  have hused := h.used_eq
  have hused' : (rb.readAdvance cnt).used =
      if ((rb.readPtr + cnt) &&& rb.sizeMask).toNat ≤ rb.writePtr.toNat
      then rb.writePtr.toNat - ((rb.readPtr + cnt) &&& rb.sizeMask).toNat
      else rb.writePtr.toNat + rb.size.toNat - ((rb.readPtr + cnt) &&& rb.sizeMask).toNat :=
    h.readAdvance.used_eq
  rw [ByteMemory.mod_eq_wrap (by omega)] at hadv
  rw [hused']
  split at hused <;> split at hadv <;> split <;> omega

/-- What `writeAdvance` adds to the contents. -/
theorem WellFormed.contents_writeAdvance (h : rb.WellFormed)
    (hcnt : rb.used + cnt.toNat < rb.size.toNat) : (rb.writeAdvance cnt).contents =
      rb.contents ++ rb.buf.ring rb.size.toNat rb.writePtr.toNat cnt.toNat := by
  rw [contents, h.used_writeAdvance hcnt]
  show rb.buf.ring rb.size.toNat rb.readPtr.toNat (rb.used + cnt.toNat) = _
  rw [ByteMemory.ring_add, h.writePtr_eq, contents]

/-- What `readAdvance` takes off the contents. -/
theorem WellFormed.contents_readAdvance (h : rb.WellFormed) (hcnt : cnt.toNat ≤ rb.used) :
    (rb.readAdvance cnt).contents = rb.contents.drop cnt.toNat := by
  have hlt := h.used_lt
  have hadv := h.toNat_advance h.read_lt (show cnt.toNat ≤ rb.size.toNat by omega)
  have hsplit : rb.contents = rb.buf.ring rb.size.toNat rb.readPtr.toNat cnt.toNat ++
      rb.buf.ring rb.size.toNat ((rb.readPtr.toNat + cnt.toNat) % rb.size.toNat)
        (rb.used - cnt.toNat) := by
    rw [← ByteMemory.ring_add, contents, Nat.add_sub_cancel' hcnt]
  rw [hsplit, List.drop_left' ByteMemory.length_ring, contents, h.used_readAdvance hcnt, ← hadv]
  rfl

/-! ## Copies -/

/-- The two parts of a copy: the first ends at the end of the buffer, if there is a second. -/
theorem WellFormed.parts_spec (h : rb.WellFormed) {ptr n1 n2 : BitVec 64}
    (hptr : ptr.toNat < rb.size.toNat) (hcnt : cnt.toNat < rb.size.toNat)
    (hparts : rb.parts ptr cnt = (n1, n2)) :
    n1.toNat + n2.toNat = cnt.toNat ∧ ptr.toNat + n1.toNat ≤ rb.size.toNat ∧
      (n2 ≠ 0 → ptr.toNat + n1.toNat = rb.size.toNat) := by
  have hsize := h.size_le
  have hsum : (ptr + cnt).toNat = ptr.toNat + cnt.toNat := by
    rw [BitVec.toNat_add]
    omega
  rw [parts] at hparts
  simp only [gt_iff_lt, BitVec.lt_def, hsum] at hparts
  split at hparts
  · next hwrap =>
      obtain ⟨rfl, rfl⟩ := Prod.mk.inj hparts
      have hn1 : (rb.size - ptr).toNat = rb.size.toNat - ptr.toNat := by
        rw [BitVec.toNat_sub]
        omega
      have hn2 : ((ptr + cnt) &&& rb.sizeMask).toNat = ptr.toNat + cnt.toNat - rb.size.toNat := by
        rw [h.toNat_advance hptr (by omega), ByteMemory.mod_eq_wrap (by omega), if_neg (by omega)]
      rw [hn1, hn2]
      omega
  · next hfits =>
      obtain ⟨rfl, rfl⟩ := Prod.mk.inj hparts
      exact ⟨rfl, Nat.not_lt.1 hfits, fun hne => absurd rfl hne⟩

/-- The first bytes of the contents, where they do not come round. -/
theorem copyOut_eq (hn : n.toNat ≤ rb.used)
    (hfit : rb.readPtr.toNat + n.toNat ≤ rb.size.toNat) :
    rb.copyOut rb.readPtr n = some (rb.contents.take n.toNat) := by
  have hsplit : rb.contents = rb.buf.ring rb.size.toNat rb.readPtr.toNat n.toNat ++
      rb.buf.ring rb.size.toNat ((rb.readPtr.toNat + n.toNat) % rb.size.toNat)
        (rb.used - n.toNat) := by
    rw [← ByteMemory.ring_add, contents, Nat.add_sub_cancel' hn]
  rw [copyOut, if_pos hfit, hsplit, List.take_left' ByteMemory.length_ring,
    ByteMemory.ring_eq_bytes hfit]

/-- `read` delivers the oldest bytes, as many as it is asked for and has. -/
theorem WellFormed.read_spec (h : rb.WellFormed) (cnt : BitVec 64) : ∃ rb' n,
    rb.read cnt = some (rb', n, rb.contents.take n.toNat) ∧ n.toNat = min cnt.toNat rb.used ∧
      rb'.WellFormed ∧ rb'.size = rb.size ∧ rb'.contents = rb.contents.drop n.toNat := by
  have hspace := h.toNat_readSpace
  have hlt := h.used_lt
  by_cases hempty : rb.readSpace = 0
  · have hused : rb.used = 0 := by rw [← hspace, hempty]; rfl
    have hnil : rb.contents = [] := by rw [contents, hused, ByteMemory.ring_zero]
    refine ⟨rb, 0, ?_, by simp [hused], h, rfl, by simp [hnil]⟩
    simp [read, hempty]
  · obtain ⟨n, hn, hmin⟩ : ∃ n, n = (if cnt > rb.readSpace then rb.readSpace else cnt) ∧
        n.toNat = min cnt.toNat rb.used := by
      refine ⟨_, rfl, ?_⟩
      simp only [gt_iff_lt, BitVec.lt_def, hspace]
      split <;> omega
    obtain ⟨n1, n2, hparts⟩ : ∃ n1 n2, rb.parts rb.readPtr n = (n1, n2) := ⟨_, _, rfl⟩
    obtain ⟨hsum, hfit, hend⟩ := h.parts_spec h.read_lt (by omega) hparts
    have hcopy := copyOut_eq (by omega) hfit
    have hrest := h.contents_readAdvance (show n1.toNat ≤ rb.used by omega)
    simp only [read, if_neg hempty, ← hn, hparts, hcopy, Option.bind_eq_bind, Option.bind_some]
    by_cases hn2 : n2 = 0
    · obtain hn1 : n1.toNat = n.toNat := by
        rw [hn2] at hsum
        exact hsum
      rw [if_pos hn2, hn1]
      exact ⟨_, n, rfl, hmin, h.readAdvance, rfl, hn1 ▸ hrest⟩
    · have hptr : (rb.readAdvance n1).readPtr.toNat = 0 := by
        rw [RingBuffer.readAdvance, h.toNat_advance h.read_lt (by omega), hend hn2, Nat.mod_self]
      have hused := h.used_readAdvance (show n1.toNat ≤ rb.used by omega)
      have hcopy' := copyOut_eq (show n2.toNat ≤ (rb.readAdvance n1).used by omega)
        (show _ ≤ rb.size.toNat by omega)
      have hrest' := h.readAdvance.contents_readAdvance
        (show n2.toNat ≤ (rb.readAdvance n1).used by omega)
      rw [if_neg hn2, hcopy', Option.bind_some, hrest, ← List.take_add, hsum]
      refine ⟨_, n, rfl, hmin, h.readAdvance.readAdvance, rfl, ?_⟩
      rw [hrest', hrest, List.drop_drop, hsum]

/-- Bytes copied in at the write pointer are behind the contents once it has moved on. -/
theorem WellFormed.copyIn_spec (h : rb.WellFormed) {k : BitVec 64}
    (hsrc : k.toNat + n.toNat ≤ src.length) (hfit : rb.writePtr.toNat + n.toNat ≤ rb.size.toNat)
    (hroom : rb.used + n.toNat < rb.size.toNat) : ∃ rb', rb.copyIn rb.writePtr src k n = some rb' ∧
      rb'.WellFormed ∧ rb'.size = rb.size ∧ rb'.writePtr = rb.writePtr ∧ rb'.used = rb.used ∧
      (rb'.writeAdvance n).contents = rb.contents ++ (src.drop k.toNat).take n.toNat := by
  have hlen : ((src.drop k.toNat).take n.toNat).length = n.toNat := by
    rw [List.length_take, List.length_drop]
    omega
  obtain ⟨rb₁, hrb₁⟩ : ∃ rb₁ : RingBuffer, rb₁ = { rb with
    buf := rb.buf.setBytes rb.writePtr.toNat ((src.drop k.toNat).take n.toNat) } := ⟨_, rfl⟩
  have h₁ : rb₁.WellFormed := hrb₁ ▸ ⟨h.size, h.mask, h.write_lt, h.read_lt⟩
  have hused : rb₁.used = rb.used := hrb₁ ▸ rfl
  have hsize : rb₁.size = rb.size := hrb₁ ▸ rfl
  refine ⟨rb₁, by rw [copyIn, if_pos ⟨hsrc, hfit⟩, hrb₁], h₁, hsize, hrb₁ ▸ rfl, hused, ?_⟩
  rw [contents, h₁.used_writeAdvance (by rw [hused, hsize]; exact hroom), hused, hrb₁]
  have hgrow := ByteMemory.ring_append (m := rb.buf) h.read_lt h.writePtr_eq
    (show _ + ((src.drop k.toNat).take n.toNat).length ≤ _ by omega) (by omega)
  rw [hlen] at hgrow
  exact hgrow

/-- `write` appends the first bytes of the source, as many as it is given and has room for. -/
theorem WellFormed.write_spec (h : rb.WellFormed) (hsrc : cnt.toNat ≤ src.length) : ∃ rb' n,
    rb.write src cnt = some (rb', n) ∧ n.toNat = min cnt.toNat (rb.size.toNat - 1 - rb.used) ∧
      rb'.WellFormed ∧ rb'.size = rb.size ∧ rb'.contents = rb.contents ++ src.take n.toNat := by
  have hspace := h.toNat_writeSpace
  have hlt := h.used_lt
  by_cases hfull : rb.writeSpace = 0
  · have hroom : rb.size.toNat - 1 - rb.used = 0 := by rw [← hspace, hfull]; rfl
    refine ⟨rb, 0, ?_, by simp [hroom], h, rfl, by simp⟩
    simp [write, hfull]
  · obtain ⟨n, hn, hmin⟩ : ∃ n, n = (if cnt > rb.writeSpace then rb.writeSpace else cnt) ∧
        n.toNat = min cnt.toNat (rb.size.toNat - 1 - rb.used) := by
      refine ⟨_, rfl, ?_⟩
      simp only [gt_iff_lt, BitVec.lt_def, hspace]
      split <;> omega
    obtain ⟨n1, n2, hparts⟩ : ∃ n1 n2, rb.parts rb.writePtr n = (n1, n2) := ⟨_, _, rfl⟩
    obtain ⟨hsum, hfit, hend⟩ := h.parts_spec h.write_lt (by omega) hparts
    obtain ⟨rb₁, hcopy, h₁, hsize, hptr, hused, hcontents⟩ :=
      h.copyIn_spec (k := 0) (show 0 + n1.toNat ≤ src.length by omega) hfit (by omega)
    have hsz : rb₁.size.toNat = rb.size.toNat := congrArg BitVec.toNat hsize
    simp only [write, if_neg hfull, ← hn, hparts, hcopy, Option.bind_eq_bind, Option.bind_some]
    by_cases hn2 : n2 = 0
    · obtain hn1 : n1.toNat = n.toNat := by
        rw [hn2] at hsum
        exact hsum
      rw [if_pos hn2]
      exact ⟨_, n, rfl, hmin, h₁.writeAdvance, hsize, by simpa [hn1] using hcontents⟩
    · have hptr' : (rb₁.writeAdvance n1).writePtr.toNat = 0 := by
        rw [RingBuffer.writeAdvance, h₁.toNat_advance h₁.write_lt (by omega), hptr, hsize, hend hn2,
          Nat.mod_self]
      have hused' := h₁.used_writeAdvance (show rb₁.used + n1.toNat < rb₁.size.toNat by omega)
      obtain ⟨rb₂, hcopy', h₂, hsize', -, -, hcontents'⟩ :=
        h₁.writeAdvance.copyIn_spec (show n1.toNat + n2.toNat ≤ src.length by omega)
          (show (rb₁.writeAdvance n1).writePtr.toNat + n2.toNat ≤ rb₁.size.toNat by omega)
          (show (rb₁.writeAdvance n1).used + n2.toNat < rb₁.size.toNat by omega)
      rw [if_neg hn2, hcopy', Option.bind_some]
      refine ⟨_, n, rfl, hmin, h₂.writeAdvance, hsize'.trans hsize, ?_⟩
      have hdrop : src.drop (0 : BitVec 64).toNat = src := rfl
      rw [hcontents', hcontents, hdrop, List.append_assoc, ← List.take_add, hsum]

/-! ## Runs -/

/-- A call of a function of the buffer. -/
inductive Call where
  | write (src : List (BitVec 8)) (cnt : BitVec 64)
  | read (cnt : BitVec 64)
  | writeAdvance (cnt : BitVec 64)
  | readAdvance (cnt : BitVec 64)
  | reset

/-- The source of a `write` has `cnt` bytes, and a pointer moves on by what there is space for. -/
def Allowed (rb : RingBuffer) : Call → Prop
  | .write src cnt => cnt.toNat ≤ src.length
  | .read _ => True
  | .writeAdvance cnt => cnt ≤ rb.writeSpace
  | .readAdvance cnt => cnt ≤ rb.readSpace
  | .reset => True

instance (rb : RingBuffer) (call : Call) : Decidable (Allowed rb call) := by
  cases call <;> unfold Allowed <;> infer_instance

/-- A call, and what it transfers: what a `write` has said to have taken enters, and what a `read`
has copied to `dest` leaves. A pointer that moves on lets in the bytes that it passes in the buffer,
or out. -/
def step (rb : RingBuffer) : Call → Option (RingBuffer × List (Transfer (BitVec 8)))
  | .write src cnt => (rb.write src cnt).map fun (rb', n) => (rb', [.enter (src.take n.toNat)])
  | .read cnt => (rb.read cnt).map fun (rb', _, dest) => (rb', [.leave dest])
  | .writeAdvance cnt => some (rb.writeAdvance cnt,
      [.enter (rb.buf.ring rb.size.toNat rb.writePtr.toNat cnt.toNat)])
  | .readAdvance cnt => some (rb.readAdvance cnt,
      [.leave (rb.buf.ring rb.size.toNat rb.readPtr.toNat cnt.toNat)])
  | .reset => some (rb.reset, [.clear])

/-- Every call that is allowed returns, and makes a transfer. -/
theorem WellFormed.step_spec (h : rb.WellFormed) {call : Call} (hcall : Allowed rb call) :
    ∃ rb' t, step rb call = some (rb', [t]) ∧ rb'.WellFormed ∧ rb'.size = rb.size ∧
      Fifo.Transfers rb.contents t rb'.contents := by
  cases call with
  | write src cnt =>
      obtain ⟨rb', n, hwrite, -, h', hsize, hcontents⟩ := h.write_spec hcall
      exact ⟨rb', .enter (src.take n.toNat), by rw [step, hwrite, Option.map_some], h', hsize,
        hcontents⟩
  | read cnt =>
      obtain ⟨rb', n, hread, -, h', hsize, hcontents⟩ := h.read_spec cnt
      refine ⟨rb', _, by rw [step, hread, Option.map_some], h', hsize, ?_⟩
      show rb.contents = rb.contents.take n.toNat ++ rb'.contents
      rw [hcontents, List.take_append_drop]
  | writeAdvance cnt =>
      have hle : cnt.toNat ≤ rb.writeSpace.toNat := hcall
      rw [h.toNat_writeSpace] at hle
      have hused := h.used_lt
      exact ⟨_, _, rfl, h.writeAdvance, rfl, h.contents_writeAdvance (by omega)⟩
  | readAdvance cnt =>
      have hle : cnt.toNat ≤ rb.readSpace.toNat := hcall
      rw [h.toNat_readSpace] at hle
      refine ⟨_, _, rfl, h.readAdvance, rfl, ?_⟩
      have hsplit : rb.contents.take cnt.toNat =
          rb.buf.ring rb.size.toNat rb.readPtr.toNat cnt.toNat := by
        rw [contents, ← Nat.add_sub_cancel' hle, ByteMemory.ring_add,
          List.take_left' ByteMemory.length_ring]
      show rb.contents = _ ++ _
      rw [h.contents_readAdvance hle, ← hsplit, List.take_append_drop]
  | reset => exact ⟨_, _, rfl, h.reset, rfl, contents_reset⟩

/-- The buffer for `sz` bytes is a bounded queue: its pointers stay below its size, its spaces add
up, and what has entered is what has left, and then what is in it. Its functions neither fail nor
leave the buffer, and do to the contents what those of a queue do. -/
structure IsBoundedFifo (sz : Int) (rb : RingBuffer) (tr : List (Transfer (BitVec 8))) : Prop where
  size : ∃ k, rb.size.toNat = 2 ^ k ∧ sz ≤ 2 ^ k
  pointers : rb.writePtr.toNat < rb.size.toNat ∧ rb.readPtr.toNat < rb.size.toNat
  spaces : rb.readSpace.toNat + rb.writeSpace.toNat = rb.size.toNat - 1
  contents : rb.contents.length = rb.readSpace.toNat
  history : Fifo.entered tr = Fifo.left tr ++ rb.contents
  write : ∀ src cnt, cnt.toNat ≤ src.length → ∃ rb' n, rb.write src cnt = some (rb', n) ∧
    n.toNat = min cnt.toNat rb.writeSpace.toNat ∧
    rb'.contents = rb.contents ++ src.take (min cnt.toNat rb.writeSpace.toNat)
  read : ∀ cnt, ∃ rb' n, rb.read cnt =
      some (rb', n, rb.contents.take (min cnt.toNat rb.readSpace.toNat)) ∧
    n.toNat = min cnt.toNat rb.readSpace.toNat ∧
    rb'.contents = rb.contents.drop (min cnt.toNat rb.readSpace.toNat)
  advance : ∀ call, Allowed rb call → (step rb call).isSome

/-- A well-formed ring that holds what was entered and has not left is a bounded queue. -/
theorem WellFormed.isBoundedFifo (h : rb.WellFormed) {tr : List (Transfer (BitVec 8))}
    (hsz : sz ≤ rb.size.toNat) (hhistory : Fifo.entered tr = Fifo.left tr ++ rb.contents) :
    IsBoundedFifo sz rb tr := by
  refine ⟨?_, ⟨h.write_lt, h.read_lt⟩, h.spaces, ?_, hhistory, fun src cnt hsrc => ?_,
    fun cnt => ?_, fun call hcall => ?_⟩
  · obtain ⟨k, -, -, hsize⟩ := h.size
    rw [hsize] at hsz
    exact ⟨k, hsize, by exact_mod_cast hsz⟩
  · rw [length_contents, h.toNat_readSpace]
  · obtain ⟨rb', n, hwrite, hn, -, -, hcontents⟩ := h.write_spec hsrc
    rw [← h.toNat_writeSpace] at hn
    exact ⟨rb', n, hwrite, hn, hn ▸ hcontents⟩
  · obtain ⟨rb', n, hread, hn, -, -, hcontents⟩ := h.read_spec cnt
    rw [← h.toNat_readSpace] at hn
    exact ⟨rb', n, hn ▸ hread, hn, hn ▸ hcontents⟩
  · obtain ⟨rb', t, hstep, -⟩ := h.step_spec hcall
    rw [hstep]
    rfl

/-- The constructor finds the least power of two that is not below the size asked for. -/
theorem powerOfTwo_spec (fuel p : Nat) (hsz : sz ≤ 2 ^ (p + fuel - 1)) (hp : 1 ≤ p)
    (hfuel : 1 ≤ fuel) :
    ∃ k, powerOfTwo sz fuel p = some k ∧ p ≤ k ∧ k ≤ p + fuel - 1 ∧ sz ≤ 2 ^ k := by
  induction fuel generalizing p with
  | zero => omega
  | succ fuel ih =>
      rw [powerOfTwo]
      split
      · next hlt =>
          cases fuel with
          | zero => exact absurd hlt (Int.not_lt.2 hsz)
          | succ fuel =>
              obtain ⟨k, hk, hle, hle', hsz'⟩ := ih (p := p + 1)
                (by rwa [show p + 1 + (fuel + 1) - 1 = p + (fuel + 1 + 1) - 1 by omega])
                (by omega) (by omega)
              exact ⟨k, hk, by omega, by omega, hsz'⟩
      · next hge => exact ⟨p, rfl, Nat.le_refl p, by omega, Int.not_lt.1 hge⟩

/-- A new buffer is empty. -/
theorem new_spec (mem : ByteMemory) (hsz : sz ≤ 2 ^ 30) : ∃ rb, new sz mem = some rb ∧
    rb.WellFormed ∧ sz ≤ rb.size.toNat ∧ rb.contents = [] := by
  obtain ⟨k, hk, hle, hle', hsz'⟩ := powerOfTwo_spec 30 1 hsz (by omega) (by omega)
  have hpow : 2 ^ k ≤ 2 ^ 30 := Nat.pow_le_pow_right (by decide) hle'
  have hpos : 2 ≤ 2 ^ k := Nat.le_self_pow (by omega) 2
  have hone : (1 : BitVec 64).toNat = 1 := rfl
  have hsize : ((1 : BitVec 64) <<< k).toNat = 2 ^ k := by
    rw [BitVec.toNat_shiftLeft, hone, Nat.shiftLeft_eq, Nat.one_mul, Nat.mod_eq_of_lt (by omega)]
  have hmask : ((1 : BitVec 64) <<< k - 1).toNat = 2 ^ k - 1 := by
    rw [BitVec.toNat_sub, hone, hsize]
    omega
  have hlt : 0 < ((1 : BitVec 64) <<< k).toNat := by omega
  refine ⟨⟨mem, 0, 0, (1 : BitVec 64) <<< k, (1 : BitVec 64) <<< k - 1⟩, by rw [new, hk]; rfl,
    ⟨⟨k, hle, hle', hsize⟩, ?_, hlt, hlt⟩, ?_, @contents_reset ⟨mem, 0, 0, _, _⟩⟩
  · show ((1 : BitVec 64) <<< k - 1).toNat = ((1 : BitVec 64) <<< k).toNat - 1
    rw [hmask, hsize]
  · show sz ≤ ((1 : BitVec 64) <<< k).toNat
    rw [hsize]
    exact_mod_cast hsz'

/-- **The ring buffer is a bounded queue**, whatever is called on it. A size below 1 is one of 2. -/
theorem isBoundedFifo_of_runs (hsz : sz ≤ 2 ^ 30) (mem : ByteMemory) :
    ∃ rb₀, new sz mem = some rb₀ ∧ ∀ calls rb tr, Runs step Allowed rb₀ calls rb tr →
      IsBoundedFifo sz rb tr := by
  obtain ⟨rb₀, hnew, h₀, hsz₀, hempty⟩ := new_spec mem hsz
  refine ⟨rb₀, hnew, fun calls rb tr hr => ?_⟩
  obtain ⟨h, hsize, hhistory⟩ : rb.WellFormed ∧ rb.size = rb₀.size ∧
      Fifo.entered tr = Fifo.left tr ++ rb.contents := by
    refine hr.invariant_history (I := fun _ rb tr => rb.WellFormed ∧ rb.size = rb₀.size ∧
      Fifo.entered tr = Fifo.left tr ++ rb.contents) ⟨h₀, rfl, ?_⟩ ?_
    · rw [hempty]
      rfl
    · rintro calls rb tr call rb' out - ⟨h, hsize, hhistory⟩ hcall hstep
      obtain ⟨rb₁, t, hstep', h', hsize', ht⟩ := h.step_spec hcall
      obtain ⟨rfl, rfl⟩ := Prod.mk.inj (Option.some.inj (hstep.symm.trans hstep'))
      exact ⟨h', hsize'.trans hsize, ht.conservation hhistory⟩
  exact h.isBoundedFifo (by rwa [hsize]) hhistory

/-- A buffer for 3 bytes holds 3: of 4 bytes, the first 3 are taken; one is read, and two more are
asked for, of which one is taken, behind the end of the buffer. -/
theorem isBoundedFifo_of_runs_demo : ∃ rb₀ rb tr, new 3 (fun _ => 0) = some rb₀ ∧
    Runs step Allowed rb₀ [.write [1, 2, 3, 4] 4, .read 1, .write [5, 6] 2] rb tr ∧
      rb.contents = [2, 3, 5] ∧ IsBoundedFifo 3 rb tr := by
  obtain ⟨rb₀, hnew, hall⟩ := isBoundedFifo_of_runs (show 3 ≤ 2 ^ 30 by decide) (fun _ => 0)
  have hrb₀ : rb₀ = ⟨fun _ => 0, 0, 0, 4, 3⟩ := (Option.some.inj hnew).symm
  have hrun : (run step Allowed ⟨fun _ => 0, 0, 0, 4, 3⟩
      [.write [1, 2, 3, 4] 4, .read 1, .write [5, 6] 2]).any (fun x =>
        x.1.contents = [2, 3, 5]) := by
    decide +kernel
  obtain ⟨⟨rb, tr⟩, hrun, hcontents⟩ := (Option.any_eq_true _ _).1 hrun
  have hruns := runs_of_run hrun
  rw [← hrb₀] at hruns
  exact ⟨rb₀, rb, tr, hnew, hruns, of_decide_eq_true hcontents, hall _ _ _ hruns⟩

end RingBuffer

end NetISDN

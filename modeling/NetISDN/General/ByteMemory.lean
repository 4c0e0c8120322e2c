import Mathlib.Data.List.Basic

/-!
# Words and bytes in a memory

A memory has a byte at each address. A word is stored in network order, its most significant byte
first. Each operation comes with what it reads back where it has written, and with the frame that
it leaves alone.
-/

/-- A byte at each address. -/
def ByteMemory : Type := Nat → BitVec 8

namespace ByteMemory

variable {m m' : ByteMemory} {p q a n i : Nat} {w : BitVec 32} {bs : List (BitVec 8)}
  {ws : List (BitVec 32)}

/-- The byte at an address. -/
def byte (m : ByteMemory) (a : Nat) : BitVec 8 := m a

/-- The word at `p`: `ntohl(*p)`. -/
def word (m : ByteMemory) (p : Nat) : BitVec 32 :=
  m.byte p ++ m.byte (p + 1) ++ m.byte (p + 2) ++ m.byte (p + 3)

/-- The memory with other bytes from `p` on. -/
def setBytes (m : ByteMemory) (p : Nat) (bs : List (BitVec 8)) : ByteMemory :=
  fun a => if p ≤ a then (bs[a - p]?).getD (m a) else m a

/-- The bytes of a word. -/
def wordBytes (w : BitVec 32) : List (BitVec 8) :=
  [w.extractLsb' 24 8, w.extractLsb' 16 8, w.extractLsb' 8 8, w.extractLsb' 0 8]

/-- The memory with another word at `p`: `*p=htonl(w)`. -/
def setWord (m : ByteMemory) (p : Nat) (w : BitVec 32) : ByteMemory := m.setBytes p (wordBytes w)

/-- The memory with other words from `p` on. -/
def setWords (m : ByteMemory) (p : Nat) : List (BitVec 32) → ByteMemory
  | [] => m
  | w :: ws => (m.setWord p w).setWords (p + 4) ws

/-- The `n` bytes from `p` on. -/
def bytes (m : ByteMemory) (p n : Nat) : List (BitVec 8) :=
  (List.range n).map fun i => m.byte (p + i)

/-- The `n` words from `p` on. -/
def words (m : ByteMemory) (p : Nat) : Nat → List (BitVec 32)
  | 0 => []
  | n + 1 => m.word p :: m.words (p + 4) n

/-- `m'` is `m` outside the `n` bytes from `p` on. -/
def Frame (p n : Nat) (m m' : ByteMemory) : Prop :=
  ∀ a, a < p ∨ p + n ≤ a → m'.byte a = m.byte a

/-- `m'` is `m` on the `n` bytes from `p` on. -/
def Agree (p n : Nat) (m m' : ByteMemory) : Prop :=
  ∀ a, p ≤ a → a < p + n → m'.byte a = m.byte a

/-! ## Bytes -/

/-- A byte that has been stored. -/
theorem byte_setBytes (h : i < bs.length) : (m.setBytes p bs).byte (p + i) = bs[i] := by
  simp [byte, setBytes, h]

/-- Storing bytes changes no others. -/
theorem frame_setBytes : Frame p bs.length m (m.setBytes p bs) := by
  intro a ha
  rcases ha with ha | ha
  · simp [byte, setBytes, Nat.not_le.2 ha]
  · have hle : bs.length ≤ a - p := by omega
    simp [byte, setBytes, hle]

/-- Bytes that have been stored are there. -/
theorem bytes_setBytes : (m.setBytes p bs).bytes p bs.length = bs := by
  refine List.ext_getElem (by simp [bytes]) fun i h h' => ?_
  simp [bytes, byte_setBytes h']

@[simp] theorem length_bytes : (m.bytes p n).length = n := by
  rw [bytes, List.length_map, List.length_range]

/-- No bytes are stored. -/
theorem setBytes_nil : m.setBytes p [] = m := by
  funext a
  simp [setBytes]

/-- Bytes that are written one run after the other are written at once. -/
theorem setBytes_append {cs : List (BitVec 8)} :
    (m.setBytes p bs).setBytes (p + bs.length) cs = m.setBytes p (bs ++ cs) := by
  funext a
  simp only [setBytes, List.getElem?_append]
  split
  · next hle =>
      have hp : p ≤ a := by omega
      have hlt : ¬ a - p < bs.length := by omega
      simp only [hp, hlt, if_true, if_false, Nat.sub_sub,
        List.getElem?_eq_none (Nat.not_lt.1 hlt), Option.getD_none]
  · next hle =>
      split
      · next hp =>
          have hlt : a - p < bs.length := by omega
          rw [if_pos hlt]
      · rfl

/-- A byte from `p` on, whether it has been written or not. -/
theorem byte_setBytes_add : (m.setBytes p bs).byte (p + i) = (bs[i]?).getD (m.byte (p + i)) := by
  simp [byte, setBytes]

/-- A byte among zeros. -/
theorem byte_setBytes_zero (h : i < n) :
    (m.setBytes p (List.replicate n 0)).byte (p + i) = 0 := by
  rw [byte_setBytes (by rwa [List.length_replicate]), List.getElem_replicate]

@[simp] theorem length_words : (m.words p n).length = n := by
  induction n generalizing p with
  | zero => rfl
  | succ n ih => rw [words, List.length_cons, ih]

/-- Bytes that are copied agree with the original. -/
theorem agree_setBytes : Agree p n m (m'.setBytes p (m.bytes p n)) := by
  intro a hp hn
  have hlt : a - p < (m.bytes p n).length := by
    rw [length_bytes]
    omega
  have hbyte := byte_setBytes (m := m') (p := p) hlt
  rw [show p + (a - p) = a by omega] at hbyte
  rw [hbyte]
  simp [bytes, show p + (a - p) = a by omega]

/-- The first byte, and the others. -/
theorem bytes_succ : m.bytes p (n + 1) = m.byte p :: m.bytes (p + 1) n := by
  simp only [bytes, List.range_succ_eq_map, List.map_cons, List.map_map, Nat.add_zero]
  exact congrArg _ (List.map_congr_left fun i _ =>
    congrArg m.byte (by simp only [Nat.succ_eq_add_one]; omega))

/-- Two pieces of memory, one behind the other. -/
theorem bytes_add : m.bytes p (n + i) = m.bytes p n ++ m.bytes (p + n) i := by
  rw [bytes, List.range_add, List.map_append, List.map_map, bytes, bytes]
  exact congrArg _ (List.map_congr_left fun k _ => congrArg m.byte (Nat.add_assoc p n k).symm)

/-! ## Frames -/

/-- Nothing is changed. -/
theorem Frame.refl : Frame p n m m := fun _ _ => rfl

/-- Two changes in one place. -/
theorem Frame.trans {m₁ : ByteMemory} (h : Frame p n m m₁) (h' : Frame p n m₁ m') :
    Frame p n m m' := fun a ha => (h' a ha).trans (h a ha)

/-- A change in a place is one in a larger place. -/
theorem Frame.mono {p' n' : Nat} (h : Frame p n m m') (hp : p' ≤ p) (hn : p + n ≤ p' + n') :
    Frame p' n' m m' := fun a ha => h a (by omega)

/-- What lies outside of a change is the same before and after it. -/
theorem Frame.agree {l : Nat} (h : Frame p n m m') (hq : q + l ≤ p ∨ p + n ≤ q) :
    Agree q l m m' := fun a _ _ => h a (by omega)

/-- Memories that agree on a place agree on each part of it. -/
theorem Agree.mono {p' n' : Nat} (h : Agree p n m m') (hp : p ≤ p') (hn : p' + n' ≤ p + n) :
    Agree p' n' m m' := fun a _ _ => h a (by omega) (by omega)

/-- Agreement passes on. -/
theorem Agree.trans {m₁ : ByteMemory} (h : Agree p n m m₁) (h' : Agree p n m₁ m') :
    Agree p n m m' := fun a hp hn => (h' a hp hn).trans (h a hp hn)

/-- Agreement goes both ways. -/
theorem Agree.symm (h : Agree p n m m') : Agree p n m' m := fun a hp hn => (h a hp hn).symm

/-- A word in a place where two memories agree. -/
theorem Agree.word (h : Agree p n m m') (hp : p ≤ q) (hn : q + 4 ≤ p + n) :
    m'.word q = m.word q := by
  unfold ByteMemory.word
  rw [h q hp (by omega), h (q + 1) (by omega) (by omega), h (q + 2) (by omega) (by omega),
    h (q + 3) (by omega) (by omega)]

/-- Bytes in a place where two memories agree. -/
theorem Agree.bytes {l : Nat} (h : Agree p n m m') (hp : p ≤ q) (hn : q + l ≤ p + n) :
    m'.bytes q l = m.bytes q l := by
  refine List.map_congr_left fun i hi => h _ (by omega) ?_
  rw [List.mem_range] at hi
  omega

/-- Words in a place where two memories agree. -/
theorem Agree.words {l : Nat} (h : Agree p n m m') (hp : p ≤ q) (hn : q + 4 * l ≤ p + n) :
    m'.words q l = m.words q l := by
  induction l generalizing q with
  | zero => rfl
  | succ l ih =>
      rw [ByteMemory.words, ByteMemory.words, h.word hp (by omega), ih (by omega) (by omega)]

/-- A word outside of a change. -/
theorem Frame.word (h : Frame p n m m') (hq : q + 4 ≤ p ∨ p + n ≤ q) : m'.word q = m.word q :=
  (h.agree (l := 4) hq).word (Nat.le_refl q) (Nat.le_refl _)

/-! ## Words -/

/-- A word is put together again from its bytes. -/
theorem append_extract (w : BitVec 32) : w.extractLsb' 24 8 ++ w.extractLsb' 16 8 ++
    w.extractLsb' 8 8 ++ w.extractLsb' 0 8 = w := by
  refine BitVec.eq_of_getLsbD_eq fun i hi => ?_
  simp only [BitVec.getLsbD_append, BitVec.getLsbD_extractLsb']
  by_cases h₀ : i < 8
  · simp [h₀]
  by_cases h₁ : i < 16
  · have : i - 8 < 8 := by omega
    simp [h₀, this, show 8 + (i - 8) = i by omega]
  by_cases h₂ : i < 24
  · have h : ¬ i - 8 < 8 := by omega
    have : i - 8 - 8 < 8 := by omega
    simp [h₀, h, this, show 16 + (i - 8 - 8) = i by omega]
  · have h : ¬ i - 8 < 8 := by omega
    have h' : ¬ i - 8 - 8 < 8 := by omega
    have : i - 8 - 8 - 8 < 8 := by omega
    simp [h₀, h, h', this, show 24 + (i - 8 - 8 - 8) = i by omega]

/-- Storing a word changes four bytes. -/
theorem frame_setWord : Frame p 4 m (m.setWord p w) := @frame_setBytes m p (wordBytes w)

@[simp] theorem word_setWord : (m.setWord p w).word p = w := by
  have hbyte (i : Nat) (h : i < 4) : (m.setWord p w).byte (p + i) = (wordBytes w)[i] :=
    byte_setBytes h
  have h₀ := hbyte 0 (by decide)
  rw [Nat.add_zero] at h₀
  rw [word, h₀, hbyte 1 (by decide), hbyte 2 (by decide), hbyte 3 (by decide)]
  exact append_extract w

/-- Storing words changes four bytes each. -/
theorem frame_setWords : Frame p (4 * ws.length) m (m.setWords p ws) := by
  induction ws generalizing m p with
  | nil => exact .refl
  | cons w ws ih =>
      have hlen : 4 * (w :: ws).length = 4 + 4 * ws.length := by
        rw [List.length_cons]
        omega
      rw [hlen]
      exact (frame_setWord.mono (Nat.le_refl p) (by omega)).trans (ih.mono (by omega) (by omega))

/-- Words that have been stored are there. -/
theorem words_setWords : (m.setWords p ws).words p ws.length = ws := by
  induction ws generalizing m p with
  | nil => rfl
  | cons w ws ih =>
      rw [setWords, List.length_cons, words, ih,
        frame_setWords.word (.inl (Nat.le_refl (p + 4))), word_setWord]

end ByteMemory

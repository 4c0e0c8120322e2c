import Mathlib.Data.List.Forall2
import Mathlib.Data.List.InsertIdx
import NetISDN.Rtp.SourceDescription

/-!
# The lists of a source description

`RTPSourceDescription` keeps its chunks in four vectors, of types, sources, buffers and lengths.
`addChunk`, `removeChunk` and `clear` change all four at the same place. `readBlock` appends the
source of a packet once before the loop that appends it with each chunk, so that from then on there
is a source too many, until the lists are cleared (`aligned_iff`).
-/

namespace NetISDN

/-- `RTPSourceDescription` as its vectors, each buffer as the bytes that have been stored in it. -/
structure ChunkLists where
  version : BitVec 32 := 2
  paddingBit : Bool := false
  chunkTypes : List (BitVec 8) := []
  chunkSsrcs : List (BitVec 32) := []
  chunkStrings : List (List (BitVec 8)) := []
  chunkLengths : List Nat := []

namespace ChunkLists

/-- `chunkType` (`rtpsourcedescription.cpp:72`). -/
def chunkType (l : ChunkLists) (n : Nat) : Option (BitVec 8) := l.chunkTypes[n]?

/-- `chunkSsrc`. -/
def chunkSsrc (l : ChunkLists) (n : Nat) : Option (BitVec 32) := l.chunkSsrcs[n]?

/-- `chunkData` (`rtpsourcedescription.cpp:90`). -/
def chunkData (l : ChunkLists) (n maxlen : Nat) : Option (List (BitVec 8)) := do
  let length ← l.chunkLengths[n]?
  let string ← l.chunkStrings[n]?
  return string.take (if length < maxlen then length else maxlen)

/-- `addChunk` (`rtpsourcedescription.cpp:112`). -/
def addChunk (l : ChunkLists) (type : BitVec 8) (ssrc : BitVec 32) (data : List (BitVec 8)) :
    ChunkLists × Bool :=
  if l.chunkTypes.any (· == type) then (l, false)
  else
    let len := if data.length > 255 then 255 else data.length
    ({ l with
        chunkTypes := l.chunkTypes ++ [type]
        chunkSsrcs := l.chunkSsrcs ++ [ssrc]
        chunkLengths := l.chunkLengths ++ [len]
        chunkStrings := l.chunkStrings ++ [data.take len] },
      true)

/-- `removeChunk` (`rtpsourcedescription.cpp:135`). -/
def removeChunk (l : ChunkLists) (n : Nat) : ChunkLists × Bool :=
  if n ≥ l.chunkTypes.length then (l, false)
  else
    ({ l with
        chunkTypes := l.chunkTypes.eraseIdx n
        chunkSsrcs := l.chunkSsrcs.eraseIdx n
        chunkStrings := l.chunkStrings.eraseIdx n
        chunkLengths := l.chunkLengths.eraseIdx n },
      true)

/-- `clear` (`rtpsourcedescription.cpp:214`). -/
def clear : ChunkLists := {}

/-- The loop of `readBlock` (`rtpsourcedescription.cpp:170`). A null byte is stored behind the data.
-/
def readChunks (l : ChunkLists) (ssrc : BitVec 32) (m : ByteMemory) (byte : Nat) :
    Nat → ChunkLists
  | 0 => l
  | n + 1 =>
      let c := Chunk.read m byte
      readChunks
        { l with
          chunkSsrcs := l.chunkSsrcs ++ [ssrc]
          chunkTypes := l.chunkTypes ++ [c.type]
          chunkStrings := l.chunkStrings ++ [c.data ++ [0]]
          chunkLengths := l.chunkLengths ++ [c.data.length] }
        ssrc m (byte + (2 + c.data.length)) n

/-- `readBlock` (`rtpsourcedescription.cpp:154`). -/
def readBlock (m : ByteMemory) (data : Nat) : ChunkLists :=
  let fields := m.word data
  if controlType fields ≠ 202 then clear
  else
    let ssrc := m.word (data + 8)
    let l : ChunkLists :=
      { clear with
        version := controlVersion fields
        paddingBit := controlPadding fields
        chunkSsrcs := [ssrc] }
    readChunks l ssrc m (data + 8) (controlCount fields)

/-! ## Calls -/

/-- A call that changes a source description. -/
inductive Call where
  | addChunk (type : BitVec 8) (ssrc : BitVec 32) (data : List (BitVec 8))
  | removeChunk (n : Nat)
  | clear
  | readBlock (m : ByteMemory) (data : Nat)

/-- A call is made. -/
def apply (l : ChunkLists) : Call → ChunkLists
  | .addChunk type ssrc data => (l.addChunk type ssrc data).1
  | .removeChunk n => (l.removeChunk n).1
  | .clear => clear
  | .readBlock m data => readBlock m data

/-- A chunk with its source. -/
structure Item where
  type : BitVec 8
  ssrc : BitVec 32
  data : List (BitVec 8)
  deriving DecidableEq

/-- The chunks that have been added or read, and not removed, after a call. -/
def items (is : List Item) : Call → List Item
  | .addChunk type ssrc data =>
      if is.any (·.type == type) then is else is ++ [⟨type, ssrc, data.take 255⟩]
  | .removeChunk n => is.eraseIdx n
  | .clear => []
  | .readBlock m data =>
      if controlType (m.word data) ≠ 202 then []
      else (Chunk.readAll m (data + 8) (controlCount (m.word data))).map fun c =>
        ⟨c.type, m.word (data + 8), c.data⟩

/-- The four lists are as long as there are chunks, and hold the `n`-th of them at `n`. -/
structure Aligned (l : ChunkLists) (is : List Item) : Prop where
  types : l.chunkTypes.length = is.length
  ssrcs : l.chunkSsrcs.length = is.length
  strings : l.chunkStrings.length = is.length
  lengths : l.chunkLengths.length = is.length
  chunk : ∀ n item, is[n]? = some item → l.chunkType n = some item.type ∧
    l.chunkSsrc n = some item.ssrc ∧ ∀ maxlen, l.chunkData n maxlen = some (item.data.take maxlen)

/-- Whether the last of the calls that clear the lists has read a source description since. -/
def hasRead (read : Bool) : Call → Bool
  | .addChunk _ _ _ | .removeChunk _ => read
  | .clear => false
  | .readBlock m data => controlType (m.word data) = 202

/-! ## Aligned lists -/

variable {l : ChunkLists} {is : List Item} {m : ByteMemory} {p n : Nat} {read : Bool} {call : Call}

/-- The length that `addChunk` stores is that of the bytes it copies. -/
theorem length_take_max (data : List (BitVec 8)) :
    (if data.length > 255 then 255 else data.length) = (data.take 255).length ∧
      data.take (data.take 255).length = data.take 255 := by
  refine ⟨?_, (List.prefix_iff_eq_take.1 (List.take_prefix 255 data)).symm⟩
  rw [List.length_take]
  split
  · omega
  · omega

/-- The four lists come from the chunks, each with what stands behind it in its buffer. -/
def Holds (l : ChunkLists) (is : List Item) : Prop :=
  ∃ slots : List (Item × List (BitVec 8)), is = slots.map Prod.fst ∧
    l.chunkTypes = slots.map (·.1.type) ∧ l.chunkSsrcs = slots.map (·.1.ssrc) ∧
    l.chunkStrings = slots.map (fun slot => slot.1.data ++ slot.2) ∧
    l.chunkLengths = slots.map (·.1.data.length)

/-- Lists that hold the items are aligned with them. -/
theorem Holds.aligned (h : l.Holds is) : l.Aligned is := by
  obtain ⟨slots, rfl, htypes, hssrcs, hstrings, hlengths⟩ := h
  refine ⟨by simp [htypes], by simp [hssrcs], by simp [hstrings], by simp [hlengths], ?_⟩
  intro n item hitem
  rw [List.getElem?_map, Option.map_eq_some_iff] at hitem
  obtain ⟨slot, hslot, rfl⟩ := hitem
  refine ⟨by simp [chunkType, htypes, hslot], by simp [chunkSsrc, hssrcs, hslot], fun maxlen => ?_⟩
  have htake : (slot.1.data ++ slot.2).take
      (if slot.1.data.length < maxlen then slot.1.data.length else maxlen) =
        slot.1.data.take maxlen := by
    split
    · next hlt => rw [List.take_left, List.take_of_length_le (Nat.le_of_lt hlt)]
    · next hge => rw [List.take_append_of_le_length (Nat.le_of_not_lt hge)]
  simp [chunkData, hlengths, hstrings, hslot, htake]

/-- Empty lists hold no items. -/
theorem holds_nil (version : BitVec 32) (paddingBit : Bool) :
    Holds { version := version, paddingBit := paddingBit } [] :=
  ⟨[], rfl, rfl, rfl, rfl, rfl⟩

/-- A chunk is added to all lists. -/
theorem Holds.addChunk (h : l.Holds is) (type : BitVec 8) (ssrc : BitVec 32)
    (data : List (BitVec 8)) :
    (l.addChunk type ssrc data).1.Holds (items is (.addChunk type ssrc data)) := by
  obtain ⟨slots, rfl, htypes, hssrcs, hstrings, hlengths⟩ := h
  have hany : (slots.map Prod.fst).any (·.type == type) = l.chunkTypes.any (· == type) := by
    rw [htypes, List.any_map, List.any_map]
    rfl
  obtain ⟨hlen, htake⟩ := length_take_max data
  simp only [ChunkLists.addChunk, items, hany, hlen, htake]
  split
  · exact ⟨slots, rfl, htypes, hssrcs, hstrings, hlengths⟩
  · exact ⟨slots ++ [(⟨type, ssrc, data.take 255⟩, [])], by simp, by simp [htypes],
      by simp [hssrcs], by simp [hstrings], by simp [hlengths]⟩

/-- A chunk is removed from all lists. -/
theorem Holds.removeChunk (h : l.Holds is) (n : Nat) :
    (l.removeChunk n).1.Holds (items is (.removeChunk n)) := by
  obtain ⟨slots, rfl, htypes, hssrcs, hstrings, hlengths⟩ := h
  rw [ChunkLists.removeChunk]
  split
  · next hge =>
      have hsame : slots.eraseIdx n = slots :=
        List.eraseIdx_of_length_le (by simpa [htypes] using hge)
      refine ⟨slots, ?_, htypes, hssrcs, hstrings, hlengths⟩
      rw [items, List.eraseIdx_map, hsame]
  · refine ⟨slots.eraseIdx n, ?_, ?_, ?_, ?_, ?_⟩
    · rw [items, List.eraseIdx_map]
    · simp only [htypes, List.eraseIdx_map]
    · simp only [hssrcs, List.eraseIdx_map]
    · simp only [hstrings, List.eraseIdx_map]
    · simp only [hlengths, List.eraseIdx_map]

/-! ## A source too many -/

/-- There is a source more than there are chunks. -/
def Skewed (l : ChunkLists) : Prop := l.chunkSsrcs.length = l.chunkTypes.length + 1

/-- Lists of different lengths hold no items. -/
theorem Skewed.not_aligned (h : l.Skewed) : ¬ l.Aligned is := by
  intro haligned
  have htypes := haligned.types
  have hssrcs := haligned.ssrcs
  rw [Skewed] at h
  omega

/-- Adding a chunk does not straighten the lists. -/
theorem Skewed.addChunk (h : l.Skewed) (type : BitVec 8) (ssrc : BitVec 32)
    (data : List (BitVec 8)) : (l.addChunk type ssrc data).1.Skewed := by
  rw [ChunkLists.addChunk]
  split
  · exact h
  · simp only [Skewed, List.length_append, List.length_singleton]
    rw [h]

/-- Removing a chunk does not straighten the lists. -/
theorem Skewed.removeChunk (h : l.Skewed) (n : Nat) : (l.removeChunk n).1.Skewed := by
  rw [ChunkLists.removeChunk]
  split
  · exact h
  · next hlt =>
      rw [Skewed] at h
      simp only [Skewed, List.length_eraseIdx]
      rw [if_pos (by omega), if_pos (by omega)]
      omega

/-- What the reader's loop pushes to each list. -/
theorem readChunks_eq (ssrc : BitVec 32) : l.readChunks ssrc m p n =
    { l with
      chunkSsrcs := l.chunkSsrcs ++ List.replicate n ssrc
      chunkTypes := l.chunkTypes ++ (Chunk.readAll m p n).map (·.type)
      chunkStrings := l.chunkStrings ++ (Chunk.readAll m p n).map (·.data ++ [0])
      chunkLengths := l.chunkLengths ++ (Chunk.readAll m p n).map (·.data.length) } := by
  induction n generalizing l p with
  | zero => simp [readChunks, Chunk.readAll]
  | succ n ih => simp [readChunks, ih, Chunk.readAll, List.replicate_succ]

/-- As many chunks are read as were asked for. -/
theorem length_readAll : (Chunk.readAll m p n).length = n := by
  induction n generalizing p with
  | zero => rfl
  | succ n ih => rw [Chunk.readAll, List.length_cons, ih]

/-- Reading a source description leaves a source too many. -/
theorem skewed_readBlock (h : controlType (m.word p) = 202) : (readBlock m p).Skewed := by
  simp only [readBlock, h, ne_eq, not_true, if_false, readChunks_eq, Skewed, List.length_append,
    List.length_map, List.length_replicate, length_readAll, clear, List.length_singleton,
    List.length_nil]
  omega

/-! ## Runs -/

/-- The lists hold the chunks, or have a source too many. -/
def AlignedUnless (read : Bool) (l : ChunkLists) (is : List Item) : Prop :=
  if read then l.Skewed else l.Holds is

/-- The step lemma. -/
theorem AlignedUnless.apply (h : AlignedUnless read l is) (call : Call) :
    AlignedUnless (hasRead read call) (l.apply call) (items is call) := by
  cases call with
  | addChunk type ssrc data =>
      cases read with
      | true => exact Skewed.addChunk h type ssrc data
      | false => exact Holds.addChunk h type ssrc data
  | removeChunk n =>
      cases read with
      | true => exact Skewed.removeChunk h n
      | false => exact Holds.removeChunk h n
  | clear => exact holds_nil 2 false
  | readBlock m data =>
      rw [hasRead, AlignedUnless]
      split
      · next hread => exact skewed_readBlock (of_decide_eq_true hread)
      · next hread =>
          have hother : controlType (m.word data) ≠ 202 := fun h => hread (decide_eq_true h)
          rw [ChunkLists.apply, readBlock, items, if_pos hother, if_pos hother]
          exact holds_nil 2 false

/-- The run lemma. -/
theorem alignedUnless_foldl (calls : List Call) (h : AlignedUnless read l is) :
    AlignedUnless (calls.foldl hasRead read) (calls.foldl apply l) (calls.foldl items is) := by
  induction calls generalizing read l is with
  | nil => exact h
  | cons call calls ih => exact ih (h.apply call)

/-- **The lists of a source description are aligned if and only if none has been read** since they
were cleared. -/
theorem aligned_iff (calls : List Call) :
    Aligned (calls.foldl apply {}) (calls.foldl items []) ↔ calls.foldl hasRead false = false := by
  have h := alignedUnless_foldl calls (show AlignedUnless false {} [] from holds_nil 2 false)
  cases hread : calls.foldl hasRead false with
  | true =>
      rw [hread] at h
      exact iff_of_false h.not_aligned Bool.noConfusion
  | false =>
      rw [hread] at h
      exact iff_of_true (Holds.aligned h) rfl

/-- A packet with one chunk is read, and another chunk added. -/
theorem aligned_fails : ¬ ∀ calls : List Call,
    Aligned (calls.foldl apply {}) (calls.foldl items []) := by
  intro hall
  have hssrcs := (hall [.readBlock (ByteMemory.setBytes (fun _ => 0) 0
    [0x81, 0xca, 0, 2, 0, 0, 0, 5, 1, 1, 0x61, 0]) 0, .addChunk chunkName 7 [0x62]]).ssrcs
  revert hssrcs
  decide

/-! ## The description that the lists are -/

/-- The lists hold the chunks of a source description, and its sources. -/
structure Represents (l : ChunkLists) (d : RTPSourceDescription) : Prop where
  version : l.version = d.version
  paddingBit : l.paddingBit = d.paddingBit
  types : l.chunkTypes = d.chunks.map (·.type)
  ssrcs : l.chunkSsrcs = d.chunkSsrcs
  lengths : l.chunkLengths = d.chunks.map (·.data.length)
  strings : List.Forall₂ (fun c string => c.data <+: string) d.chunks l.chunkStrings

/-- The lists and the packet take a chunk in the same way. -/
theorem Represents.addChunk {d : RTPSourceDescription} (h : l.Represents d) (type : BitVec 8)
    (ssrc : BitVec 32) (data : List (BitVec 8)) :
    (l.addChunk type ssrc data).1.Represents (d.addChunk type ssrc data).1 ∧
      (l.addChunk type ssrc data).2 = (d.addChunk type ssrc data).2 := by
  have hany : l.chunkTypes.any (· == type) = d.chunks.any (·.type == type) := by
    rw [h.types, List.any_map]
    rfl
  obtain ⟨hlen, htake⟩ := length_take_max data
  rw [ChunkLists.addChunk, RTPSourceDescription.addChunk, hany]
  split
  · exact ⟨h, rfl⟩
  · refine ⟨⟨h.version, h.paddingBit, ?_, ?_, ?_, ?_⟩, rfl⟩
    · simp [h.types]
    · simp [h.ssrcs]
    · simp only [hlen, h.lengths, List.map_append, List.map_cons, List.map_nil]
    · simp only [hlen, htake]
      exact List.rel_append h.strings (.cons (List.prefix_refl _) .nil)

/-- The lists and the packet are read in the same way. -/
theorem represents_readBlock (m : ByteMemory) (p : Nat) :
    (readBlock m p).Represents (RTPSourceDescription.readBlock m p).1 := by
  rw [readBlock, RTPSourceDescription.readBlock]
  dsimp only
  split
  · exact ⟨rfl, rfl, rfl, rfl, rfl, .nil⟩
  · rw [readChunks_eq]
    refine ⟨rfl, rfl, rfl, rfl, rfl, ?_⟩
    exact List.forall₂_map_right_iff.2 (List.forall₂_same.2 fun c _ => List.prefix_append _ _)

end ChunkLists

end NetISDN

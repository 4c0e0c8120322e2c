import NetISDN.Rtp.Reports

/-!
# Source descriptions

`RTPSourceDescription` (`rtpsourcedescription.cpp`) writes its chunks one after another, a type
byte, a length byte and the data, from the third word on. The length that it declares is an
over-approximation; the reader goes by the count of the chunks instead.
-/

namespace NetISDN

variable {m m' : ByteMemory} {p l : Nat}

/-! ## Chunks -/

/-- `ChunkCname`. -/
def chunkCname : BitVec 8 := 1

/-- `ChunkName`. -/
def chunkName : BitVec 8 := 2

/-- `ChunkEmail`. -/
def chunkEmail : BitVec 8 := 3

/-- `ChunkPhone`. -/
def chunkPhone : BitVec 8 := 4

/-- `ChunkLoc`. -/
def chunkLoc : BitVec 8 := 5

/-- `ChunkTool`. -/
def chunkTool : BitVec 8 := 6

/-- `ChunkNote`. -/
def chunkNote : BitVec 8 := 7

/-- `ChunkPriv`. -/
def chunkPriv : BitVec 8 := 8

/-- A chunk: an entry of `rtp_chunk_types`, `rtp_chunk_lengths` and `rtp_chunk_strings`. -/
structure Chunk where
  type : BitVec 8
  data : List (BitVec 8)
  data_le : data.length ≤ 255

namespace Chunk

/-- The bytes of a chunk. -/
def toBytes (c : Chunk) : List (BitVec 8) := c.type :: BitVec.ofNat 8 c.data.length :: c.data

/-- The chunk at `byte`. -/
def read (m : ByteMemory) (byte : Nat) : Chunk where
  type := m.byte byte
  data := m.bytes (byte + 2) (m.byte (byte + 1)).toNat
  data_le := by
    have hlt := (m.byte (byte + 1)).isLt
    rw [ByteMemory.length_bytes]
    omega

/-- The length of the chunks in bytes. -/
def span : List Chunk → Nat
  | [] => 0
  | c :: cs => 2 + c.data.length + span cs

/-- The loop of `writeBlock` (`rtpsourcedescription.cpp:198`). -/
def writeAll (m : ByteMemory) (byte : Nat) : List Chunk → ByteMemory
  | [] => m
  | c :: cs => writeAll (m.setBytes byte c.toBytes) (byte + (2 + c.data.length)) cs

/-- The loop of `readBlock` (`rtpsourcedescription.cpp:170`). -/
def readAll (m : ByteMemory) (byte : Nat) : Nat → List Chunk
  | 0 => []
  | n + 1 => read m byte :: readAll m (byte + (2 + (read m byte).data.length)) n

variable {c : Chunk} {cs : List Chunk}

/-- A chunk has two bytes more than its data. -/
theorem length_toBytes (c : Chunk) : c.toBytes.length = 2 + c.data.length := by
  rw [toBytes, List.length_cons, List.length_cons]
  omega

/-- The chunks are stored one behind the other. -/
theorem writeAll_eq : writeAll m p cs = m.setBytes p (cs.flatMap toBytes) := by
  induction cs generalizing m p with
  | nil => exact (ByteMemory.setBytes_nil).symm
  | cons c cs ih =>
      rw [writeAll, ih, ← length_toBytes, ByteMemory.setBytes_append, List.flatMap_cons]

/-- Chunks with the same type and data are equal. -/
theorem ext {c d : Chunk} (htype : c.type = d.type) (hdata : c.data = d.data) : c = d := by
  cases c
  cases d
  cases htype
  cases hdata
  rfl

/-- Storing a chunk changes its own bytes. -/
theorem frame_setBytes : ByteMemory.Frame p (2 + c.data.length) m (m.setBytes p c.toBytes) := by
  rw [← length_toBytes]
  exact ByteMemory.frame_setBytes

/-- Storing the chunks changes the bytes they span. -/
theorem frame_writeAll : ByteMemory.Frame p (span cs) m (writeAll m p cs) := by
  induction cs generalizing m p with
  | nil => exact .refl
  | cons c cs ih =>
      rw [span]
      exact (frame_setBytes.mono (Nat.le_refl p) (by omega)).trans
        (ih.mono (by omega) (by omega))

/-- A chunk is read alike from memories that agree on it. -/
theorem read_congr (h : ByteMemory.Agree p (2 + (read m p).data.length) m m') :
    read m' p = read m p := by
  have hlen : (m.byte (p + 1)).toNat = (read m p).data.length := ByteMemory.length_bytes.symm
  have hbyte : m'.byte (p + 1) = m.byte (p + 1) := h (p + 1) (by omega) (by omega)
  refine ext (h p (Nat.le_refl p) (by omega)) ?_
  show m'.bytes (p + 2) (m'.byte (p + 1)).toNat = m.bytes (p + 2) (m.byte (p + 1)).toNat
  rw [hbyte]
  exact h.bytes (by omega) (by omega)

/-- Chunks are read alike from memories that agree on them. -/
theorem readAll_congr {n : Nat} (h : ByteMemory.Agree p (span (readAll m p n)) m m') :
    readAll m' p n = readAll m p n := by
  induction n generalizing p with
  | zero => rfl
  | succ n ih =>
      rw [readAll, span] at h
      have hhead : read m' p = read m p := read_congr (h.mono (Nat.le_refl p) (by omega))
      rw [readAll, readAll, hhead, ih (h.mono (by omega) (by omega))]

/-- A chunk that has been written is read back. -/
theorem read_setBytes : read (m.setBytes p c.toBytes) p = c := by
  have hbytes := @ByteMemory.bytes_setBytes m p c.toBytes
  rw [length_toBytes, Nat.add_comm 2, ByteMemory.bytes_succ, ByteMemory.bytes_succ, toBytes,
    List.cons.injEq, List.cons.injEq] at hbytes
  obtain ⟨htype, hlength, hdata⟩ := hbytes
  have hle := c.data_le
  have hlen : ((m.setBytes p c.toBytes).byte (p + 1)).toNat = c.data.length := by
    rw [toBytes, hlength, BitVec.toNat_ofNat]
    omega
  refine ext htype ?_
  show (m.setBytes p c.toBytes).bytes (p + 2) _ = c.data
  rw [hlen]
  exact hdata

/-- The chunks that have been written are read back. -/
theorem readAll_writeAll : readAll (writeAll m p cs) p cs.length = cs := by
  induction cs generalizing m p with
  | nil => rfl
  | cons c cs ih =>
      have hhead : read (writeAll (m.setBytes p c.toBytes) (p + (2 + c.data.length)) cs) p = c :=
        (read_congr (by
          rw [read_setBytes]
          exact frame_writeAll.agree (.inl (Nat.le_refl _)))).trans read_setBytes
      rw [List.length_cons, writeAll, readAll, hhead, ih]

end Chunk

/-! ## The packet -/

/-- `RTPSourceDescription` (`rtpsourcedescription.h:49`). -/
structure RTPSourceDescription where
  version : BitVec 32 := 2
  paddingBit : Bool := false
  chunkSsrcs : List (BitVec 32) := []
  chunks : List Chunk := []

namespace RTPSourceDescription

variable {d : RTPSourceDescription}

/-- `addChunk` (`rtpsourcedescription.cpp:112`). -/
def addChunk (d : RTPSourceDescription) (type : BitVec 8) (ssrc : BitVec 32)
    (data : List (BitVec 8)) : RTPSourceDescription × Bool :=
  if d.chunks.any (·.type == type) then (d, false)
  else
    ({ d with
        chunkSsrcs := d.chunkSsrcs ++ [ssrc]
        chunks := d.chunks ++ [⟨type, data.take 255, List.length_take_le 255 data⟩] },
      true)

/-- `chunkString` (`rtpsourcedescription.cpp:84`): the data up to the first null byte. -/
def chunkString (c : Chunk) : List (BitVec 8) := c.data.takeWhile (· ≠ 0)

/-- `chunkData` (`rtpsourcedescription.cpp:90`). -/
def chunkData (c : Chunk) (maxlen : Nat) : List (BitVec 8) := c.data.take maxlen

/-- `GetTotalSize` (`rtpsourcedescription.cpp:228`). -/
def getTotalSize (d : RTPSourceDescription) : Nat :=
  (d.chunks.map fun c => 2 + (2 + c.data.length) / 4).sum + 1

/-- `readBlock` (`rtpsourcedescription.cpp:154`). The source is taken from the third word, where
the chunks begin. -/
def readBlock (m : ByteMemory) (data : Nat) : RTPSourceDescription × Nat :=
  let fields := m.word data
  if controlType fields ≠ 202 then ({}, 0)
  else
    let ssrc := m.word (data + 8)
    let chunks := controlCount fields
    let d : RTPSourceDescription :=
      { version := controlVersion fields
        paddingBit := controlPadding fields
        chunkSsrcs := ssrc :: List.replicate chunks ssrc
        chunks := Chunk.readAll m (data + 8) chunks }
    (d, d.getTotalSize)

/-- `writeBlock` (`rtpsourcedescription.cpp:187`). The rest of the buffer is cleared first. -/
def writeBlock (d : RTPSourceDescription) (m : ByteMemory) (data len : Nat) : ByteMemory × Nat :=
  if len < d.getTotalSize then (m, 0)
  else
    let m := m.setBytes data (List.replicate (4 * len) 0)
    let m := m.setWords data
      [controlWord d.version d.paddingBit 29 d.chunks.length 202 d.getTotalSize,
        d.chunkSsrcs.headD 0]
    (Chunk.writeAll m (data + 8) d.chunks, d.getTotalSize)

/-- The chunks end before the declared length does. -/
theorem span_le (hne : d.chunks ≠ []) : 8 + Chunk.span d.chunks ≤ 4 * d.getTotalSize := by
  have hspan (cs : List Chunk) : Chunk.span cs + 5 * cs.length ≤
      4 * (cs.map fun c => 2 + (2 + c.data.length) / 4).sum := by
    induction cs with
    | nil => exact Nat.le_refl _
    | cons c cs ih =>
        rw [Chunk.span, List.map_cons, List.sum_cons, List.length_cons]
        omega
  have hlen := List.length_pos_of_ne_nil hne
  have hle := hspan d.chunks
  rw [getTotalSize]
  omega

/-- The size that is returned is that of the packet. -/
theorem writeBlock_snd (hlen : d.getTotalSize ≤ l) :
    (d.writeBlock m p l).2 = d.getTotalSize := by
  rw [writeBlock, if_neg (Nat.not_lt.2 hlen)]

/-- A source description touches no more than the buffer it is given. -/
theorem frame_writeBlock (hne : d.chunks ≠ []) :
    ByteMemory.Frame p (4 * l) m (d.writeBlock m p l).1 := by
  have hspan := span_le hne
  rw [writeBlock]
  split
  · exact .refl
  · next hlen =>
      have hzero : ByteMemory.Frame p (4 * l) m
          (m.setBytes p (List.replicate (4 * l) 0)) := by
        have hframe := @ByteMemory.frame_setBytes m p (List.replicate (4 * l) 0)
        rwa [List.length_replicate] at hframe
      exact hzero.trans ((ByteMemory.frame_setWords.mono (Nat.le_refl p)
        (by rw [List.length_cons, List.length_singleton]; omega)).trans
          (Chunk.frame_writeAll.mono (by omega) (by omega)))

/-- The first word of a source description. -/
theorem word_writeBlock (hlen : d.getTotalSize ≤ l) : (d.writeBlock m p l).1.word p =
    controlWord d.version d.paddingBit 29 d.chunks.length 202 d.getTotalSize := by
  rw [writeBlock, if_neg (Nat.not_lt.2 hlen)]
  have hchunks {m' : ByteMemory} : (Chunk.writeAll m' (p + 8) d.chunks).word p =
      m'.word p := Chunk.frame_writeAll.word (.inl (by omega))
  rw [hchunks, ByteMemory.setWords, ByteMemory.frame_setWords.word (.inl (Nat.le_refl _)),
    ByteMemory.word_setWord]

/-- The chunks of a source description are read back. -/
theorem readAll_writeBlock (hlen : d.getTotalSize ≤ l) :
    Chunk.readAll (d.writeBlock m p l).1 (p + 8) d.chunks.length = d.chunks := by
  rw [writeBlock, if_neg (Nat.not_lt.2 hlen)]
  exact Chunk.readAll_writeAll

/-- **What a source description is read back as.** -/
theorem readBlock_writeBlock (hversion : d.version.toNat < 4) (hpadding : d.paddingBit = false)
    (hchunks : d.chunks.length < 16) (hsize : d.getTotalSize ≤ 2 ^ 16)
    (hlen : d.getTotalSize ≤ l) :
    let r := readBlock (d.writeBlock m p l).1 p
    r.1.version = d.version ∧ r.1.paddingBit = false ∧ r.1.chunks = d.chunks ∧
      r.2 = d.getTotalSize := by
  have hfields := word_writeBlock (m := m) (p := p) hlen
  have hread := readAll_writeBlock (m := m) (p := p) hlen
  have hcount : d.chunks.length < 32 := by omega
  have hsize' : d.getTotalSize - 1 < 2 ^ 16 := by omega
  rw [hpadding] at hfields
  simp only [readBlock, hfields, controlType_word hcount (by decide : 202 < 256) hsize',
    controlCount_word hcount (by decide : 202 < 256) hsize', hread,
    controlVersion_word hversion hcount (by decide : 202 < 256) hsize',
    controlPadding_word hchunks (by decide : 202 < 256) hsize']
  rw [if_neg (by decide)]
  exact ⟨rfl, rfl, rfl, rfl⟩

/-- Source descriptions are read alike from memories that agree on them. -/
theorem readBlock_congr {n : Nat} (h : ByteMemory.Agree p n m m') (hn : 12 ≤ n)
    (hchunks : 8 + Chunk.span (Chunk.readAll m (p + 8) (controlCount (m.word p))) ≤ n) :
    readBlock m' p = readBlock m p := by
  have hfields : m'.word p = m.word p := h.word (Nat.le_refl p) (by omega)
  have hssrc : m'.word (p + 8) = m.word (p + 8) := h.word (by omega) (by omega)
  have hread : Chunk.readAll m' (p + 8) (controlCount (m.word p)) =
      Chunk.readAll m (p + 8) (controlCount (m.word p)) :=
    Chunk.readAll_congr (h.mono (by omega) (by omega))
  simp only [readBlock, hfields, hssrc, hread]

/-! ## The round trip -/

/-- The calls of `addChunk` on a fresh source description, with one source. -/
def addChunks (ssrc : BitVec 32) (calls : List (BitVec 8 × List (BitVec 8))) :
    RTPSourceDescription :=
  calls.foldl (fun d call => (d.addChunk call.1 ssrc call.2).1) {}

/-- The first four bytes of the chunks as they are packed. -/
def headWord (d : RTPSourceDescription) : BitVec 32 :=
  let packed := d.chunks.flatMap Chunk.toBytes
  packed.getD 0 0 ++ packed.getD 1 0 ++ packed.getD 2 0 ++ packed.getD 3 0

/-- What `writeBlock` writes stays within the size that it declares and returns, and `readBlock`
reports the same chunks and the same size. -/
structure RoundTrips (d : RTPSourceDescription) (m : ByteMemory) (data len : Nat) : Prop where
  within (a : Nat) (ha : a < data ∨ data + 4 * d.getTotalSize ≤ a) :
    (d.writeBlock m data len).1.byte a = m.byte a ∨
      data ≤ a ∧ a < data + 4 * len ∧ (d.writeBlock m data len).1.byte a = 0
  declared : controlSize ((d.writeBlock m data len).1.word data) = (d.writeBlock m data len).2
  chunks : (readBlock (d.writeBlock m data len).1 data).1.chunks = d.chunks
  ssrcs (i : Nat) (hi : i < d.chunks.length) :
    (readBlock (d.writeBlock m data len).1 data).1.chunkSsrcs[i]? = d.chunkSsrcs[i]?
  size : (readBlock (d.writeBlock m data len).1 data).2 = (d.writeBlock m data len).2

/-- Every chunk that is added has the source. -/
theorem chunkSsrcs_addChunks (ssrc : BitVec 32) (calls : List (BitVec 8 × List (BitVec 8))) :
    (addChunks ssrc calls).chunkSsrcs =
      List.replicate (addChunks ssrc calls).chunks.length ssrc := by
  have hadd (d : RTPSourceDescription) (call : BitVec 8 × List (BitVec 8))
      (hd : d.chunkSsrcs = List.replicate d.chunks.length ssrc) :
      (d.addChunk call.1 ssrc call.2).1.chunkSsrcs =
        List.replicate (d.addChunk call.1 ssrc call.2).1.chunks.length ssrc := by
    rw [addChunk]
    split
    · exact hd
    · simp only [hd, List.length_append, List.length_singleton, List.replicate_succ']
  have hfold (d : RTPSourceDescription) (hd : d.chunkSsrcs = List.replicate d.chunks.length ssrc) :
      (calls.foldl (fun d call => (d.addChunk call.1 ssrc call.2).1) d).chunkSsrcs =
        List.replicate (calls.foldl (fun d call => (d.addChunk call.1 ssrc call.2).1)
          d).chunks.length ssrc := by
    induction calls generalizing d with
    | nil => exact hd
    | cons call calls ih => exact ih _ (hadd d call hd)
  exact hfold {} rfl

/-- `addChunk` does not touch the padding flag. -/
theorem paddingBit_addChunks (ssrc : BitVec 32) (calls : List (BitVec 8 × List (BitVec 8))) :
    (addChunks ssrc calls).paddingBit = false := by
  have hfold (d : RTPSourceDescription) : (calls.foldl
      (fun d call => (d.addChunk call.1 ssrc call.2).1) d).paddingBit = d.paddingBit := by
    induction calls generalizing d with
    | nil => rfl
    | cons call calls ih =>
        refine (ih _).trans ?_
        show (d.addChunk call.1 ssrc call.2).1.paddingBit = d.paddingBit
        rw [addChunk]
        split <;> rfl
  exact hfold {}

/-- At most thirty-one chunks of at most 255 bytes fit the length field. -/
theorem getTotalSize_le (hle : d.chunks.length ≤ 31) : d.getTotalSize ≤ 2047 := by
  have hsum (cs : List Chunk) :
      (cs.map fun c => 2 + (2 + c.data.length) / 4).sum ≤ 66 * cs.length := by
    induction cs with
    | nil => exact Nat.le_refl _
    | cons c cs ih =>
        have hdata := c.data_le
        rw [List.map_cons, List.sum_cons, List.length_cons]
        omega
  have hle' := hsum d.chunks
  rw [getTotalSize]
  omega

/-- Outside the size that it declares, `writeBlock` leaves a byte alone or clears it. -/
theorem byte_writeBlock (hne : d.chunks ≠ []) (hlen : d.getTotalSize ≤ l) {a : Nat}
    (ha : a < p ∨ p + 4 * d.getTotalSize ≤ a) :
    (d.writeBlock m p l).1.byte a = m.byte a ∨
      p ≤ a ∧ a < p + 4 * l ∧ (d.writeBlock m p l).1.byte a = 0 := by
  rcases Nat.lt_or_ge a (p + 4 * l) with hlt | hge
  · rcases ha with ha | ha
    · exact .inl (frame_writeBlock hne a (.inl ha))
    · have hspan := span_le hne
      refine .inr ⟨by omega, hlt, ?_⟩
      rw [writeBlock, if_neg (Nat.not_lt.2 hlen)]
      dsimp only
      rw [Chunk.frame_writeAll a (.inr (by omega)),
        ByteMemory.frame_setWords a (.inr (by rw [List.length_cons, List.length_singleton]; omega))]
      have hzero := @ByteMemory.byte_setBytes_zero m p (4 * l) (a - p) (by omega)
      rwa [show p + (a - p) = a by omega] at hzero
  · exact .inl (frame_writeBlock hne a (.inr hge))

/-- The word after the source holds the beginning of the chunks. -/
theorem headWord_writeBlock (hne : d.chunks ≠ []) (hlen : d.getTotalSize ≤ l) :
    (d.writeBlock m p l).1.word (p + 8) = d.headWord := by
  have hsize : 12 ≤ 4 * l := by
    have hspan := span_le hne
    cases hcs : d.chunks with
    | nil => exact absurd hcs hne
    | cons c cs =>
        rw [hcs, Chunk.span] at hspan
        omega
  have hbyte (i : Nat) (hi : i < 4) : (d.writeBlock m p l).1.byte (p + 8 + i) =
      (d.chunks.flatMap Chunk.toBytes).getD i 0 := by
    rw [writeBlock, if_neg (Nat.not_lt.2 hlen)]
    dsimp only
    rw [Chunk.writeAll_eq, ByteMemory.byte_setBytes_add, ByteMemory.frame_setWords _ (.inr (by
      rw [List.length_cons, List.length_singleton]; omega)), Nat.add_assoc,
      ByteMemory.byte_setBytes_zero (by omega), List.getD_eq_getElem?_getD]
  have h₀ := hbyte 0 (by omega)
  rw [Nat.add_zero] at h₀
  rw [ByteMemory.word, h₀, hbyte 1 (by omega), hbyte 2 (by omega), hbyte 3 (by omega), headWord]

/-- What is read back: the chunks as they were written, with a source out of their first bytes. -/
theorem readBlock_packed (hne : d.chunks ≠ []) (hle : d.chunks.length ≤ 31)
    (hpadding : d.paddingBit = false) (hlen : d.getTotalSize ≤ l) :
    let r := readBlock (d.writeBlock m p l).1 p
    r.1.chunks = d.chunks ∧ r.1.chunkSsrcs = List.replicate (d.chunks.length + 1) d.headWord ∧
      r.2 = d.getTotalSize := by
  have hsize := getTotalSize_le hle
  have hcount : d.chunks.length < 32 := by omega
  have hsize' : d.getTotalSize - 1 < 2 ^ 16 := by omega
  have hfields := word_writeBlock (m := m) (p := p) hlen
  rw [hpadding] at hfields
  have htype : controlType (controlWord d.version false 29 d.chunks.length 202 d.getTotalSize) =
      202 := controlType_word hcount (by decide) hsize'
  have hchunks : controlCount (controlWord d.version false 29 d.chunks.length 202 d.getTotalSize) =
      d.chunks.length := controlCount_word hcount (by decide) hsize'
  simp only [readBlock, hfields, htype, hchunks, readAll_writeBlock hlen,
    headWord_writeBlock hne hlen]
  rw [if_neg (by decide)]
  exact ⟨rfl, (List.replicate_succ).symm, rfl⟩

/-- **A source description survives the round trip if and only if its chunks begin with its
source**: the type and the length of the first chunk and the two bytes that follow. -/
theorem chunksSurvive_iff (ssrc : BitVec 32) (calls : List (BitVec 8 × List (BitVec 8)))
    (m : ByteMemory) (p l : Nat) (hne : (addChunks ssrc calls).chunks ≠ [])
    (hle : (addChunks ssrc calls).chunks.length ≤ 31)
    (hlen : (addChunks ssrc calls).getTotalSize ≤ l) :
    (addChunks ssrc calls).RoundTrips m p l ↔ (addChunks ssrc calls).headWord = ssrc := by
  have hssrcs := chunkSsrcs_addChunks ssrc calls
  have hpadding := paddingBit_addChunks ssrc calls
  generalize addChunks ssrc calls = d at *
  obtain ⟨hchunks, hread, hsize⟩ := readBlock_packed (m := m) (p := p) hne hle hpadding hlen
  have hpos := List.length_pos_of_ne_nil hne
  constructor
  · intro htrip
    have hfirst := htrip.ssrcs 0 hpos
    rw [hread, hssrcs, List.getElem?_replicate_of_lt (by omega),
      List.getElem?_replicate_of_lt hpos] at hfirst
    exact Option.some.inj hfirst
  · intro hhead
    refine ⟨fun a ha => byte_writeBlock hne hlen ha, ?_, hchunks, fun i hi => ?_, ?_⟩
    · have hle' := getTotalSize_le hle
      have hword := word_writeBlock (m := m) (p := p) hlen
      rw [hpadding] at hword
      rw [hword, writeBlock_snd hlen, controlSize_word (by omega) (by decide) (by omega)
        (by rw [getTotalSize]; omega)]
    · rw [hread, hssrcs, hhead, List.getElem?_replicate_of_lt (by omega),
        List.getElem?_replicate_of_lt hi]
    · rw [hsize, writeBlock_snd hlen]

/-- A chunk of two bytes, from the source that its four bytes spell. -/
theorem chunksSurvive_cname :
    (addChunks 0x01026162#32 [(chunkCname, [0x61#8, 0x62#8])]).RoundTrips (fun _ => 7) 0 4 :=
  (chunksSurvive_iff 0x01026162#32 [(chunkCname, [0x61#8, 0x62#8])] (fun _ => 7) 0 4
    (by decide) (by decide) (by decide)).2 (by decide)

/-- From any other source the same chunk comes back with a different source. -/
theorem chunksSurvive_fails : ¬ ∀ (ssrc : BitVec 32) (calls : List (BitVec 8 × List (BitVec 8)))
    (m : ByteMemory) (p l : Nat), (addChunks ssrc calls).chunks ≠ [] →
      (addChunks ssrc calls).chunks.length ≤ 31 → (addChunks ssrc calls).getTotalSize ≤ l →
        (addChunks ssrc calls).RoundTrips m p l := by
  intro hall
  have htrip := hall 5 [(chunkCname, [0x61#8, 0x62#8])] (fun _ => 7) 0 4 (by decide) (by decide)
    (by decide)
  have hssrc := htrip.ssrcs 0 (by decide)
  exact absurd hssrc (by decide +kernel)

end RTPSourceDescription

end NetISDN

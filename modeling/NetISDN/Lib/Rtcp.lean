import NetISDN.Lib.Codec

/-!
# Compound packets at the far end

Three encoders write the packet that `GenerateRtcpPacket` and `disconnect` make, and the walk of
`RTPControlHeader` relies on the lengths they declare. Here the packet is read back: from any buffer
that holds its bytes, the walk comes to its packets and to nothing else
(`SentPacket.understood_of_agree`). The GPIO mask comes with it, so that after each packet the
receiver has the sender's mask and has emitted its changes (`compoundPacket_understood`). The slot
takes the packets in its socket one by one like that (`Codec.rtcpReceiveData_cons`).
-/

namespace NetISDN

open BitFields

/-- Whether an event is about GPIO. -/
def CodecEvent.isGpio : CodecEvent → Bool
  | .gpioChanged _ _ => true
  | .connectionStateChanged _ | .locked _ | .rtcp _ => false

namespace Codec

variable {c r : Codec} {ntp : BitVec 64} {m m' buffer : ByteMemory}

/-! ## What is sent -/

/-- The CNAME chunk. -/
def cnameChunk (c : Codec) : Chunk :=
  ⟨chunkCname, c.transmitCname.take 255, List.length_take_le 255 c.transmitCname⟩

/-- The GPIO chunk. -/
def gpioChunk (mask : BitVec 32) : Chunk := ⟨chunkPriv, gpioData mask, by simp [gpioData]⟩

/-- The source description has two chunks for the one source. -/
theorem sourceDescription_eq (c : Codec) : c.sourceDescription =
    { chunkSsrcs := [c.transmitSsrc, c.transmitSsrc]
      chunks := [c.cnameChunk, gpioChunk c.transGpio] } := rfl

/-- The length in words of the source description. -/
theorem getTotalSize_eq (c : Codec) :
    c.sourceDescription.getTotalSize = 7 + (2 + c.cnameChunk.data.length) / 4 := by
  have hgpio : (gpioChunk c.transGpio).data.length = 9 := rfl
  rw [sourceDescription_eq, RTPSourceDescription.getTotalSize, List.map_cons, List.map_cons,
    List.map_nil, List.sum_cons, List.sum_cons, List.sum_nil, hgpio]
  omega

/-- The source description has at most 71 bytes. -/
theorem getTotalSize_le (c : Codec) : c.sourceDescription.getTotalSize ≤ 71 := by
  have hle := c.cnameChunk.data_le
  rw [getTotalSize_eq]
  omega

/-- The reception blocks of the sender report: at most one. -/
theorem length_receptionBlocks (c : Codec) (ntp : BitVec 64) :
    (c.senderReport ntp).receptionBlocks.length ≤ 1 := by
  rw [senderReport]
  split
  · exact Nat.le_refl 1
  · exact Nat.zero_le 1

@[simp] theorem senderReport_version : (c.senderReport ntp).version = 2 := by
  rw [senderReport]
  split <;> rfl

@[simp] theorem senderReport_paddingBit : (c.senderReport ntp).paddingBit = false := by
  rw [senderReport]
  split <;> rfl

/-- The length in words of the sender report. -/
@[simp] theorem size_senderReport : (c.senderReport ntp).size = 13 := by
  have hle := c.length_receptionBlocks ntp
  rw [RTPSenderReport.size, Nat.max_eq_left hle]

/-- The memory and the length that `GenerateRtcpPacket` returns. -/
theorem generateRtcpPacket_eq (c : Codec) (ntp : BitVec 64) (buffer : ByteMemory) :
    c.generateRtcpPacket ntp buffer 1500 =
      (c.reported,
        (c.sourceDescription.writeBlock ((c.senderReport ntp).writeBlock buffer 0 1500).1 52
        1487).1,
        13 + c.sourceDescription.getTotalSize) := by
  have hle := c.getTotalSize_le
  have hreport : ((c.senderReport ntp).writeBlock buffer 0 1500).2 = 13 := by
    rw [RTPSenderReport.writeBlock_snd (by rw [size_senderReport]; decide), size_senderReport]
  have hdescription : (c.sourceDescription.writeBlock
      ((c.senderReport ntp).writeBlock buffer 0 1500).1 52 1487).2 =
        c.sourceDescription.getTotalSize := RTPSourceDescription.writeBlock_snd (by omega)
  simp only [generateRtcpPacket, hreport, hdescription]

/-! ## What is read -/

/-- A buffer from which the sender report and the source description of `c` are read. -/
structure Carries (c : Codec) (ntp : BitVec 64) (m : ByteMemory) : Prop where
  /-- First word of the sender report. -/
  report_word : m.word 0 =
    controlWord 2 false 28 (c.senderReport ntp).receptionBlocks.length 200 13
  /-- The sender report. -/
  report : RTPSenderReport.readBlock m 0 =
    ((c.senderReport ntp).onWire, 7 + 6 * (c.senderReport ntp).receptionBlocks.length)
  /-- First word of the source description. -/
  description_word : m.word 52 =
    controlWord 2 false 29 2 202 c.sourceDescription.getTotalSize
  /-- The chunks of the source description. -/
  chunks : (RTPSourceDescription.readBlock m 52).1.chunks = [c.cnameChunk, gpioChunk c.transGpio]
  /-- The source description is there. -/
  description_pos : (RTPSourceDescription.readBlock m 52).2 ≠ 0

/-- Every buffer that agrees with the packet on its length carries what was sent. -/
theorem carries_of_agree (h : ByteMemory.Agree 0 (4 * (c.generateRtcpPacket ntp buffer 1500).2.2)
    (c.generateRtcpPacket ntp buffer 1500).2.1 m) : Carries c ntp m := by
  have hle := c.getTotalSize_le
  have hge := c.getTotalSize_eq
  rw [generateRtcpPacket_eq] at h
  simp only at h
  have hlen : (c.senderReport ntp).size ≤ 1500 := by rw [size_senderReport]; decide
  have hblocks := c.length_receptionBlocks ntp
  have hne : c.sourceDescription.chunks ≠ [] := List.cons_ne_nil _ _
  generalize hm₁ : ((c.senderReport ntp).writeBlock buffer 0 1500).1 = m₁ at h
  generalize hm₂ : (c.sourceDescription.writeBlock m₁ 52 1487).1 = m₂ at h
  -- the source description is written behind the sender report
  have hframe : ByteMemory.Frame 52 (4 * 1487) m₁ m₂ := by
    rw [← hm₂]
    exact RTPSourceDescription.frame_writeBlock hne
  have hreport : ByteMemory.Agree 0 52 m₁ m :=
    (hframe.agree (.inl (by decide))).trans (h.mono (Nat.le_refl 0) (by omega))
  have hdescription : ByteMemory.Agree 52 (4 * c.sourceDescription.getTotalSize) m₂ m :=
    h.mono (Nat.zero_le 52) (by omega)
  have hword₁ : m₁.word 0 =
      controlWord 2 false 28 (c.senderReport ntp).receptionBlocks.length 200 13 := by
    rw [← hm₁, RTPSenderReport.word_writeBlock hlen, senderReport_version, senderReport_paddingBit,
      size_senderReport]
  have hword₂ : m₂.word 52 = controlWord 2 false 29 2 202 c.sourceDescription.getTotalSize := by
    rw [← hm₂, RTPSourceDescription.word_writeBlock (by omega)]
    rfl
  have hcount₁ : controlCount (m₁.word 0) = (c.senderReport ntp).receptionBlocks.length := by
    rw [hword₁, controlCount_word (by omega) (by decide) (by decide)]
  have hcount₂ : controlCount (m₂.word 52) = 2 := by
    rw [hword₂, controlCount_word (by decide) (by decide) (by omega)]
  have hread₁ : RTPSenderReport.readBlock m 0 = RTPSenderReport.readBlock m₁ 0 :=
    RTPSenderReport.readBlock_congr (hreport.mono (Nat.le_refl 0) (by omega))
  have hspan := RTPSourceDescription.span_le hne
  have hall : Chunk.readAll m₂ 60 2 = c.sourceDescription.chunks := by
    rw [← hm₂]
    exact RTPSourceDescription.readAll_writeBlock (d := c.sourceDescription) (by omega)
  have hread₂ : RTPSourceDescription.readBlock m 52 = RTPSourceDescription.readBlock m₂ 52 :=
    RTPSourceDescription.readBlock_congr hdescription (by omega)
      (by rw [hcount₂, hall]; exact hspan)
  have hback := RTPSourceDescription.readBlock_writeBlock (d := c.sourceDescription) (m := m₁)
    (p := 52) (l := 1487) (show (2 : BitVec 32).toNat < 4 by decide) rfl
    (show 2 < 16 by decide) (by omega) (by omega)
  rw [hm₂] at hback
  obtain ⟨-, -, hchunks, hsize⟩ := hback
  refine ⟨?_, ?_, ?_, ?_, ?_⟩
  · rw [hreport.word (Nat.le_refl 0) (by omega), hword₁]
  · rw [hread₁, ← hm₁, RTPSenderReport.readBlock_writeBlock (by rw [senderReport_version]; decide)
      senderReport_paddingBit (by omega) hlen]
  · rw [hdescription.word (Nat.le_refl 52) (by omega), hword₂]
  · rw [hread₂, hchunks]
    rfl
  · rw [hread₂, hsize]
    omega

/-- Where the walk goes, and what it has read by the end of the source description. -/
theorem readBlock_of_carries {l : Nat} {ps : List (Nat × Nat)} (h : Carries c ntp m)
    (hlen : 13 + c.sourceDescription.getTotalSize ≤ l / 4)
    (hps : RTPControlHeader.packets 2 m 0 l (13 + c.sourceDescription.getTotalSize) = ps) :
    RTPControlHeader.packets 2 m 0 l 0 = (0, 200) :: (13, 202) :: ps ∧
      ({} : RTPControlHeader).readBlock m 0 l =
        ps.foldl (fun h q => h.readPacket m (0 + 4 * q.1) q.2)
          { senderReport := some (c.senderReport ntp).onWire
            sourceDescription := some (RTPSourceDescription.readBlock m 52).1 } := by
  have hle := c.getTotalSize_le
  have hge := c.getTotalSize_eq
  have hblocks := c.length_receptionBlocks ntp
  have hversion : (2 : BitVec 32).toNat < 4 := by decide
  have hfirst : RTPControlHeader.packets 2 m 0 l 0 =
      (0, 200) :: RTPControlHeader.packets 2 m 0 l 13 := by
    rw [RTPControlHeader.packets_cons (by omega)
      (by rw [h.report_word, controlVersion_word hversion (by omega) (by decide) (by decide)]),
      h.report_word, controlType_word (by omega) (by decide) (by decide),
      controlSize_word (by omega) (by decide) (by decide) (by decide)]
  have hsecond : RTPControlHeader.packets 2 m 0 l 13 = (13, 202) :: ps := by
    rw [RTPControlHeader.packets_cons (by omega)
      (by rw [h.description_word, controlVersion_word hversion (by decide) (by decide) (by omega)]),
      h.description_word, controlType_word (by decide) (by decide) (by omega),
      controlSize_word (by decide) (by decide) (by omega) (by omega), hps]
  have hpackets := hfirst.trans (congrArg _ hsecond)
  refine ⟨hpackets, ?_⟩
  have hreport : unlessZero (RTPSenderReport.readBlock m 0) =
      some (c.senderReport ntp).onWire := by
    rw [h.report, unlessZero, if_neg (by simp)]
  have hdescription : unlessZero (RTPSourceDescription.readBlock m 52) =
      some (RTPSourceDescription.readBlock m 52).1 := if_neg h.description_pos
  rw [RTPControlHeader.readBlock, RTPControlHeader.readLoop_eq, hpackets, List.foldl_cons,
    List.foldl_cons]
  simp only [RTPControlHeader.readPacket, Option.isNone_none, if_true, Nat.mul_zero, Nat.zero_add,
    Nat.reduceMul, hreport, hdescription]

/-! ## GPIO -/

section Gpio

variable {x y mask : BitVec 32} {i : Nat}

/-- A line under its mask. -/
theorem and_line : x &&& (1#32 <<< i) = if x.getLsbD i then BitVec.twoPow 32 i else 0#32 :=
  BitVec.and_twoPow x i

/-- A line has a bit of its own. -/
theorem line_ne_zero (hi : i < 32) : BitVec.twoPow 32 i ≠ 0#32 := by
  intro hzero
  have hbit := congrArg (BitVec.getLsbD · i) hzero
  simp [hi] at hbit

/-- A line differs if its bits under the mask do. -/
theorem and_line_ne_iff (hi : i < 32) :
    x &&& (1#32 <<< i) ≠ y &&& (1#32 <<< i) ↔ x.getLsbD i ≠ y.getLsbD i := by
  have hne := line_ne_zero hi
  rw [and_line, and_line]
  cases x.getLsbD i <;> cases y.getLsbD i <;> simp [hne, hne.symm]

/-- A line is on when its bit is. -/
theorem and_line_ne_zero (hi : i < 32) : decide (x &&& (1#32 <<< i) ≠ 0) = x.getLsbD i := by
  have hne := line_ne_zero hi
  rw [and_line]
  cases x.getLsbD i <;> simp [hne]

/-- The mask is put together again from its bytes. -/
theorem mask_bytes (mask : BitVec 32) :
    (((mask >>> 24).setWidth 8).setWidth 32 <<< 24) |||
      (((mask >>> 16).setWidth 8).setWidth 32 <<< 16) |||
      (((mask >>> 8).setWidth 8).setWidth 32 <<< 8) ||| (mask.setWidth 8).setWidth 32 = mask := by
  have hlt := mask.isLt
  have h₃ : (((mask >>> 24).setWidth 8).setWidth 32 <<< 24).toNat =
      mask.toNat / 2 ^ 24 % 256 * 2 ^ 24 := by
    rw [BitVec.toNat_shiftLeft, BitVec.toNat_setWidth, BitVec.toNat_setWidth,
      BitVec.toNat_ushiftRight, Nat.shiftRight_eq_div_pow, Nat.shiftLeft_eq]
    omega
  have h₂ : (((mask >>> 16).setWidth 8).setWidth 32 <<< 16).toNat =
      mask.toNat / 2 ^ 16 % 256 * 2 ^ 16 := by
    rw [BitVec.toNat_shiftLeft, BitVec.toNat_setWidth, BitVec.toNat_setWidth,
      BitVec.toNat_ushiftRight, Nat.shiftRight_eq_div_pow, Nat.shiftLeft_eq]
    omega
  have h₁ : (((mask >>> 8).setWidth 8).setWidth 32 <<< 8).toNat =
      mask.toNat / 2 ^ 8 % 256 * 2 ^ 8 := by
    rw [BitVec.toNat_shiftLeft, BitVec.toNat_setWidth, BitVec.toNat_setWidth,
      BitVec.toNat_ushiftRight, Nat.shiftRight_eq_div_pow, Nat.shiftLeft_eq]
    omega
  have h₀ : ((mask.setWidth 8).setWidth 32).toNat = mask.toNat % 256 := by
    rw [BitVec.toNat_setWidth, BitVec.toNat_setWidth]
    omega
  generalize ((mask >>> 24).setWidth 8).setWidth 32 <<< 24 = b₃ at *
  generalize ((mask >>> 16).setWidth 8).setWidth 32 <<< 16 = b₂ at *
  generalize ((mask >>> 8).setWidth 8).setWidth 32 <<< 8 = b₁ at *
  generalize (mask.setWidth 8).setWidth 32 = b₀ at *
  have e₁ := toNat_or (x := b₃) (y := b₂) (k := 24) (by omega) (by omega)
  have e₂ := toNat_or (x := b₃ ||| b₂) (y := b₁) (k := 16) (by omega) (by omega)
  refine BitVec.eq_of_toNat_eq ?_
  rw [toNat_or (k := 8) (by omega) (by omega)]
  omega

/-- The lines in which two masks differ, each with its new state. -/
def gpioChanges (old new : BitVec 32) : List CodecEvent :=
  ((List.range 32).filter fun i => old.getLsbD i ≠ new.getLsbD i).map fun i =>
    .gpioChanged i (new.getLsbD i)

/-- The GPIO data of a packet are taken over, and each changed line is emitted. -/
theorem readPrivateSourceChunk_gpioData : r.readPrivateSourceChunk (gpioData mask) =
    ({ r with recvGpio := mask }, gpioChanges r.recvGpio mask) := by
  have hchanges : (((List.range 32).filter fun i =>
      mask &&& (1#32 <<< i) ≠ r.recvGpio &&& (1#32 <<< i)).map fun i =>
        CodecEvent.gpioChanged i (mask &&& (1#32 <<< i) ≠ 0)) = gpioChanges r.recvGpio mask := by
    rw [gpioChanges, List.filter_congr fun i hi => decide_eq_decide.2
      ((and_line_ne_iff (List.mem_range.1 hi)).trans ne_comm)]
    refine List.map_congr_left fun i hi => ?_
    rw [and_line_ne_zero (List.mem_range.1 (List.mem_filter.1 hi).1)]
  simp only [readPrivateSourceChunk, gpioData, mask_bytes, hchanges, ne_eq, not_true, or_self,
    if_false]

/-- The changes of the lines are signals of lines. -/
theorem filter_gpioChanges : (gpioChanges x y).filter CodecEvent.isGpio = gpioChanges x y := by
  refine List.filter_eq_self.2 fun e he => ?_
  obtain ⟨i, -, rfl⟩ := List.mem_map.1 he
  rfl

/-- The two chunks of a packet. -/
theorem readChunks_sent : (r.readChunks [c.cnameChunk, gpioChunk mask]).1.recvGpio = mask ∧
    (r.readChunks [c.cnameChunk, gpioChunk mask]).2 = gpioChanges r.recvGpio mask := by
  have hcname : r.readChunk c.cnameChunk =
      ({ r with stats := { r.stats with
          receptionCname := RTPSourceDescription.chunkString c.cnameChunk } }, []) := by
    have htype : c.cnameChunk.type = chunkCname := rfl
    rw [readChunk, if_pos htype]
  have hgpio (r : Codec) : r.readChunk (gpioChunk mask) =
      r.readPrivateSourceChunk (gpioData mask) :=
    rfl
  simp only [readChunks, hcname, hgpio, readPrivateSourceChunk_gpioData, List.nil_append,
    List.append_nil, and_self]

/-- A sender report leaves the lines alone. -/
theorem readSenderReport_recvGpio {sr : RTPSenderReport} :
    (r.readSenderReport sr).recvGpio = r.recvGpio := by
  rw [readSenderReport]
  split <;> split <;> rfl

/-- Sending a packet leaves the received lines alone. -/
theorem generateRtcpPacket_recvGpio {l : Nat} :
    (r.generateRtcpPacket ntp buffer l).1.recvGpio = r.recvGpio := by
  show r.reported.recvGpio = r.recvGpio
  rw [reported]
  split <;> rfl

/-- `disconnect` is not about GPIO. -/
theorem disconnect_gpio : (r.disconnect ntp buffer).1.recvGpio = r.recvGpio ∧
    (r.disconnect ntp buffer).2.filter CodecEvent.isGpio = [] := by
  cases hstate : r.connectionState with
  | idle =>
      rw [disconnect, hstate]
      exact ⟨rfl, rfl⟩
  | connecting | connected =>
      simp only [disconnect, hstate, setConnectionState, byePacket]
      exact ⟨generateRtcpPacket_recvGpio.trans rfl, rfl⟩

end Gpio

end Codec

/-! ## Packets sent -/

/-- A packet that a codec sends, in a state and at a time, from a buffer that held anything before;
with a BYE if it comes from `disconnect`. -/
structure SentPacket where
  codec : Codec
  ntp : BitVec 64
  buffer : ByteMemory
  bye : Bool
  cname_le : codec.transmitCname.length ≤ 255

namespace SentPacket

variable {s : SentPacket} {m : ByteMemory}

/-- The buffer, and how many words of it are sent. -/
def packet (s : SentPacket) : ByteMemory × Nat :=
  if s.bye then (s.codec.byePacket s.ntp s.buffer).2
  else (s.codec.generateRtcpPacket s.ntp s.buffer 1500).2

/-- The bytes that go over the wire. -/
def datagram (s : SentPacket) : List (BitVec 8) := s.packet.1.bytes 0 (4 * s.packet.2)

/-- Where the BYE begins. -/
def byeOffset (s : SentPacket) : Nat := 13 + s.codec.sourceDescription.getTotalSize

/-- The packets of the compound, each with its place and type. -/
def parts (s : SentPacket) : List (Nat × Nat) :=
  [(0, 200), (13, 202)] ++ if s.bye then [(s.byeOffset, 203)] else []

/-- The BYE packet of `disconnect`. -/
def byePart (s : SentPacket) : RTPBye := { ssrcs := [s.codec.transmitSsrc] }

/-- The last packet is a common one with the goodbye behind it. -/
theorem byePacket_eq (s : SentPacket) : (s.codec.byePacket s.ntp s.buffer).2 =
    ((s.byePart.writeBlock (s.codec.generateRtcpPacket s.ntp s.buffer 1500).2.1
      (4 * s.byeOffset) (1500 - s.byeOffset)).1, s.byeOffset + 2) := by
  have hle := s.codec.getTotalSize_le
  have hssrc : s.codec.reported.transmitSsrc = s.codec.transmitSsrc := by
    rw [Codec.reported]
    split <;> rfl
  have hlen : 1 + s.byePart.ssrcs.length ≤ 1500 - s.byeOffset := by
    show 2 ≤ 1500 - s.byeOffset
    rw [byeOffset]
    omega
  simp only [Codec.byePacket, Codec.generateRtcpPacket_eq, hssrc]
  exact congrArg (_, s.byeOffset + ·) (RTPBye.writeBlock_snd hlen)

/-- The number of words sent. -/
theorem packet_snd (s : SentPacket) :
    s.packet.2 = s.byeOffset + if s.bye then 2 else 0 := by
  cases hbye : s.bye with
  | false => simp only [packet, hbye, Codec.generateRtcpPacket_eq]; rfl
  | true => simp only [packet, hbye, if_true, byePacket_eq]

/-- The BYE is written behind the rest. -/
theorem agree_packet (s : SentPacket) :
    ByteMemory.Agree 0 (4 * (s.codec.generateRtcpPacket s.ntp s.buffer 1500).2.2)
      (s.codec.generateRtcpPacket s.ntp s.buffer 1500).2.1 s.packet.1 := by
  cases hbye : s.bye with
  | false => simp only [packet, hbye]; exact fun _ _ _ => rfl
  | true =>
      have hlen : (s.codec.generateRtcpPacket s.ntp s.buffer 1500).2.2 = s.byeOffset := by
        rw [Codec.generateRtcpPacket_eq, byeOffset]
      simp only [packet, hbye, if_true, byePacket_eq]
      exact RTPBye.frame_writeBlock.agree (.inl (by omega))

/-- A buffer that agrees with the packet carries it. -/
theorem carries (h : ByteMemory.Agree 0 (4 * s.packet.2) s.packet.1 m) :
    Codec.Carries s.codec s.ntp m := by
  have hlen : (s.codec.generateRtcpPacket s.ntp s.buffer 1500).2.2 = s.byeOffset := by
    rw [Codec.generateRtcpPacket_eq, byeOffset]
  have hle := s.packet_snd
  exact Codec.carries_of_agree (s.agree_packet.trans (h.mono (Nat.le_refl 0) (by omega)))

/-- What is read of the BYE. -/
theorem bye_of_agree (h : ByteMemory.Agree 0 (4 * s.packet.2) s.packet.1 m) (hbye : s.bye = true) :
    m.word (4 * s.byeOffset) = controlWord 2 false 28 1 203 2 ∧
      RTPBye.readBlock m (4 * s.byeOffset) = (s.byePart, 2) := by
  have hle := s.codec.getTotalSize_le
  have hoffset : s.byeOffset = 13 + s.codec.sourceDescription.getTotalSize := rfl
  have hone : s.byePart.ssrcs.length = 1 := rfl
  simp only [packet, hbye, if_true, byePacket_eq] at h
  generalize (s.codec.generateRtcpPacket s.ntp s.buffer 1500).2.1 = m₂ at h
  have hbye : ByteMemory.Agree (4 * s.byeOffset) 8
      (s.byePart.writeBlock m₂ (4 * s.byeOffset) (1500 - s.byeOffset)).1 m :=
    h.mono (by omega) (by omega)
  have hlen : 1 + s.byePart.ssrcs.length ≤ 1500 - s.byeOffset := by omega
  have hword := (RTPBye.words_writeBlock (m := m₂) (p := 4 * s.byeOffset) hlen).1
  have hread := RTPBye.readBlock_writeBlock (b := s.byePart) (m := m₂) (p := 4 * s.byeOffset)
    (show (2 : BitVec 32).toNat < 4 by decide) rfl (by omega) hlen
  have hcount : controlCount (controlWord 2 false 28 1 203 2) = 1 :=
    controlCount_word (by decide) (by decide) (by decide)
  refine ⟨?_, ?_⟩
  · rw [hbye.word (Nat.le_refl _) (by omega), hword]
    rfl
  · have hagree : 4 * s.byeOffset + 4 * (1 + controlCount
        ((s.byePart.writeBlock m₂ (4 * s.byeOffset) (1500 - s.byeOffset)).1.word
          (4 * s.byeOffset))) ≤ 4 * s.byeOffset + 8 := by
      rw [hword]
      show 4 * s.byeOffset + 4 * (1 + controlCount (controlWord 2 false 28 1 203 2)) ≤ _
      rw [hcount]
    rw [RTPBye.readBlock_congr (hbye.mono (Nat.le_refl _) hagree), hread, hone]

/-- **The far end reads what was sent.** The walk of `RTPControlHeader` comes to the packets of the
compound and to nothing else, and keeps each of them. -/
theorem understood_of_agree (h : ByteMemory.Agree 0 (4 * s.packet.2) s.packet.1 m) :
    RTPControlHeader.packets 2 m 0 (4 * s.packet.2) 0 = s.parts ∧
      ({} : RTPControlHeader).readBlock m 0 (4 * s.packet.2) =
        { senderReport := some (s.codec.senderReport s.ntp).onWire
          sourceDescription := some (RTPSourceDescription.readBlock m 52).1
          bye := if s.bye then some s.byePart else none } := by
  have hoffset : s.byeOffset = 13 + s.codec.sourceDescription.getTotalSize := rfl
  have hlen := s.packet_snd
  cases hbye : s.bye with
  | false =>
      simp only [hbye, Bool.false_eq_true, if_false, Nat.add_zero] at hlen
      obtain ⟨hpackets, hread⟩ := Codec.readBlock_of_carries (carries h)
        (l := 4 * s.packet.2) (by omega) (RTPControlHeader.packets_nil (by omega))
      simp only [parts, hbye]
      exact ⟨hpackets, hread⟩
  | true =>
      obtain ⟨hword, hbyeRead⟩ := bye_of_agree h hbye
      simp only [hbye, if_true] at hlen
      have hword' : m.word (0 + 4 * s.byeOffset) = controlWord 2 false 28 1 203 2 := by
        rw [Nat.zero_add, hword]
      have hlast : RTPControlHeader.packets 2 m 0 (4 * s.packet.2) s.byeOffset =
          [(s.byeOffset, 203)] := by
        rw [RTPControlHeader.packets_cons (by omega)
          (by rw [hword', controlVersion_word (by decide) (by decide) (by decide) (by decide)]),
          hword', controlType_word (by decide) (by decide) (by decide),
          controlSize_word (by decide) (by decide) (by decide) (by decide),
          RTPControlHeader.packets_nil (by omega)]
      obtain ⟨hpackets, hread⟩ := Codec.readBlock_of_carries (carries h)
        (l := 4 * s.packet.2) (by omega) hlast
      simp only [parts, hbye]
      refine ⟨hpackets, ?_⟩
      rw [hread, List.foldl_cons, List.foldl_nil]
      simp only [RTPControlHeader.readPacket, Option.isNone_none, if_true, Nat.zero_add, hbyeRead,
        unlessZero]
      rfl

/-- What a header says that was read from a packet. -/
structure Understood (s : SentPacket) (hdr : RTPControlHeader) : Prop where
  /-- The sender report has the figures of the sender. -/
  report : ∃ sr, hdr.senderReport = some sr ∧ sr.ssrc = s.codec.transmitSsrc ∧
    sr.ntpTimestamp = s.ntp ∧ sr.rtpTimestamp = 90000 * s.codec.transmitPackets ∧
    sr.senderPacketCount = s.codec.transmitPackets ∧
    sr.senderOctetCount = s.codec.transmitOctets
  /-- The chunks are the CNAME and the GPIO data. -/
  description : ∃ sd, hdr.sourceDescription = some sd ∧
    sd.chunks.map (fun chunk => (chunk.type, chunk.data)) =
      [(chunkCname, s.codec.transmitCname), (chunkPriv, Codec.gpioData s.codec.transGpio)]
  /-- There is a BYE if and only if one was sent, with the source of the sender. -/
  bye : hdr.bye.map (·.ssrcs) = if s.bye then some [s.codec.transmitSsrc] else none
  /-- There is no reception report. -/
  reception : hdr.receptionReport = none

/-- A packet that arrives as it was sent is understood. -/
theorem understood (h : ByteMemory.Agree 0 (4 * s.packet.2) s.packet.1 m) :
    s.Understood (({} : RTPControlHeader).readBlock m 0 (4 * s.packet.2)) := by
  have hcname : s.codec.cnameChunk.data = s.codec.transmitCname := List.take_of_length_le s.cname_le
  rw [(understood_of_agree h).2]
  refine ⟨⟨_, rfl, ?_⟩, ⟨_, rfl, ?_⟩, ?_, rfl⟩
  · show (s.codec.senderReport s.ntp).ssrc = _ ∧ _
    rw [Codec.senderReport]
    split <;> exact ⟨rfl, rfl, rfl, rfl, rfl⟩
  · rw [(carries h).chunks, List.map_cons, List.map_cons, List.map_nil, hcname]
    rfl
  · cases s.bye <;> rfl

/-- A BYE makes `rtcpReceiveData` return. -/
theorem receive_returned (h : ByteMemory.Agree 0 (4 * s.packet.2) s.packet.1 m) (r : Codec)
    (ntp : BitVec 64) (buffer : ByteMemory) :
    (r.rtcpReceivePacket m (4 * s.packet.2) ntp buffer).2.2 = s.bye := by
  simp only [Codec.rtcpReceivePacket, (understood_of_agree h).2]
  cases s.bye <;> rfl

/-- One packet at the receiver, from any state of it. -/
theorem receive_gpio (h : ByteMemory.Agree 0 (4 * s.packet.2) s.packet.1 m) (r : Codec)
    (ntp : BitVec 64) (buffer : ByteMemory) :
    let out := r.rtcpReceivePacket m (4 * s.packet.2) ntp buffer
    out.1.recvGpio = s.codec.transGpio ∧
      out.2.1.filter CodecEvent.isGpio =
        Codec.gpioChanges r.recvGpio s.codec.transGpio := by
  obtain ⟨hgpio, hevents⟩ := @Codec.readChunks_sent s.codec r s.codec.transGpio
  simp only [Codec.rtcpReceivePacket, (understood_of_agree h).2, (carries h).chunks]
  cases s.bye with
  | false =>
      simp only [Bool.false_eq_true, if_false, Codec.readSenderReport_recvGpio, hevents,
        Codec.filter_gpioChanges]
      exact ⟨hgpio, trivial⟩
  | true =>
      simp only [if_true, List.filter_append, hevents, Codec.filter_gpioChanges,
        Codec.disconnect_gpio.2, List.append_nil, and_true]
      exact Codec.disconnect_gpio.1.trans (Codec.readSenderReport_recvGpio.trans hgpio)

end SentPacket

/-! ## Deliveries -/

/-- A packet that comes out of the network: which one it is, what the buffer of the receiver held
before, and what a BYE of the receiver would be made from. -/
structure Delivery where
  sent : SentPacket
  packet : ByteMemory
  ntp : BitVec 64
  buffer : ByteMemory

/-- The buffer of the receiver once the packet is in it. -/
def Delivery.received (d : Delivery) : ByteMemory := d.packet.setBytes 0 d.sent.datagram

/-- A delivery: one turn of the loop of `rtcpReceiveData`. -/
def Codec.deliver (r : Codec) (d : Delivery) : Codec × List CodecEvent :=
  let out := r.rtcpReceivePacket d.received d.sent.datagram.length d.ntp d.buffer
  (out.1, out.2.1)

/-- The receiver after deliveries. -/
def Codec.deliverAll (r : Codec) (ds : List Delivery) : Codec :=
  ds.foldl (fun r d => (r.deliver d).1) r

/-- A delivery has the words of the packet that was sent. -/
theorem Delivery.agree (d : Delivery) :
    ByteMemory.Agree 0 (4 * d.sent.packet.2) d.sent.packet.1 d.received :=
  ByteMemory.agree_setBytes

@[simp] theorem SentPacket.length_datagram (s : SentPacket) :
    s.datagram.length = 4 * s.packet.2 := ByteMemory.length_bytes

/-- The loop takes the packets in its socket one by one, until one that has a BYE. -/
theorem Codec.rtcpReceiveData_cons (r : Codec) (d : Delivery) (ds : List (List (BitVec 8))) :
    r.rtcpReceiveData d.packet d.ntp d.buffer (d.sent.datagram :: ds) =
      if d.sent.bye then ((r.deliver d).1, (r.deliver d).2, ds)
      else
        let more := (r.deliver d).1.rtcpReceiveData d.received d.ntp d.buffer ds
        (more.1, (r.deliver d).2 ++ more.2.1, more.2.2) := by
  have hle := d.sent.codec.getTotalSize_le
  have hoffset : d.sent.byeOffset = 13 + d.sent.codec.sourceDescription.getTotalSize := rfl
  have hlen : 0 < d.sent.packet.2 ∧ d.sent.packet.2 ≤ 86 := by
    rw [d.sent.packet_snd]
    split <;> omega
  have htake : d.sent.datagram.take 1500 = d.sent.datagram :=
    List.take_of_length_le (by rw [d.sent.length_datagram]; omega)
  have hpos : ¬ d.sent.datagram.length = 0 := by
    rw [d.sent.length_datagram]
    omega
  have hreturned := SentPacket.receive_returned d.agree r d.ntp d.buffer
  rw [← d.sent.length_datagram] at hreturned
  rw [rtcpReceiveData]
  simp only [htake, if_neg hpos, deliver, Delivery.received] at hreturned ⊢
  split
  · next c events hout =>
      rw [hout] at hreturned ⊢
      rw [if_pos hreturned.symm]
  · next c events hout =>
      rw [hout] at hreturned ⊢
      rw [← hreturned, if_neg Bool.false_ne_true]

/-- **Compound packets are understood by the far end.** Whatever the buffer held before, the walk
over a received packet comes to exactly the packets sent and yields the sender's figures, the two
chunks and the BYE; and after any deliveries, in any order and of any packets, the receiver has the
mask of the last one, for which it has emitted the lines that differ. -/
theorem compoundPacket_understood (d : Delivery) :
    let len := d.sent.datagram.length
    len = 4 * (d.sent.byeOffset + if d.sent.bye then 2 else 0) ∧
      RTPControlHeader.packets 2 d.received 0 len 0 = d.sent.parts ∧
      d.sent.Understood (({} : RTPControlHeader).readBlock d.received 0 len) ∧
      ∀ (r : Codec) (before : List Delivery),
        let r' := r.deliverAll before
        (r'.deliver d).1.recvGpio = d.sent.codec.transGpio ∧
          (r'.deliver d).2.filter CodecEvent.isGpio =
            Codec.gpioChanges r'.recvGpio d.sent.codec.transGpio := by
  intro len
  have hlen : len = 4 * d.sent.packet.2 := d.sent.length_datagram
  refine ⟨by rw [hlen, d.sent.packet_snd], ?_⟩
  rw [hlen]
  refine ⟨(SentPacket.understood_of_agree d.agree).1, SentPacket.understood d.agree, ?_⟩
  intro r before r'
  show (r'.rtcpReceivePacket d.received len d.ntp d.buffer).1.recvGpio = _ ∧
    (r'.rtcpReceivePacket d.received len d.ntp d.buffer).2.1.filter _ = _
  rw [hlen]
  exact SentPacket.receive_gpio d.agree r' d.ntp d.buffer

end NetISDN

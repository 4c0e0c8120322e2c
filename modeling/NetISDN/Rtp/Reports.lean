import Mathlib.Data.Rat.Floor
import NetISDN.General.ByteMemory
import NetISDN.Rtp.Header

/-!
# RTCP reports and the BYE packet

Every RTCP packet begins with the same word: version, padding flag, a count, the packet type and
the length. The sender report (`rtpsenderreport.cpp`) follows it with six words and the reception
blocks (`rtpreceptionblock.cpp`); one without blocks is written with a null block that its count
leaves out. What is read back from a report is what was written, up to what a block keeps of its
loss figures.
-/

namespace NetISDN

open BitFields

variable {m m' : ByteMemory} {p l : Nat}

/-! ## The first word of a packet -/

/-- The first word of an RTCP packet, as the `writeBlock`s of `lib` put it together; `pad` is the
place of the padding flag, `size` the length in words. -/
def controlWord (version : BitVec 32) (paddingBit : Bool) (pad count pt size : Nat) : BitVec 32 :=
  ((0x03#32 &&& version) <<< 30) ||| ((0x01#32 &&& bit paddingBit) <<< pad) |||
    ((0x1f#32 &&& BitVec.ofNat 32 count) <<< 24) ||| ((0xff#32 &&& BitVec.ofNat 32 pt) <<< 16) |||
    (0xffff#32 &&& BitVec.ofNat 32 (size - 1))

/-- The version in a first word. -/
def controlVersion (w : BitVec 32) : BitVec 32 := 0x03#32 &&& (w >>> 30)

/-- The padding flag in a first word. -/
def controlPadding (w : BitVec 32) : Bool := 0x01#32 &&& (w >>> 28) ≠ 0

/-- The count in a first word. -/
def controlCount (w : BitVec 32) : Nat := (0x1f#32 &&& (w >>> 24)).toNat

/-- The packet type in a first word. -/
def controlType (w : BitVec 32) : Nat := (0xff#32 &&& (w >>> 16)).toNat

/-- The length in words that a first word gives. -/
def controlSize (w : BitVec 32) : Nat := (0xffff#32 &&& w).toNat + 1

/-- A packet is not empty. -/
theorem controlSize_pos (w : BitVec 32) : 0 < controlSize w := Nat.succ_pos _

section ControlWord

variable {version : BitVec 32} {pad count pt size : Nat}

/-- The header as a number, as long as its fields fit. -/
theorem toNat_controlWord (hcount : count < 32) (hpt : pt < 256) (hsize : size - 1 < 2 ^ 16) :
    (controlWord version false pad count pt size).toNat =
      version.toNat % 4 * 2 ^ 30 + count * 2 ^ 24 + pt * 2 ^ 16 + (size - 1) := by
  have hversion : ((0x03#32 &&& version) <<< 30).toNat = version.toNat % 4 * 2 ^ 30 :=
    toNat_place (n := 2) (by decide)
  have hpadding : (0x01#32 &&& bit false) <<< pad = 0 := by simp [bit]
  have hcount' : ((0x1f#32 &&& BitVec.ofNat 32 count) <<< 24).toNat = count * 2 ^ 24 :=
    (toNat_place (n := 5) (k := 24) (by decide)).trans (by rw [BitVec.toNat_ofNat]; omega)
  have hpt' : ((0xff#32 &&& BitVec.ofNat 32 pt) <<< 16).toNat = pt * 2 ^ 16 :=
    (toNat_place (n := 8) (k := 16) (by decide)).trans (by rw [BitVec.toNat_ofNat]; omega)
  have hsize' : (0xffff#32 &&& BitVec.ofNat 32 (size - 1)).toNat = size - 1 :=
    (toNat_mask_and (n := 16) (by decide)).trans (by rw [BitVec.toNat_ofNat]; omega)
  rw [controlWord, hpadding]
  generalize (0x03#32 &&& version) <<< 30 = v at *
  generalize (0x1f#32 &&& BitVec.ofNat 32 count) <<< 24 = c at *
  generalize (0xff#32 &&& BitVec.ofNat 32 pt) <<< 16 = t at *
  generalize 0xffff#32 &&& BitVec.ofNat 32 (size - 1) = s at *
  have hzero : (0 : BitVec 32).toNat = 0 := rfl
  have e₁ := toNat_or (x := v) (y := 0) (k := 30) (by omega) (by omega)
  have e₂ := toNat_or (x := v ||| 0) (y := c) (k := 30) (by omega) (by omega)
  have e₃ := toNat_or (x := v ||| 0 ||| c) (y := t) (k := 24) (by omega) (by omega)
  rw [toNat_or (k := 16) (by omega) (by omega)]
  omega

/-- The version is read back. -/
theorem controlVersion_word (hversion : version.toNat < 4) (hcount : count < 32) (hpt : pt < 256)
    (hsize : size - 1 < 2 ^ 16) :
    controlVersion (controlWord version false pad count pt size) = version := by
  refine BitVec.eq_of_toNat_eq ?_
  rw [controlVersion, show 0x03#32 = mask 2 from rfl, toNat_get (by decide),
    toNat_controlWord hcount hpt hsize]
  omega

/-- A count below 16 leaves the padding bit alone. -/
theorem controlPadding_word (hcount : count < 16) (hpt : pt < 256) (hsize : size - 1 < 2 ^ 16) :
    controlPadding (controlWord version false pad count pt size) = false := by
  refine decide_ne_zero ?_
  rw [show 0x01#32 = mask 1 from rfl, toNat_get (by decide),
    toNat_controlWord (by omega) hpt hsize, Bool.toNat_false]
  omega

/-- The count is read back. -/
theorem controlCount_word (hcount : count < 32) (hpt : pt < 256) (hsize : size - 1 < 2 ^ 16) :
    controlCount (controlWord version false pad count pt size) = count := by
  rw [controlCount, show 0x1f#32 = mask 5 from rfl, toNat_get (by decide),
    toNat_controlWord hcount hpt hsize]
  omega

/-- The packet type is read back. -/
theorem controlType_word (hcount : count < 32) (hpt : pt < 256) (hsize : size - 1 < 2 ^ 16) :
    controlType (controlWord version false pad count pt size) = pt := by
  rw [controlType, show 0xff#32 = mask 8 from rfl, toNat_get (by decide),
    toNat_controlWord hcount hpt hsize]
  omega

/-- The size is read back. -/
theorem controlSize_word (hcount : count < 32) (hpt : pt < 256) (hsize : size - 1 < 2 ^ 16)
    (hpos : 0 < size) : controlSize (controlWord version false pad count pt size) = size := by
  rw [controlSize, show 0xffff#32 = mask 16 from rfl, toNat_mask_and (by decide),
    toNat_controlWord hcount hpt hsize]
  omega

/-- The count in a word whose padding flag is at bit 28, the upper bit of the count. -/
def sharedCount (paddingBit : Bool) (count : Nat) : Nat :=
  if paddingBit then count ||| 16 else count

/-- A count with the padding bit in it still fits. -/
theorem sharedCount_lt (paddingBit : Bool) (hcount : count < 32) :
    sharedCount paddingBit count < 32 := by
  unfold sharedCount
  split
  · exact Nat.or_lt_two_pow (n := 5) hcount (by decide)
  · exact hcount

/-- The count is as it was, and shows the flag, if the flag is its upper bit. -/
theorem sharedCount_eq_iff {paddingBit : Bool} (hcount : count < 32) :
    (sharedCount paddingBit count = count ∧
      decide (16 ≤ sharedCount paddingBit count) = paddingBit) ↔
      (paddingBit = true ↔ 16 ≤ count) := by
  have hor : ∀ count < 32, count ||| 16 = count ↔ 16 ≤ count := by decide
  cases paddingBit with
  | false => simp [sharedCount]
  | true =>
      simp only [sharedCount, if_true, hor count hcount, true_iff, and_iff_left_iff_imp,
        decide_eq_true_eq]
      intro hle
      rwa [(hor count hcount).2 hle]

/-- A flag at bit 28 goes into the count. -/
theorem controlWord_shared {paddingBit : Bool} (hcount : count < 32) :
    controlWord version paddingBit 28 count pt size =
      controlWord version false 28 (sharedCount paddingBit count) pt size := by
  have hor : ∀ count < 32, ((0x01#32 &&& bit true) <<< 28) |||
      ((0x1f#32 &&& BitVec.ofNat 32 count) <<< 24) =
      ((0x01#32 &&& bit false) <<< 28) |||
        ((0x1f#32 &&& BitVec.ofNat 32 (count ||| 16)) <<< 24) := by
    decide
  cases paddingBit with
  | false => rfl
  | true =>
      rw [controlWord, controlWord, BitVec.or_assoc ((0x03#32 &&& version) <<< 30),
        hor count hcount,
        ← BitVec.or_assoc]
      rfl

/-- The fourth bit of the count is read as the padding bit. -/
theorem controlPadding_shared (hcount : count < 32) (hpt : pt < 256) (hsize : size - 1 < 2 ^ 16) :
    controlPadding (controlWord version false pad count pt size) = decide (16 ≤ count) := by
  have hbit : (0x01#32 &&& (controlWord version false pad count pt size >>> 28)).toNat =
      count / 16 := by
    rw [show 0x01#32 = mask 1 from rfl, toNat_get (by decide), toNat_controlWord hcount hpt hsize]
    omega
  rw [controlPadding]
  refine decide_eq_decide.2 ?_
  rw [← BitVec.toNat_inj.ne, hbit]
  show count / 16 ≠ 0 ↔ 16 ≤ count
  omega

end ControlWord

/-! ## Reception blocks -/

/-- `RTPReceptionBlock` (`rtpreceptionblock.h`). A `double` is taken as the rational number it
stands for. -/
structure RTPReceptionBlock where
  ssrc : BitVec 32 := 0
  fractionPacketsLost : ℚ := 0
  cumulativePacketsLost : BitVec 32 := 0
  highestSequenceNumber : BitVec 32 := 0
  interarrivalJitter : BitVec 32 := 0
  lastSendReportTimestamp : BitVec 32 := 0
  sendReportDelay : BitVec 32 := 0

namespace RTPReceptionBlock

variable {b : RTPReceptionBlock} {bs : List RTPReceptionBlock}

/-- `(uint32_t)(256.0*rtp_fraction_packets_lost)`. -/
def scaledFraction (b : RTPReceptionBlock) : BitVec 32 :=
  BitVec.ofNat 32 ⌊256 * b.fractionPacketsLost⌋₊

/-- The six words of a block. -/
def toWords (b : RTPReceptionBlock) : List (BitVec 32) :=
  [b.ssrc, ((0x0f#32 &&& b.scaledFraction) <<< 24) ||| (0x07ff#32 &&& b.cumulativePacketsLost),
    b.highestSequenceNumber, b.interarrivalJitter, b.lastSendReportTimestamp, b.sendReportDelay]

/-- `readBlock` (`rtpreceptionblock.cpp:122`). -/
def readBlock (m : ByteMemory) (data : Nat) : RTPReceptionBlock :=
  { ssrc := m.word data
    fractionPacketsLost := ((0xff#32 &&& (m.word (data + 4) >>> 24)).toNat : ℚ) / 256
    cumulativePacketsLost := 0x7ff#32 &&& m.word (data + 4)
    highestSequenceNumber := m.word (data + 8)
    interarrivalJitter := m.word (data + 12)
    lastSendReportTimestamp := m.word (data + 16)
    sendReportDelay := m.word (data + 20) }

/-- `writeBlock` (`rtpreceptionblock.cpp:135`). -/
def writeBlock (b : RTPReceptionBlock) (m : ByteMemory) (data len : Nat) : ByteMemory × Nat :=
  if len < 6 then (m, 0) else (m.setWords data b.toWords, 6)

/-- What is left of a block once it has been written: four bits of the scaled fraction and eleven
of the number of packets lost. -/
def onWire (b : RTPReceptionBlock) : RTPReceptionBlock :=
  { b with
    fractionPacketsLost := (b.scaledFraction.toNat % 16 : Nat) / 256
    cumulativePacketsLost := 0x7ff#32 &&& b.cumulativePacketsLost }

/-- The loop of the reports' `readBlock`. -/
def readBlocks (m : ByteMemory) (data : Nat) : Nat → List RTPReceptionBlock
  | 0 => []
  | n + 1 => readBlock m data :: readBlocks m (data + 24) n

/-- The loop of the reports' `writeBlock`. -/
def writeBlocks (m : ByteMemory) (data : Nat) : List RTPReceptionBlock → ByteMemory
  | [] => m
  | b :: bs => writeBlocks (b.writeBlock m data 6).1 (data + 24) bs

/-- A block is written to its 24 bytes. -/
theorem frame_writeBlock : ByteMemory.Frame p 24 m (b.writeBlock m p 6).1 :=
  @ByteMemory.frame_setWords m p b.toWords

/-- The word of the loss figures. -/
theorem toNat_loss {f c : BitVec 32} : (((0x0f#32 &&& f) <<< 24) ||| (0x07ff#32 &&& c)).toNat =
    f.toNat % 16 * 2 ^ 24 + c.toNat % 2048 := by
  have hf : ((0x0f#32 &&& f) <<< 24).toNat = f.toNat % 16 * 2 ^ 24 :=
    toNat_place (n := 4) (by decide)
  have hc : (0x07ff#32 &&& c).toNat = c.toNat % 2048 := toNat_mask_and (n := 11) (by decide)
  rw [toNat_or (k := 24) (by omega) (by omega), hf, hc]

/-- A block that is read back is what is left of the one written. -/
theorem readBlock_writeBlock : readBlock (b.writeBlock m p 6).1 p = b.onWire := by
  have hwords : (b.writeBlock m p 6).1.words p 6 = b.toWords :=
    @ByteMemory.words_setWords m p b.toWords
  generalize (b.writeBlock m p 6).1 = m' at *
  simp only [ByteMemory.words, toWords, List.cons.injEq, Nat.add_assoc, Nat.reduceAdd] at hwords
  obtain ⟨hssrc, hloss, hhighest, hjitter, hlast, hdelay, -⟩ := hwords
  have hfraction : (0xff#32 &&& (m'.word (p + 4) >>> 24)).toNat = b.scaledFraction.toNat % 16 := by
    rw [show 0xff#32 = mask 8 from rfl, toNat_get (by decide), hloss, toNat_loss]
    omega
  have hlost : 0x7ff#32 &&& m'.word (p + 4) = 0x7ff#32 &&& b.cumulativePacketsLost := by
    refine BitVec.eq_of_toNat_eq ?_
    rw [show 0x7ff#32 = mask 11 from rfl, toNat_mask_and (by decide), toNat_mask_and (by decide),
      hloss, toNat_loss]
    omega
  rw [readBlock, hfraction, hlost, hssrc, hhighest, hjitter, hlast, hdelay]
  rfl

/-- The loss figures of a block are such as the packet format has: a number of 256ths below one,
and a number of 24 bits. -/
def InRange (b : RTPReceptionBlock) : Prop :=
  (∃ k ≤ 255, b.fractionPacketsLost = (k : Nat) / 256) ∧ b.cumulativePacketsLost.toNat < 2 ^ 24

/-- A block is all there if its loss figures fit into the bits that are left of them. -/
theorem onWire_eq_iff (h : b.InRange) : b.onWire = b ↔
    b.fractionPacketsLost < 16 / 256 ∧ b.cumulativePacketsLost.toNat < 2 ^ 11 := by
  obtain ⟨⟨k, hk, hfraction⟩, -⟩ := h
  have hscaled : b.scaledFraction.toNat = k := by
    have hfloor : ⌊256 * b.fractionPacketsLost⌋₊ = k := by
      rw [hfraction, mul_div_cancel₀ _ (by norm_num), Nat.floor_natCast]
    rw [scaledFraction, hfloor, BitVec.toNat_ofNat]
    omega
  have hfour : ((k % 16 : Nat) : ℚ) / 256 = b.fractionPacketsLost ↔
      b.fractionPacketsLost < 16 / 256 := by
    rw [hfraction, div_left_inj' (by norm_num), div_lt_div_iff_of_pos_right (by norm_num)]
    norm_cast
    omega
  have heleven : 0x7ff#32 &&& b.cumulativePacketsLost = b.cumulativePacketsLost ↔
      b.cumulativePacketsLost.toNat < 2 ^ 11 := by
    rw [← BitVec.toNat_inj, show 0x7ff#32 = mask 11 from rfl, toNat_mask_and (by decide)]
    omega
  rw [← hfour, ← heleven, ← hscaled, onWire]
  obtain ⟨ssrc, fraction, cumulative, highest, jitter, last, delay⟩ := b
  simp

@[simp] theorem length_readBlocks {n : Nat} : (readBlocks m p n).length = n := by
  induction n generalizing p with
  | zero => rfl
  | succ n ih => rw [readBlocks, List.length_cons, ih]

/-- Blocks are written to 24 bytes each. -/
theorem frame_writeBlocks :
    ByteMemory.Frame p (24 * bs.length) m (writeBlocks m p bs) := by
  induction bs generalizing m p with
  | nil => exact .refl
  | cons b bs ih =>
      have hlen : 24 * (b :: bs).length = 24 + 24 * bs.length := by
        rw [List.length_cons]
        omega
      rw [hlen]
      exact (frame_writeBlock.mono (Nat.le_refl p) (by omega)).trans
        (ih.mono (by omega) (by omega))

/-- What is read of a block depends on its bytes only. -/
theorem readBlock_congr (h : ByteMemory.Agree p 24 m m') :
    readBlock m' p = readBlock m p := by
  simp only [readBlock, h.word (Nat.le_refl p) (by omega),
    h.word (q := p + 4) (by omega) (by omega), h.word (q := p + 8) (by omega) (by omega),
    h.word (q := p + 12) (by omega) (by omega), h.word (q := p + 16) (by omega) (by omega),
    h.word (q := p + 20) (by omega) (by omega)]

/-- Blocks are read alike from memories that agree on them. -/
theorem readBlocks_congr {n : Nat} (h : ByteMemory.Agree p (24 * n) m m') :
    readBlocks m' p n = readBlocks m p n := by
  induction n generalizing p with
  | zero => rfl
  | succ n ih =>
      rw [readBlocks, readBlocks, ih (h.mono (by omega) (by omega)),
        readBlock_congr (h.mono (by omega) (by omega))]

/-- Blocks are read as they are on the wire. -/
theorem readBlocks_writeBlocks :
    readBlocks (writeBlocks m p bs) p bs.length = bs.map onWire := by
  induction bs generalizing m p with
  | nil => rfl
  | cons b bs ih =>
      have hhead : readBlock (writeBlocks (b.writeBlock m p 6).1 (p + 24) bs) p =
          readBlock (b.writeBlock m p 6).1 p :=
        readBlock_congr (frame_writeBlocks.agree (.inl (Nat.le_refl _)))
      rw [List.length_cons, writeBlocks, readBlocks, ih, hhead, readBlock_writeBlock, List.map_cons]

end RTPReceptionBlock

/-! ## Sender reports -/

/-- `RTPSenderReport` (`rtpsenderreport.h:42`). -/
structure RTPSenderReport where
  version : BitVec 32 := 2
  paddingBit : Bool := false
  ssrc : BitVec 32 := 0
  ntpTimestamp : BitVec 64 := 0
  rtpTimestamp : BitVec 32 := 0
  senderPacketCount : BitVec 32 := 0
  senderOctetCount : BitVec 32 := 0
  receptionBlocks : List RTPReceptionBlock := []

namespace RTPSenderReport

variable {r : RTPSenderReport}

/-- The constructor (`rtpsenderreport.cpp:32`). -/
def new (ssrc version : BitVec 32) : RTPSenderReport := { ssrc := ssrc, version := version }

/-- `addReceptionBlock` (`rtpsenderreport.cpp:138`). -/
def addReceptionBlock (r : RTPSenderReport) (block : RTPReceptionBlock) : RTPSenderReport :=
  if r.receptionBlocks.length = 31 then r
  else { r with receptionBlocks := r.receptionBlocks ++ [block] }

/-- `clear` (`rtpsenderreport.cpp:214`). -/
def clear : RTPSenderReport := {}

/-- `readBlock` (`rtpsenderreport.cpp:148`). -/
def readBlock (m : ByteMemory) (data : Nat) : RTPSenderReport × Nat :=
  let fields := m.word data
  if controlType fields ≠ 200 then (clear, 0)
  else
    let blocks := controlCount fields
    ({ version := controlVersion fields
       paddingBit := controlPadding fields
       ssrc := m.word (data + 4)
       ntpTimestamp := ((m.word (data + 8)).setWidth 64 <<< 32) ||| (m.word (data + 12)).setWidth 64
       rtpTimestamp := m.word (data + 16)
       senderPacketCount := m.word (data + 20)
       senderOctetCount := m.word (data + 24)
       receptionBlocks := RTPReceptionBlock.readBlocks m (data + 28) blocks },
      7 + 6 * blocks)

/-- The seven words before the blocks. -/
def toWords (r : RTPSenderReport) (blocks : Nat) : List (BitVec 32) :=
  [controlWord r.version r.paddingBit 28 r.receptionBlocks.length 200 (7 + 6 * blocks), r.ssrc,
    (r.ntpTimestamp >>> 32).setWidth 32, r.ntpTimestamp.setWidth 32, r.rtpTimestamp,
    r.senderPacketCount, r.senderOctetCount]

/-- `writeBlock` (`rtpsenderreport.cpp:171`). -/
def writeBlock (r : RTPSenderReport) (m : ByteMemory) (data len : Nat) : ByteMemory × Nat :=
  let blocks := if r.receptionBlocks.length = 0 then 1 else r.receptionBlocks.length
  if len < 7 + 6 * blocks then (m, 0)
  else
    let m := m.setWords data (r.toWords blocks)
    if r.receptionBlocks.length = 0 then
      -- Null Reception block
      (m.setWords (data + 28) (List.replicate 6 0), 7 + 6)
    else (RTPReceptionBlock.writeBlocks m (data + 28) r.receptionBlocks, 7 + 6 * blocks)

/-- The length in words of a report, with the null block that one without blocks is given. -/
def size (r : RTPSenderReport) : Nat := 7 + 6 * max 1 r.receptionBlocks.length

/-- What is left of a report once it has been written. -/
def onWire (r : RTPSenderReport) : RTPSenderReport :=
  { r with receptionBlocks := r.receptionBlocks.map RTPReceptionBlock.onWire }

/-- A report without blocks has room for one. -/
theorem size_eq (r : RTPSenderReport) : r.size = 7 + 6 *
    if r.receptionBlocks.length = 0 then 1 else r.receptionBlocks.length := by
  rw [size]
  split <;> omega

/-- The size that is returned is that of the report. -/
theorem writeBlock_snd (hlen : r.size ≤ l) : (r.writeBlock m p l).2 = r.size := by
  rw [size_eq] at hlen
  rw [writeBlock, if_neg (Nat.not_lt.2 hlen), size_eq]
  split <;> rfl

/-- A report leaves the memory outside its words alone. -/
theorem frame_writeBlock (hlen : r.size ≤ l) :
    ByteMemory.Frame p (4 * r.size) m (r.writeBlock m p l).1 := by
  rw [size_eq] at hlen
  have hfixed {n : Nat} : ByteMemory.Frame p (4 * 7) m (m.setWords p (r.toWords n)) :=
    @ByteMemory.frame_setWords m p (r.toWords n)
  rw [writeBlock, if_neg (Nat.not_lt.2 hlen), size_eq]
  split
  · exact (hfixed.mono (Nat.le_refl p) (by omega)).trans
      (ByteMemory.frame_setWords.mono (by omega) (by rw [List.length_replicate]))
  · exact (hfixed.mono (Nat.le_refl p) (by omega)).trans
      (RTPReceptionBlock.frame_writeBlocks.mono (by omega) (by omega))

/-- The words before the blocks stay when the blocks are written. -/
theorem words_writeBlock (hlen : r.size ≤ l) : (r.writeBlock m p l).1.words p 7 =
    r.toWords (max 1 r.receptionBlocks.length) := by
  have hfixed {n : Nat} : (m.setWords p (r.toWords n)).words p 7 = r.toWords n :=
    @ByteMemory.words_setWords m p (r.toWords n)
  rw [size_eq] at hlen
  rw [writeBlock, if_neg (Nat.not_lt.2 hlen)]
  split
  · next hnone =>
      have hnull := @ByteMemory.frame_setWords (m.setWords p (r.toWords 1)) (p + 28)
        (List.replicate 6 0)
      rw [hnone]
      exact ((hnull.agree (.inl (Nat.le_refl _))).words (Nat.le_refl p) (Nat.le_refl _)).trans
        hfixed
  · next hsome =>
      have hblocks := @RTPReceptionBlock.frame_writeBlocks
        (m.setWords p (r.toWords r.receptionBlocks.length)) (p + 28) r.receptionBlocks
      rw [Nat.max_eq_right (by omega)]
      exact ((hblocks.agree (.inl (Nat.le_refl _))).words (Nat.le_refl p) (Nat.le_refl _)).trans
        hfixed

/-- The first word of a report. -/
theorem word_writeBlock (hlen : r.size ≤ l) : (r.writeBlock m p l).1.word p =
    controlWord r.version r.paddingBit 28 r.receptionBlocks.length 200 r.size := by
  have hwords := words_writeBlock (m := m) (p := p) hlen
  rw [ByteMemory.words, toWords, List.cons.injEq, Nat.max_comm] at hwords
  rw [hwords.1, size, Nat.max_comm]

/-- The blocks are read back. -/
theorem readBlocks_writeBlock (hlen : r.size ≤ l) :
    RTPReceptionBlock.readBlocks (r.writeBlock m p l).1 (p + 28) r.receptionBlocks.length =
      r.onWire.receptionBlocks := by
  rw [size_eq] at hlen
  rw [writeBlock, if_neg (Nat.not_lt.2 hlen)]
  split
  · next hnone => rw [hnone, onWire, List.eq_nil_of_length_eq_zero hnone]; rfl
  · exact RTPReceptionBlock.readBlocks_writeBlocks

/-- A 64-bit stamp is put together from its two words. -/
theorem stamp_words (x : BitVec 64) : (((x >>> 32).setWidth 32).setWidth 64 <<< 32) |||
    (x.setWidth 32).setWidth 64 = x := by
  refine BitVec.eq_of_getLsbD_eq fun i hi => ?_
  simp only [BitVec.getLsbD_or, BitVec.getLsbD_shiftLeft, BitVec.getLsbD_setWidth,
    BitVec.getLsbD_ushiftRight]
  by_cases hlow : i < 32
  · simp [hlow, hi]
  · have hhigh : i - 32 < 64 ∧ i - 32 < 32 := by omega
    simp [hlow, hi, hhigh, show 32 + (i - 32) = i by omega]

/-- **What a report is read back as.** The block count, not the size, says how many blocks
there are. -/
theorem readBlock_writeBlock (hversion : r.version.toNat < 4) (hpadding : r.paddingBit = false)
    (hblocks : r.receptionBlocks.length < 16) (hlen : r.size ≤ l) :
    readBlock (r.writeBlock m p l).1 p =
      (r.onWire, 7 + 6 * r.receptionBlocks.length) := by
  have hread := readBlocks_writeBlock (m := m) (p := p) hlen
  have hwords := words_writeBlock (m := m) (p := p) hlen
  have hsize : 7 + 6 * max 1 r.receptionBlocks.length - 1 < 2 ^ 16 := by omega
  generalize (r.writeBlock m p l).1 = m' at *
  simp only [ByteMemory.words, toWords, List.cons.injEq, Nat.add_assoc, Nat.reduceAdd,
    hpadding] at hwords
  obtain ⟨hfields, hssrc, hhi, hlo, hrtp, hpackets, hoctets, -⟩ := hwords
  simp only [readBlock, hfields, hssrc, hhi, hlo, hrtp, hpackets, hoctets,
    controlType_word (by omega : r.receptionBlocks.length < 32) (by decide : 200 < 256) hsize,
    controlCount_word (by omega : r.receptionBlocks.length < 32) (by decide : 200 < 256) hsize,
    controlVersion_word hversion (by omega : r.receptionBlocks.length < 32)
      (by decide : 200 < 256) hsize,
    controlPadding_word hblocks (by decide : 200 < 256) hsize, stamp_words, hread]
  simp [onWire, hpadding]

/-- What a report is read back as, whatever its padding flag: the flag is the upper bit of the
count. -/
theorem readBlock_writeBlock_shared (hversion : r.version.toNat < 4)
    (hblocks : r.receptionBlocks.length < 32) (hlen : r.size ≤ l) :
    let n := sharedCount r.paddingBit r.receptionBlocks.length
    let m' := (r.writeBlock m p l).1
    readBlock m' p = ({ r with
      paddingBit := decide (16 ≤ n)
      receptionBlocks := RTPReceptionBlock.readBlocks m' (p + 28) n }, 7 + 6 * n) := by
  have hwords := words_writeBlock (m := m) (p := p) hlen
  have hsize : 7 + 6 * max 1 r.receptionBlocks.length - 1 < 2 ^ 16 := by omega
  have hcount := sharedCount_lt r.paddingBit hblocks
  generalize (r.writeBlock m p l).1 = m' at *
  simp only [ByteMemory.words, toWords, List.cons.injEq, Nat.add_assoc, Nat.reduceAdd,
    controlWord_shared hblocks] at hwords
  obtain ⟨hfields, hssrc, hhi, hlo, hrtp, hpackets, hoctets, -⟩ := hwords
  simp only [readBlock, hfields, hssrc, hhi, hlo, hrtp, hpackets, hoctets,
    controlType_word hcount (by decide : 200 < 256) hsize,
    controlCount_word hcount (by decide : 200 < 256) hsize,
    controlVersion_word hversion hcount (by decide : 200 < 256) hsize,
    controlPadding_shared hcount (by decide : 200 < 256) hsize, stamp_words]
  simp

/-- **A sender report survives the round trip if and only if** its padding flag says whether it has
sixteen blocks or more, and each block's loss figures fit into four and eleven bits. -/
theorem readsBack_iff (r : RTPSenderReport) (m : ByteMemory) (p l : Nat)
    (hversion : r.version.toNat < 4) (hcount : r.receptionBlocks.length ≤ 31)
    (hblocks : ∀ b ∈ r.receptionBlocks, b.InRange) (hlen : r.size ≤ l) :
    (readBlock (r.writeBlock m p l).1 p).1 = r ↔
      (r.paddingBit = true ↔ 16 ≤ r.receptionBlocks.length) ∧
        ∀ b ∈ r.receptionBlocks, b.fractionPacketsLost < 16 / 256 ∧
          b.cumulativePacketsLost.toNat < 2 ^ 11 := by
  have hcount : r.receptionBlocks.length < 32 := Nat.lt_succ_of_le hcount
  have hread := readBlocks_writeBlock (m := m) (p := p) hlen
  rw [readBlock_writeBlock_shared hversion hcount hlen, ← sharedCount_eq_iff hcount]
  have honWire : r.onWire.receptionBlocks = r.receptionBlocks ↔ ∀ b ∈ r.receptionBlocks,
      b.fractionPacketsLost < 16 / 256 ∧ b.cumulativePacketsLost.toNat < 2 ^ 11 := by
    have hmap := List.map_inj_left (l := r.receptionBlocks)
      (f := RTPReceptionBlock.onWire) (g := id)
    rw [List.map_id] at hmap
    exact hmap.trans (forall₂_congr fun b hb => RTPReceptionBlock.onWire_eq_iff (hblocks b hb))
  constructor
  · intro hsame
    have hlength := congrArg (fun r => r.receptionBlocks.length) hsame
    have hpadding := congrArg (fun r => r.paddingBit) hsame
    have hall := congrArg (fun r => r.receptionBlocks) hsame
    simp only [RTPReceptionBlock.length_readBlocks] at hlength hpadding hall
    rw [hlength, hread] at hall
    exact ⟨⟨hlength, hpadding⟩, honWire.1 hall⟩
  · rintro ⟨⟨hlength, hpadding⟩, hfits⟩
    simp only [hpadding]
    rw [hlength, hread, honWire.2 hfits]

/-- A report on one source, of whose packets 15/256 have been lost, 2047 in all. -/
def demo : RTPSenderReport :=
  (new 7 2).addReceptionBlock
    { ssrc := 8, fractionPacketsLost := 15 / 256, cumulativePacketsLost := 2047 }

/-- A report that is read back. -/
theorem readsBack_demo : (readBlock (demo.writeBlock (fun _ => 0) 0 13).1 0).1 = demo :=
  (readsBack_iff demo (fun _ => 0) 0 13 (by decide) (by decide)
    (by simpa [demo, new, addReceptionBlock] using ⟨⟨15, by decide, by norm_num⟩, by decide⟩)
    (by decide)).2 ⟨by decide, by
      simpa [demo, new, addReceptionBlock] using by norm_num⟩

/-- Sixteen lost packets of 256 are none when they are read back. -/
theorem readsBack_fails : ¬ ∀ (r : RTPSenderReport) (m : ByteMemory) (p l : Nat),
    r.version.toNat < 4 → r.receptionBlocks.length ≤ 31 →
      (∀ b ∈ r.receptionBlocks, b.InRange) → r.size ≤ l →
        (readBlock (r.writeBlock m p l).1 p).1 = r := by
  intro hall
  let r : RTPSenderReport := { receptionBlocks := [{ fractionPacketsLost := 16 / 256 }] }
  have hrange : ∀ b ∈ r.receptionBlocks, b.InRange := by
    simpa [r] using ⟨⟨16, by decide, by norm_num⟩, by decide⟩
  have hback := hall r (fun _ => 0) 0 13 (by decide) (by decide) hrange (by decide)
  have hfits := ((readsBack_iff r (fun _ => 0) 0 13 (by decide) (by decide) hrange (by decide)).1
    hback).2 _ (List.mem_singleton.2 rfl)
  exact absurd hfits.1 (by norm_num)

/-- Reports are read alike from memories that agree on their words. -/
theorem readBlock_congr
    (h : ByteMemory.Agree p (4 * (7 + 6 * controlCount (m.word p))) m m') :
    readBlock m' p = readBlock m p := by
  have hfields : m'.word p = m.word p := h.word (Nat.le_refl p) (by omega)
  have hblocks : RTPReceptionBlock.readBlocks m' (p + 28) (controlCount (m.word p)) =
      RTPReceptionBlock.readBlocks m (p + 28) (controlCount (m.word p)) :=
    RTPReceptionBlock.readBlocks_congr (h.mono (by omega) (by omega))
  simp only [readBlock, hfields, hblocks, h.word (q := p + 4) (by omega) (by omega),
    h.word (q := p + 8) (by omega) (by omega), h.word (q := p + 12) (by omega) (by omega),
    h.word (q := p + 16) (by omega) (by omega), h.word (q := p + 20) (by omega) (by omega),
    h.word (q := p + 24) (by omega) (by omega)]

end RTPSenderReport

/-! ## Reception reports -/

/-- `RTPReceptionReport` (`rtpreceptionreport.h:44`). -/
structure RTPReceptionReport where
  version : BitVec 32 := 2
  paddingBit : Bool := false
  ssrc : BitVec 32 := 0
  receptionBlocks : List RTPReceptionBlock := []

namespace RTPReceptionReport

variable {r : RTPReceptionReport}

/-- The constructor (`rtpreceptionreport.cpp:32`). -/
def new (ssrc version : BitVec 32) : RTPReceptionReport := { ssrc := ssrc, version := version }

/-- `addReceptionBlock` (`rtpreceptionreport.cpp:90`). -/
def addReceptionBlock (r : RTPReceptionReport) (block : RTPReceptionBlock) : RTPReceptionReport :=
  if r.receptionBlocks.length = 31 then r
  else { r with receptionBlocks := r.receptionBlocks ++ [block] }

/-- `readBlock` (`rtpreceptionreport.cpp:100`). The type is compared under a mask of sixteen bits,
so that the version counts too, and the blocks are read into one that is thrown away. -/
def readBlock (m : ByteMemory) (data : Nat) : RTPReceptionReport × Nat :=
  let fields := m.word data
  if (0xffff#32 &&& (fields >>> 16)).toNat ≠ 201 then ({}, 0)
  else
    ({ version := controlVersion fields
       paddingBit := controlPadding fields
       ssrc := m.word (data + 4) },
      2 + 6 * controlCount fields)

/-- `writeBlock` (`rtpreceptionreport.cpp:120`). The blocks are written from the first word on,
over the header. -/
def writeBlock (r : RTPReceptionReport) (m : ByteMemory) (data len : Nat) : ByteMemory × Nat :=
  let blocks := if r.receptionBlocks.length = 0 then 1 else r.receptionBlocks.length
  if len < 2 + 6 * blocks then (m, 0)
  else
    let m := m.setWords data
      [controlWord r.version r.paddingBit 28 r.receptionBlocks.length 201 (2 + 6 * blocks), r.ssrc]
    if r.receptionBlocks.length = 0 then
      -- Null Reception block
      (m.setWords (data + 8) (List.replicate 6 0), 2 + 6)
    else (RTPReceptionBlock.writeBlocks m data r.receptionBlocks, 2 + 6 * blocks)

/-- The report on the blocks that `addReceptionBlock` is given. -/
def build (ssrc version : BitVec 32) (blocks : List RTPReceptionBlock) : RTPReceptionReport :=
  blocks.foldl addReceptionBlock (new ssrc version)

/-- The length in words of a report, with the null block that one without blocks is given. -/
def size (r : RTPReceptionReport) : Nat := 2 + 6 * max 1 r.receptionBlocks.length

/-- What `writeBlock` has written is accepted by `readBlock`, and read back as it was; the size is
the one that the packet declares if it has a block. -/
structure RoundTrips (r : RTPReceptionReport) (m : ByteMemory) (data len : Nat) : Prop where
  accepted : (readBlock (r.writeBlock m data len).1 data).2 ≠ 0
  version : (readBlock (r.writeBlock m data len).1 data).1.version = r.version
  ssrc : (readBlock (r.writeBlock m data len).1 data).1.ssrc = r.ssrc
  blocks : (readBlock (r.writeBlock m data len).1 data).1.receptionBlocks = r.receptionBlocks
  size : r.receptionBlocks ≠ [] → (readBlock (r.writeBlock m data len).1 data).2 =
    controlSize ((r.writeBlock m data len).1.word data)

/-- A report that is built of 31 blocks at most has them all. -/
theorem build_eq {ssrc version : BitVec 32} {blocks : List RTPReceptionBlock}
    (hle : blocks.length ≤ 31) : build ssrc version blocks =
      { ssrc := ssrc, version := version, receptionBlocks := blocks } := by
  have hfold (r : RTPReceptionReport) (hr : (r.receptionBlocks ++ blocks).length ≤ 31) :
      blocks.foldl addReceptionBlock r =
        { r with receptionBlocks := r.receptionBlocks ++ blocks } := by
    induction blocks generalizing r with
    | nil => rw [List.foldl_nil, List.append_nil]
    | cons b blocks ih =>
        rw [List.length_append, List.length_cons] at hr
        have hadd : r.addReceptionBlock b =
            { r with receptionBlocks := r.receptionBlocks ++ [b] } := by
          rw [addReceptionBlock, if_neg (by omega)]
        rw [List.foldl_cons, hadd, ih (by rw [List.length_cons] at hle; omega) _
          (by rw [List.length_append, List.length_append, List.length_singleton]; omega),
          List.append_assoc, List.singleton_append]
  exact hfold (new ssrc version) (by rwa [new, List.nil_append])

/-- The blocks of a report that is read are thrown away. -/
theorem receptionBlocks_readBlock : (readBlock m p).1.receptionBlocks = [] := by
  rw [readBlock]
  split <;> rfl

/-- The header of a report without blocks. -/
theorem words_writeBlock_nil (hnil : r.receptionBlocks = []) (hlen : r.size ≤ l) :
    (r.writeBlock m p l).1.word p = controlWord r.version r.paddingBit 28 0 201 8 ∧
      (r.writeBlock m p l).1.word (p + 4) = r.ssrc := by
  rw [size, hnil, List.length_nil] at hlen
  rw [writeBlock, hnil, List.length_nil, if_pos rfl, if_neg (by omega), if_pos rfl]
  have hwords := @ByteMemory.words_setWords m p
    [controlWord r.version r.paddingBit 28 0 201 8, r.ssrc]
  have hnull {m : ByteMemory} : (m.setWords (p + 8) (List.replicate 6 0)).words p 2 = m.words p 2 :=
    (ByteMemory.frame_setWords.agree (.inl (Nat.le_refl _))).words (Nat.le_refl p) (by omega)
  have hkept := hnull.trans hwords
  simp only [ByteMemory.words, List.cons.injEq] at hkept
  exact ⟨hkept.1, hkept.2.1⟩

/-- Under the mask of sixteen bits, the type is only found if the version is null. -/
theorem type_controlWord {version : BitVec 32} (hversion : version.toNat < 4) :
    (0xffff#32 &&& (controlWord version false 28 0 201 8 >>> 16)).toNat = 201 ↔ version = 0 := by
  rw [show 0xffff#32 = mask 16 from rfl, toNat_get (by decide),
    toNat_controlWord (by decide) (by decide) (by decide), ← BitVec.toNat_inj]
  show _ ↔ version.toNat = 0
  omega

/-- **A reception report survives the round trip if and only if** its version is 0 and it has no
block. -/
theorem reportSurvives_iff (ssrc version : BitVec 32) (blocks : List RTPReceptionBlock)
    (m : ByteMemory) (p l : Nat) (hversion : version.toNat < 4) (hle : blocks.length ≤ 31)
    (hlen : (build ssrc version blocks).size ≤ l) :
    (build ssrc version blocks).RoundTrips m p l ↔ version = 0 ∧ blocks = [] := by
  rw [build_eq hle] at hlen ⊢
  constructor
  · intro htrip
    have hnil : blocks = [] := htrip.blocks.symm.trans receptionBlocks_readBlock
    obtain ⟨hword, -⟩ := words_writeBlock_nil (m := m) (p := p) hnil hlen
    have haccepted := htrip.accepted
    rw [readBlock, hword] at haccepted
    refine ⟨?_, hnil⟩
    by_contra hne
    exact haccepted (congrArg Prod.snd (if_pos (mt (type_controlWord hversion).1 hne)))
  · rintro ⟨rfl, rfl⟩
    have hwords := words_writeBlock_nil (m := m) (p := p) (r := { ssrc := ssrc, version := 0 })
      rfl hlen
    have hword : (writeBlock { ssrc := ssrc, version := 0 } m p l).1.word p =
        controlWord 0 false 28 0 201 8 := hwords.1
    have hread : readBlock (writeBlock { ssrc := ssrc, version := 0 } m p l).1 p =
        ({ ssrc := ssrc, version := 0 }, 2) := by
      rw [readBlock, hword, hwords.2, if_neg (not_not.2 ((type_controlWord hversion).2 rfl)),
        controlVersion_word hversion (by decide) (by decide) (by decide),
        controlCount_word (by decide) (by decide) (by decide),
        controlPadding_word (by decide) (by decide) (by decide)]
    refine ⟨?_, ?_, ?_, ?_, fun hne => absurd rfl hne⟩
    · rw [hread]
      exact Nat.succ_ne_zero 1
    all_goals rw [hread]

/-- A report of version 0 without blocks, in eight words. -/
theorem reportSurvives_empty : (build 7 0 []).RoundTrips (fun _ => 0) 0 8 :=
  (reportSurvives_iff 7 0 [] (fun _ => 0) 0 8 (by decide) (by decide) (by decide)).2 ⟨rfl, rfl⟩

/-- A block whose loss figures keep to the four and eleven bits that are written does not survive
its report. -/
theorem reportSurvives_fails : ¬ ∀ (ssrc version : BitVec 32) (blocks : List RTPReceptionBlock)
    (m : ByteMemory) (p l : Nat), version.toNat < 4 → blocks.length ≤ 31 →
      (∀ b ∈ blocks, (∃ k < 16, b.fractionPacketsLost = (k : Nat) / 256) ∧
        b.cumulativePacketsLost.toNat < 2 ^ 11) →
      (build ssrc version blocks).size ≤ l → (build ssrc version blocks).RoundTrips m p l := by
  intro hall
  have htrip := hall 7 2 [{ ssrc := 8 }] (fun _ => 0) 0 8 (by decide) (by decide)
    (fun b hb => by
      rw [List.mem_singleton.1 hb]
      exact ⟨⟨0, by decide, by norm_num⟩, by decide⟩) (by decide)
  have hblocks := receptionBlocks_readBlock.symm.trans htrip.blocks
  rw [build_eq (by decide)] at hblocks
  cases hblocks

end RTPReceptionReport

/-! ## The BYE packet -/

/-- `RTPBye` (`rtpbye.h:45`). -/
structure RTPBye where
  version : BitVec 32 := 2
  paddingBit : Bool := false
  ssrcs : List (BitVec 32) := []

namespace RTPBye

variable {b : RTPBye}

/-- `addSsrc` (`rtpbye.cpp:65`). -/
def addSsrc (b : RTPBye) (ssrc : BitVec 32) : RTPBye × Bool :=
  if b.ssrcs.length = 31 then (b, false) else ({ b with ssrcs := b.ssrcs ++ [ssrc] }, true)

/-- `readBlock` (`rtpbye.cpp:75`). -/
def readBlock (m : ByteMemory) (data : Nat) : RTPBye × Nat :=
  let fields := m.word data
  if controlType fields ≠ 203 then ({}, 0)
  else
    ({ version := controlVersion fields
       paddingBit := controlPadding fields
       ssrcs := m.words (data + 4) (controlCount fields) },
      1 + controlCount fields)

/-- `writeBlock` (`rtpbye.cpp:92`). -/
def writeBlock (b : RTPBye) (m : ByteMemory) (data len : Nat) : ByteMemory × Nat :=
  if len < 1 + b.ssrcs.length then (m, 0)
  else
    (m.setWords data (controlWord b.version b.paddingBit 28 b.ssrcs.length 203
        (1 + b.ssrcs.length) :: b.ssrcs), 1 + b.ssrcs.length)

/-- The size that is returned is that of the packet. -/
theorem writeBlock_snd (hlen : 1 + b.ssrcs.length ≤ l) :
    (b.writeBlock m p l).2 = 1 + b.ssrcs.length := by
  rw [writeBlock, if_neg (Nat.not_lt.2 hlen)]

/-- The packet is written to its own bytes. -/
theorem frame_writeBlock : ByteMemory.Frame p (4 * (1 + b.ssrcs.length)) m
    (b.writeBlock m p l).1 := by
  rw [writeBlock]
  split
  · exact .refl
  · exact ByteMemory.frame_setWords.mono (Nat.le_refl p) (by rw [List.length_cons]; omega)

/-- The words of a BYE packet. -/
theorem words_writeBlock (hlen : 1 + b.ssrcs.length ≤ l) :
    let m' := (b.writeBlock m p l).1
    m'.word p = controlWord b.version b.paddingBit 28 b.ssrcs.length 203 (1 + b.ssrcs.length) ∧
      m'.words (p + 4) b.ssrcs.length = b.ssrcs := by
  have hwords := @ByteMemory.words_setWords m p
    (controlWord b.version b.paddingBit 28 b.ssrcs.length 203 (1 + b.ssrcs.length) :: b.ssrcs)
  rw [List.length_cons, ByteMemory.words, List.cons.injEq] at hwords
  rw [writeBlock, if_neg (Nat.not_lt.2 hlen)]
  exact hwords

/-- A packet with fewer than 16 sources is read back. -/
theorem readBlock_writeBlock (hversion : b.version.toNat < 4) (hpadding : b.paddingBit = false)
    (hssrcs : b.ssrcs.length < 16) (hlen : 1 + b.ssrcs.length ≤ l) :
    readBlock (b.writeBlock m p l).1 p = (b, 1 + b.ssrcs.length) := by
  have hsize : 1 + b.ssrcs.length - 1 < 2 ^ 16 := by omega
  have hcount : b.ssrcs.length < 32 := by omega
  obtain ⟨hfields, hwords⟩ := words_writeBlock (m := m) (p := p) hlen
  rw [hpadding] at hfields
  simp only [readBlock, hfields, controlType_word hcount (by decide : 203 < 256) hsize,
    controlCount_word hcount (by decide : 203 < 256) hsize, hwords,
    controlVersion_word hversion hcount (by decide : 203 < 256) hsize,
    controlPadding_word hssrcs (by decide : 203 < 256) hsize]
  rw [if_neg (by decide), ← hpadding]

/-- BYE packets are read alike from memories that agree on their words. -/
theorem readBlock_congr
    (h : ByteMemory.Agree p (4 * (1 + controlCount (m.word p))) m m') :
    readBlock m' p = readBlock m p := by
  have hfields : m'.word p = m.word p := h.word (Nat.le_refl p) (by omega)
  have hwords : m'.words (p + 4) (controlCount (m.word p)) =
      m.words (p + 4) (controlCount (m.word p)) := h.words (by omega) (by omega)
  simp only [readBlock, hfields, hwords]

end RTPBye

end NetISDN

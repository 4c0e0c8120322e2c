import NetISDN.General.Reading
import NetISDN.Rtp.ControlHeader

/-!
# What the RTCP readers examine

Once more the `readBlock` functions of RTCP, with the addresses that they examine. The first word of
the next packet is fetched before the walk looks whether there is one, and the readers of a packet
go by its counts and lengths, whatever its size. So a datagram is not left exactly if the walk ends
inside it, at a word of another version, and the packets that are read end inside it too
(`RTPControlHeader.within_iff`).
-/

namespace NetISDN

variable {m : ByteMemory} {n p l i : Nat}

/-! ## Reception blocks -/

namespace RTPReceptionBlock

/-- `readBlock` (`rtpreceptionblock.cpp:122`). -/
def examine (m : ByteMemory) (data : Nat) : Reading RTPReceptionBlock := do
  let ssrc ← m.readWord data
  let fraction ← m.readWord (data + 4)
  let lost ← m.readWord (data + 4)
  let highest ← m.readWord (data + 8)
  let jitter ← m.readWord (data + 12)
  let last ← m.readWord (data + 16)
  let delay ← m.readWord (data + 20)
  return { ssrc := ssrc
           fractionPacketsLost := ((0xff#32 &&& (fraction >>> 24)).toNat : ℚ) / 256
           cumulativePacketsLost := 0x7ff#32 &&& lost
           highestSequenceNumber := highest
           interarrivalJitter := jitter
           lastSendReportTimestamp := last
           sendReportDelay := delay }

/-- The loop of the reports' `readBlock`. -/
def examineAll (m : ByteMemory) (data : Nat) : Nat → Reading (List RTPReceptionBlock)
  | 0 => pure []
  | n + 1 => do
      let block ← examine m data
      let blocks ← examineAll m (data + 24) n
      return block :: blocks

/-- The instrumented reader reads what the reader reads. -/
@[simp] theorem result_examine : (examine m p).result = readBlock m p := rfl

/-- The reader stays within the memory exactly when the block lies in it. -/
@[simp] theorem within_examine : (examine m p).Within n ↔ p + 24 ≤ n := by
  simp only [examine, Reading.within_bind, ByteMemory.within_readWord, Reading.within_pure,
    and_true]
  omega

@[simp] theorem result_examineAll : (examineAll m p l).result = readBlocks m p l := by
  induction l generalizing p with
  | zero => rfl
  | succ l ih => simp [examineAll, readBlocks, ih]

@[simp] theorem within_examineAll : (examineAll m p l).Within n ↔ l = 0 ∨ p + 24 * l ≤ n := by
  induction l generalizing p with
  | zero => simp [examineAll]
  | succ l ih =>
      simp only [examineAll, Reading.within_bind, within_examine, ih, Reading.within_pure, and_true]
      omega

end RTPReceptionBlock

/-! ## The packets -/

namespace RTPSenderReport

/-- `readBlock` (`rtpsenderreport.cpp:148`). -/
def examine (m : ByteMemory) (data : Nat) : Reading (RTPSenderReport × Nat) := do
  let fields ← m.readWord data
  if controlType fields ≠ 200 then return (clear, 0)
  let ssrc ← m.readWord (data + 4)
  let ntpHigh ← m.readWord (data + 8)
  let ntpLow ← m.readWord (data + 12)
  let rtp ← m.readWord (data + 16)
  let packets ← m.readWord (data + 20)
  let octets ← m.readWord (data + 24)
  let blocks ← RTPReceptionBlock.examineAll m (data + 28) (controlCount fields)
  return (
    { version := controlVersion fields
      paddingBit := controlPadding fields
      ssrc := ssrc
      ntpTimestamp := (ntpHigh.setWidth 64 <<< 32) ||| ntpLow.setWidth 64
      rtpTimestamp := rtp
      senderPacketCount := packets
      senderOctetCount := octets
      receptionBlocks := blocks },
    7 + 6 * controlCount fields)

/-- The instrumented reader reads what the reader reads. -/
theorem result_examine : (examine m p).result = readBlock m p := by
  rcases eq_or_ne (controlType (m.word p)) 200 with htype | htype
  · simp [examine, readBlock, htype]
  · simp [examine, readBlock, htype]

/-- The reader stays within the memory exactly when the blocks it counts lie in it. -/
theorem within_examine (htype : controlType (m.word p) = 200) :
    (examine m p).Within n ↔ p + 28 + 24 * controlCount (m.word p) ≤ n := by
  simp only [examine, Reading.within_bind, ByteMemory.within_readWord, ByteMemory.result_readWord,
    htype, ne_eq, not_true, if_false, RTPReceptionBlock.within_examineAll, Reading.within_pure,
    and_true]
  omega

end RTPSenderReport

namespace RTPReceptionReport

/-- `readBlock` (`rtpreceptionreport.cpp:100`). -/
def examine (m : ByteMemory) (data : Nat) : Reading (RTPReceptionReport × Nat) := do
  let fields ← m.readWord data
  if (0xffff#32 &&& (fields >>> 16)).toNat ≠ 201 then return ({}, 0)
  let ssrc ← m.readWord (data + 4)
  let _ ← RTPReceptionBlock.examineAll m (data + 8) (controlCount fields)
  return (
    { version := controlVersion fields
      paddingBit := controlPadding fields
      ssrc := ssrc },
    2 + 6 * controlCount fields)

/-- The instrumented reader reads what the reader reads. -/
theorem result_examine : (examine m p).result = readBlock m p := by
  rw [examine, Reading.result_bind, ByteMemory.result_readWord, readBlock]
  rcases eq_or_ne ((0xffff#32 &&& (m.word p >>> 16)).toNat) 201 with htype | htype
  · rw [if_neg (not_not.2 htype), if_neg (not_not.2 htype)]
    rfl
  · rw [if_pos htype, if_pos htype]
    rfl

end RTPReceptionReport

namespace Chunk

/-- One turn of the loop of `readBlock` (`rtpsourcedescription.cpp:170`). -/
def examine (m : ByteMemory) (byte : Nat) : Reading Chunk := do
  let _ ← m.readByte byte
  let len ← m.readByte (byte + 1)
  let _ ← m.readBytes (byte + 2) len.toNat
  return read m byte

/-- The loop. -/
def examineAll (m : ByteMemory) (byte : Nat) : Nat → Reading (List Chunk)
  | 0 => pure []
  | n + 1 => do
      let chunk ← examine m byte
      let chunks ← examineAll m (byte + (2 + chunk.data.length)) n
      return chunk :: chunks

/-- The reader stays within the memory exactly when the chunk lies in it. -/
@[simp] theorem within_examine : (examine m p).Within n ↔ p + 2 + (read m p).data.length ≤ n := by
  have hlen : (read m p).data.length = (m.byte (p + 1)).toNat := ByteMemory.length_bytes
  simp only [examine, Reading.within_bind, ByteMemory.within_readByte, ByteMemory.result_readByte,
    ByteMemory.within_readBytes, Reading.within_pure, and_true, hlen]
  omega

@[simp] theorem result_examineAll : (examineAll m p l).result = readAll m p l := by
  induction l generalizing p with
  | zero => rfl
  | succ l ih =>
      have hexamine : (examine m p).result = read m p := rfl
      simp [examineAll, readAll, ih, hexamine]

@[simp] theorem within_examineAll :
    (examineAll m p l).Within n ↔ l = 0 ∨ p + span (readAll m p l) ≤ n := by
  induction l generalizing p with
  | zero => simp [examineAll]
  | succ l ih =>
      have hexamine : (examine m p).result = read m p := rfl
      have hzero : l = 0 → span (readAll m (p + (2 + (read m p).data.length)) l) = 0 := by
        rintro rfl
        rfl
      simp only [examineAll, Reading.within_bind, within_examine, hexamine, ih,
        Reading.within_pure, and_true, readAll, span]
      omega

end Chunk

namespace RTPSourceDescription

/-- `readBlock` (`rtpsourcedescription.cpp:154`). -/
def examine (m : ByteMemory) (data : Nat) : Reading (RTPSourceDescription × Nat) := do
  let fields ← m.readWord data
  if controlType fields ≠ 202 then return ({}, 0)
  let ssrc ← m.readWord (data + 8)
  let chunks ← Chunk.examineAll m (data + 8) (controlCount fields)
  let d : RTPSourceDescription :=
    { version := controlVersion fields
      paddingBit := controlPadding fields
      chunkSsrcs := ssrc :: List.replicate (controlCount fields) ssrc
      chunks := chunks }
  return (d, d.getTotalSize)

/-- The instrumented reader reads what the reader reads. -/
theorem result_examine : (examine m p).result = readBlock m p := by
  rcases eq_or_ne (controlType (m.word p)) 202 with htype | htype
  · simp [examine, readBlock, htype]
  · simp [examine, readBlock, htype]

/-- The reader stays within the memory exactly when the chunks it counts lie in it. -/
theorem within_examine (htype : controlType (m.word p) = 202) : (examine m p).Within n ↔
    p + 12 ≤ n ∧ p + 8 + Chunk.span (Chunk.readAll m (p + 8) (controlCount (m.word p))) ≤ n := by
  have hzero : controlCount (m.word p) = 0 →
      Chunk.span (Chunk.readAll m (p + 8) (controlCount (m.word p))) = 0 := by
    intro hcount
    rw [hcount]
    rfl
  simp only [examine, Reading.within_bind, ByteMemory.within_readWord, ByteMemory.result_readWord,
    htype, ne_eq, not_true, if_false, Chunk.within_examineAll, Reading.within_pure, and_true]
  omega

end RTPSourceDescription

namespace RTPBye

/-- `readBlock` (`rtpbye.cpp:75`). -/
def examine (m : ByteMemory) (data : Nat) : Reading (RTPBye × Nat) := do
  let fields ← m.readWord data
  if controlType fields ≠ 203 then return ({}, 0)
  let ssrcs ← m.readWords (data + 4) (controlCount fields)
  return (
    { version := controlVersion fields
      paddingBit := controlPadding fields
      ssrcs := ssrcs },
    1 + controlCount fields)

/-- The instrumented reader reads what the reader reads. -/
theorem result_examine : (examine m p).result = readBlock m p := by
  rcases eq_or_ne (controlType (m.word p)) 203 with htype | htype
  · simp [examine, readBlock, htype]
  · simp [examine, readBlock, htype]

/-- The reader stays within the memory exactly when the sources it counts lie in it. -/
theorem within_examine (htype : controlType (m.word p) = 203) :
    (examine m p).Within n ↔ p + 4 + 4 * controlCount (m.word p) ≤ n := by
  simp only [examine, Reading.within_bind, ByteMemory.within_readWord, ByteMemory.result_readWord,
    htype, ne_eq, not_true, if_false, ByteMemory.within_readWords, Reading.within_pure, and_true]
  omega

end RTPBye

/-! ## The walk -/

namespace RTPControlHeader

variable {h : RTPControlHeader} {seen : List Nat}

/-- One turn of the switch of `readBlock` (`rtpcontrolheader.cpp:99`). -/
def examinePacket (h : RTPControlHeader) (m : ByteMemory) (data type : Nat) :
    Reading RTPControlHeader :=
  match type with
  | 200 =>
      if h.senderReport.isNone then do
        let read ← RTPSenderReport.examine m data
        return { h with senderReport := unlessZero read }
      else return h
  | 201 =>
      if h.receptionReport.isNone then do
        let read ← RTPReceptionReport.examine m data
        return { h with receptionReport := unlessZero read }
      else return h
  | 202 =>
      if h.sourceDescription.isNone then do
        let read ← RTPSourceDescription.examine m data
        return { h with sourceDescription := unlessZero read }
      else return h
  | 203 =>
      if h.bye.isNone then do
        let read ← RTPBye.examine m data
        return { h with bye := unlessZero read }
      else return h
  | _ => return h

/-- The loop of `readBlock` (`rtpcontrolheader.cpp:97`), with the fetch of the word before it: at
the start and at the end of each turn. -/
def examineLoop (h : RTPControlHeader) (m : ByteMemory) (data len ptr : Nat) :
    Reading RTPControlHeader := do
  let _ ← m.readWord (data + 4 * ptr)
  let fields := m.word (data + 4 * ptr)
  if ptr < len / 4 ∧ 0 < controlSize fields ∧ controlVersion fields = h.version then do
    let h ← h.examinePacket m (data + 4 * ptr) (controlType fields)
    examineLoop h m data len (ptr + controlSize fields)
  else return h
termination_by len / 4 - ptr
decreasing_by
  have hpos := controlSize_pos (m.word (data + 4 * ptr))
  omega

/-- `readBlock` (`rtpcontrolheader.cpp:87`). -/
def examine (h : RTPControlHeader) (m : ByteMemory) (data len : Nat) : Reading RTPControlHeader :=
  h.examineLoop m data len 0

/-- Each packet is read as the reader reads it. -/
theorem result_examinePacket {type : Nat} :
    (h.examinePacket m p type).result = h.readPacket m p type := by
  unfold examinePacket
  split
  · rw [readPacket]
    split
    · simp [RTPSenderReport.result_examine]
    · rfl
  · rw [readPacket]
    split
    · simp [RTPReceptionReport.result_examine]
    · rfl
  · rw [readPacket]
    split
    · simp [RTPSourceDescription.result_examine]
    · rfl
  · rw [readPacket]
    split
    · simp [RTPBye.result_examine]
    · rfl
  · next h₀ h₁ h₂ h₃ => rw [readPacket.eq_5 h m p type h₀ h₁ h₂ h₃, Reading.result_pure]

/-- What is examined is examined for what `readBlock` returns. -/
theorem result_examineLoop : (h.examineLoop m p l i).result = h.readLoop m p l i := by
  fun_induction readLoop h m p l i with
  | case1 h i fields hcond ih =>
      rw [examineLoop, Reading.result_bind, if_pos hcond, Reading.result_bind,
        result_examinePacket, ih]
  | case2 h i fields hcond =>
      rw [examineLoop, Reading.result_bind, if_neg hcond, Reading.result_pure]

/-- The instrumented reader reads what the reader reads. -/
theorem result_examine : (h.examine m p l).result = h.readBlock m p l := result_examineLoop

/-! ## The bounds -/

/-- The word at which the walk ends. -/
def walkEnd (version : BitVec 32) (m : ByteMemory) (len ptr : Nat) : Nat :=
  let fields := m.word (4 * ptr)
  if ptr < len / 4 ∧ 0 < controlSize fields ∧ controlVersion fields = version then
    walkEnd version m len (ptr + controlSize fields)
  else ptr
termination_by len / 4 - ptr
decreasing_by
  have hpos := controlSize_pos (m.word (4 * ptr))
  omega

/-- Where the packet at a word ends by its own counts and lengths: a sender report, a source
description, a BYE. -/
def extent (m : ByteMemory) (packet : Nat × Nat) : Nat :=
  let p := 4 * packet.1
  let count := controlCount (m.word p)
  match packet.2 with
  | 200 => p + 28 + 24 * count
  | 202 => max (p + 12) (p + 8 + Chunk.span (Chunk.readAll m (p + 8) count))
  | 203 => p + 4 + 4 * count
  | _ => p + 4

/-- The first packet of each type, apart from those in `seen`. -/
def firstOfEach (seen : List Nat) : List (Nat × Nat) → List (Nat × Nat)
  | [] => []
  | packet :: packets =>
      if packet.2 ∈ seen then firstOfEach seen packets
      else packet :: firstOfEach (packet.2 :: seen) packets

/-- The types that the walk has come to are there already; a reception report never is. -/
structure Remembers (h : RTPControlHeader) (seen : List Nat) : Prop where
  version : h.version = 2
  senderReport : h.senderReport.isNone ↔ 200 ∉ seen
  receptionReport : h.receptionReport = none
  sourceDescription : h.sourceDescription.isNone ↔ 202 ∉ seen
  bye : h.bye.isNone ↔ 203 ∉ seen

/-- A reception report of version 2 is refused at once: its version is compared with its type. -/
theorem refused (hversion : controlVersion (m.word p) = 2) :
    RTPReceptionReport.readBlock m p = ({}, 0) ∧
      ((RTPReceptionReport.examine m p).Within n ↔ p + 4 ≤ n) := by
  have htype : (0xffff#32 &&& (m.word p >>> 16)).toNat ≠ 201 := by
    have hversion := congrArg BitVec.toNat hversion
    rw [controlVersion, show 0x03#32 = BitFields.mask 2 from rfl,
      BitFields.toNat_get (by decide)] at hversion
    rw [show 0xffff#32 = BitFields.mask 16 from rfl, BitFields.toNat_get (by decide)]
    have htwo : (2 : BitVec 32).toNat = 2 := rfl
    omega
  constructor
  · rw [RTPReceptionReport.readBlock, if_pos htype]
  · rw [RTPReceptionReport.examine, Reading.within_bind, ByteMemory.result_readWord, if_pos htype,
      ByteMemory.within_readWord]
    exact and_iff_left (Reading.within_pure n _)

/-- What is examined for a packet of version 2: all of it, if it is the first of its type. -/
theorem Remembers.within_examinePacket (hr : Remembers h seen)
    (hversion : controlVersion (m.word (4 * i)) = 2) (hword : 4 * i + 4 ≤ n) :
    (h.examinePacket m (4 * i) (controlType (m.word (4 * i)))).Within n ↔
      (controlType (m.word (4 * i)) ∉ seen →
        extent m (i, controlType (m.word (4 * i))) ≤ n) := by
  rw [extent]
  unfold examinePacket
  generalize htype : controlType (m.word (4 * i)) = type
  split
  · split
    · next hnone =>
        simp [RTPSenderReport.within_examine htype, hr.senderReport.1 hnone]
    · next hsome => simp [not_not.1 (mt hr.senderReport.2 hsome)]
  · rw [hr.receptionReport, Option.isNone_none, if_pos rfl, Reading.within_bind,
      (refused hversion).2]
    simp [hword]
  · split
    · next hnone =>
        simp [RTPSourceDescription.within_examine htype, hr.sourceDescription.1 hnone]
    · next hsome => simp [not_not.1 (mt hr.sourceDescription.2 hsome)]
  · split
    · next hnone => simp [RTPBye.within_examine htype, hr.bye.1 hnone]
    · next hsome => simp [not_not.1 (mt hr.bye.2 hsome)]
  · next h₀ h₁ h₂ h₃ =>
      refine ⟨fun _ _ => ?_, fun _ => Reading.within_pure n h⟩
      dsimp only
      split
      · exact absurd rfl h₀
      · exact absurd rfl h₂
      · exact absurd rfl h₃
      · exact hword

/-- Behind a packet that is read its type has been seen. -/
theorem Remembers.readPacket (hr : Remembers h seen) {type : Nat}
    (htype : controlType (m.word p) = type) (hversion : controlVersion (m.word p) = 2)
    (hnew : type ∉ seen) : Remembers (h.readPacket m p type) (type :: seen) := by
  unfold RTPControlHeader.readPacket
  split
  · have hread : unlessZero (RTPSenderReport.readBlock m p) =
        some (RTPSenderReport.readBlock m p).1 := by
      rw [unlessZero, if_neg]
      rw [RTPSenderReport.readBlock, if_neg (not_not.2 htype)]
      exact Nat.ne_of_gt (Nat.add_pos_left (by decide) _)
    rw [if_pos (hr.senderReport.2 hnew), hread]
    exact ⟨hr.version, by simp, hr.receptionReport, by simp [hr.sourceDescription],
      by simp [hr.bye]⟩
  · rw [(refused (n := 0) hversion).1, hr.receptionReport, Option.isNone_none, if_pos rfl]
    exact ⟨hr.version, by simp [hr.senderReport], rfl, by simp [hr.sourceDescription],
      by simp [hr.bye]⟩
  · have hread : unlessZero (RTPSourceDescription.readBlock m p) =
        some (RTPSourceDescription.readBlock m p).1 := by
      rw [unlessZero, if_neg]
      rw [RTPSourceDescription.readBlock, if_neg (not_not.2 htype)]
      exact Nat.succ_ne_zero _
    rw [if_pos (hr.sourceDescription.2 hnew), hread]
    exact ⟨hr.version, by simp [hr.senderReport], hr.receptionReport, by simp, by simp [hr.bye]⟩
  · have hread : unlessZero (RTPBye.readBlock m p) = some (RTPBye.readBlock m p).1 := by
      rw [unlessZero, if_neg]
      rw [RTPBye.readBlock, if_neg (not_not.2 htype)]
      exact Nat.ne_of_gt (Nat.add_pos_left (by decide) _)
    rw [if_pos (hr.bye.2 hnew), hread]
    exact ⟨hr.version, by simp [hr.senderReport], hr.receptionReport,
      by simp [hr.sourceDescription], by simp⟩
  · next h₀ h₁ h₂ h₃ =>
      exact ⟨hr.version, by simp [hr.senderReport, Ne.symm h₀], hr.receptionReport,
        by simp [hr.sourceDescription, Ne.symm h₂], by simp [hr.bye, Ne.symm h₃]⟩

/-- A new list has nothing to remember. -/
theorem remembers_new : Remembers {} [] := ⟨rfl, by simp, rfl, by simp, by simp⟩

/-- Behind a packet of a type that has been seen nothing has changed. -/
theorem Remembers.readPacket_seen (hr : Remembers h seen) {type : Nat}
    (hversion : controlVersion (m.word p) = 2) (hold : type ∈ seen) :
    h.readPacket m p type = h := by
  unfold RTPControlHeader.readPacket
  split
  · rw [if_neg (mt hr.senderReport.1 (not_not.2 hold))]
  · rw [(refused (n := 0) hversion).1, hr.receptionReport, Option.isNone_none, if_pos rfl]
    cases h
    cases hr.receptionReport
    rfl
  · rw [if_neg (mt hr.sourceDescription.1 (not_not.2 hold))]
  · rw [if_neg (mt hr.bye.1 (not_not.2 hold))]
  · rfl

/-- What the walk examines from a word on. -/
theorem within_examineLoop (hr : Remembers h seen) : (h.examineLoop m 0 n i).Within n ↔
    4 * walkEnd 2 m n i + 4 ≤ n ∧
      ∀ packet ∈ firstOfEach seen (packets 2 m 0 n i), extent m packet ≤ n := by
  fun_induction walkEnd 2 m n i generalizing h seen with
  | case1 i fields hcond =>
      rename_i ih
      subst fields
      have hcond' : i < n / 4 ∧ 0 < controlSize (m.word (0 + 4 * i)) ∧
          controlVersion (m.word (0 + 4 * i)) = h.version := by
        rw [Nat.zero_add, hr.version]
        exact hcond
      have hword : 4 * i + 4 ≤ n := by omega
      rw [examineLoop, Reading.within_bind, if_pos hcond', Reading.within_bind,
        ByteMemory.within_readWord, result_examinePacket, packets_cons hcond.1 (by
          rw [Nat.zero_add]
          exact hcond.2.2), Nat.zero_add, hr.within_examinePacket hcond.2.2 hword, firstOfEach]
      split
      · next hold =>
          rw [hr.readPacket_seen hcond.2.2 hold, ih hr]
          exact ⟨fun ⟨_, _, hrest⟩ => hrest, fun hrest =>
            ⟨hword, fun hnot => absurd hold hnot, hrest⟩⟩
      · next hnew =>
          rw [ih (hr.readPacket rfl hcond.2.2 hnew), List.forall_mem_cons]
          simp only [hword, hnew, not_false_iff, true_imp_iff, true_and]
          exact and_left_comm
  | case2 i fields =>
      rename_i hcond
      subst fields
      have hcond' : ¬ (i < n / 4 ∧ 0 < controlSize (m.word (0 + 4 * i)) ∧
          controlVersion (m.word (0 + 4 * i)) = h.version) := by
        rw [Nat.zero_add, hr.version]
        exact hcond
      have hend : packets 2 m 0 n i = [] := by
        rw [packets, Nat.zero_add, if_neg hcond]
      rw [examineLoop, Reading.within_bind, if_neg hcond', ByteMemory.within_readWord, hend,
        Nat.zero_add]
      simp [firstOfEach]

/-- **The RTCP parser stays inside a datagram if and only if its walk ends at a word inside it, and
the first sender report, source description and BYE on the walk end inside it by their own counts
and lengths.** The walk always ends. -/
theorem within_iff (m : ByteMemory) (n : Nat) :
    (({} : RTPControlHeader).examine m 0 n).Within n ↔ 4 * walkEnd 2 m n 0 + 4 ≤ n ∧
      ∀ packet ∈ firstOfEach [] (packets 2 m 0 n 0), extent m packet ≤ n :=
  within_examineLoop remembers_new

/-- A BYE without sources ends the datagram, and the walk goes on behind it. -/
theorem within_fails : ¬ ∀ (m : ByteMemory) (n : Nat), 0 < n → n ≤ 1500 →
    (({} : RTPControlHeader).examine m 0 n).Within n := by
  intro hall
  have hwithin := (within_examineLoop remembers_new).1
    (hall (ByteMemory.setBytes (fun _ => 0) 0 [0x80, 203, 0, 0]) 4 (by decide) (by decide))
  have hend : walkEnd 2 (ByteMemory.setBytes (fun _ => 0) 0 [0x80, 203, 0, 0]) 4 0 = 1 := by
    rw [walkEnd, if_pos (by decide), walkEnd, if_neg (by decide)]
    rfl
  rw [hend] at hwithin
  exact absurd hwithin.1 (by decide)

end RTPControlHeader

end NetISDN

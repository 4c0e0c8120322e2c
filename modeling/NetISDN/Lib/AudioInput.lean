import NetISDN.General.Runs
import NetISDN.Lib.Codec
import NetISDN.Rtp.Header

/-!
# The input callback with Layer 3

`AudioInputCallback` (`codec.cpp:66`) encodes each block of samples and sends what comes of it. LAME
is arbitrary: each call comes with the bytes it appends. `EncodeLayer3Frame` cuts them into frames,
and is to keep the rest for the next call; but it keeps it in a local array, all frames of a call go
into one packet buffer, and without a frame nothing says how much there is to send. So the stream
is cut right as long as no call completes more than one frame, the array still holds the rest, and
the length that nothing has set is not positive (`packetised_of_runs`).
-/

namespace NetISDN

open TransitionSystem

/-- What the callback works on: the codec with its counters, the header, frame size, remainder and
stream ratio, and what the last call has left in the array of `EncodeLayer3Frame`. -/
structure AudioInput where
  codec : Codec
  header : RTPHeader
  frameSize : Nat
  lameOffset : Nat
  streamRatio : Nat
  loopback : Bool
  left : ByteMemory

/-- A call of the callback: the bytes that LAME writes and the result that it returns, and what the
array of `EncodeLayer3Frame`, the packet buffer and the length hold before anything is written to
them. -/
structure InputCall where
  lame : List (BitVec 8)
  ret : Int
  buf : ByteMemory
  outbuf : ByteMemory
  outlen : BitVec 64
  hasInput : Bool := true

namespace AudioInput

/-- One turn of the loop of `WriteLayer3Buffer` (`codec.cpp:1227`), if the packet fits its
buffer. -/
def writeLayer3Block (t : AudioInput) (inbuf : ByteMemory) (i : Nat) (outbuf : ByteMemory) :
    Option (AudioInput × ByteMemory × BitVec 64) :=
  let (outbuf, words) := t.header.writeBlock outbuf 0 375
  let l := 4 * words
  if l + t.frameSize ≤ 1500 then
    some
      ({ t with
          header := t.header.increment
          codec := { t.codec with
            transmitPackets := t.codec.transmitPackets + 1
            transmitOctets := t.codec.transmitOctets + BitVec.ofNat 32 (l + t.frameSize) } },
        outbuf.setBytes l (inbuf.bytes (i * t.frameSize) t.frameSize),
        BitVec.ofNat 64 (t.frameSize + l))
  else none

/-- The loop, from block `i` on. -/
def writeLayer3Blocks (t : AudioInput) (inbuf : ByteMemory) (outbuf : ByteMemory)
    (outlen : BitVec 64) (i : Nat) : Nat → Option (AudioInput × ByteMemory × BitVec 64)
  | 0 => some (t, outbuf, outlen)
  | blocks + 1 => do
      let (t, outbuf, outlen) ← t.writeLayer3Block inbuf i outbuf
      t.writeLayer3Blocks inbuf outbuf outlen (i + 1) blocks

/-- `WriteLayer3Buffer` (`codec.cpp:1218`): what it writes to `outbuf`, `*outlen` and back to
`inbuf`, and what it returns. -/
def writeLayer3Buffer (t : AudioInput) (inbuf : ByteMemory) (len : Nat) (outbuf : ByteMemory)
    (outlen : BitVec 64) :
    Option (AudioInput × ByteMemory × BitVec 64 × ByteMemory × Nat) := do
  let blocks := len / t.frameSize
  let offset := len % t.frameSize
  let (t, outbuf, outlen) ← t.writeLayer3Blocks inbuf outbuf outlen 0 blocks
  return (t, outbuf, outlen, inbuf.setBytes 0 (inbuf.bytes (t.frameSize * blocks) offset), offset)

/-- `EncodeLayer3Frame` (`codec.cpp:1137`). -/
def encodeLayer3Frame (t : AudioInput) (call : InputCall) :
    Option (AudioInput × ByteMemory × Int) :=
  let buf := call.buf.setBytes t.lameOffset call.lame
  let s := (BitVec.ofInt 32 call.ret + BitVec.ofNat 32 t.lameOffset).toInt
  if s ≥ 0 then do
    let (t, outbuf, n, buf, offset) ← t.writeLayer3Buffer buf s.toNat call.outbuf call.outlen
    return ({ t with lameOffset := offset, left := buf }, outbuf, (n.setWidth 32).toInt)
  else some ({ t with left := buf }, call.outbuf, 0)

/-- `AudioInputCallback` (`codec.cpp:66`), and the datagrams that it sends. -/
def audioInputCallback (t : AudioInput) (call : InputCall) :
    Option (AudioInput × List (List (BitVec 8))) :=
  if call.hasInput ∧ t.loopback = false then do
    let (t, buf, s) ← t.encodeLayer3Frame call
    if s > 0 then return (t, List.replicate t.streamRatio (buf.bytes 0 s.toNat))
    else return (t, [])
  else some (t, [])

/-! ## What a call does -/

/-- What is left of earlier calls. -/
def retained (t : AudioInput) : List (BitVec 8) := t.left.bytes 0 t.lameOffset

/-- A call: what LAME has appended, how many frames were complete then, and what was sent. -/
structure InputRecord where
  lame : List (BitVec 8)
  frames : Nat
  sent : List (List (BitVec 8))

/-- The callback, with the record of the call. -/
def step (t : AudioInput) (call : InputCall) : Option (AudioInput × List InputRecord) :=
  (t.audioInputCallback call).map fun (t', sent) =>
    (t', [⟨call.lame, (t.lameOffset + call.lame.length) / t.frameSize, sent⟩])

/-- LAME is called, and what it appends is within the array. -/
structure Appends (t : AudioInput) (call : InputCall) : Prop where
  input : call.hasInput = true
  ret : call.ret = call.lame.length
  room : t.lameOffset + call.lame.length ≤ 1500

/-- The condition: the array holds what the last call has left there, at most one frame is complete,
it fits its packet, and the length that is sent without a frame is not positive. -/
structure Undisturbed (t : AudioInput) (call : InputCall) : Prop where
  buf : call.buf.bytes 0 t.lameOffset = t.retained
  single : t.lameOffset + call.lame.length < 2 * t.frameSize
  fits : t.frameSize ≤ t.lameOffset + call.lame.length → 12 + t.frameSize ≤ 1500
  outlen : t.lameOffset + call.lame.length < t.frameSize → (call.outlen.setWidth 32).toInt ≤ 0

/-- The transmitter of a connection: Layer 3 frames, no contributing sources, no loopback, and every
packet is sent at least once. -/
structure Transmits (t : AudioInput) : Prop where
  frameSize : 0 < t.frameSize
  csrcs : t.header.csrcs = []
  live : t.loopback = false
  ratio : 1 ≤ t.streamRatio

variable {t t' : AudioInput} {call : InputCall} {inbuf outbuf m : ByteMemory} {outlen : BitVec 64}
  {i n : Nat}

/-- The number of a packet. -/
def packetNumber (packet : List (BitVec 8)) : BitVec 16 :=
  (0xffff#32 &&& (ByteMemory.setBytes (fun _ => 0) 0 packet).word 0).setWidth 16

/-- The payload of a packet without contributing sources. -/
def payload (packet : List (BitVec 8)) : List (BitVec 8) := packet.drop 12

/-- The bytes of LAME stand behind what the array holds. -/
theorem bytes_appended (buf : ByteMemory) (offset : Nat) (lame : List (BitVec 8)) :
    (buf.setBytes offset lame).bytes 0 (offset + lame.length) = buf.bytes 0 offset ++ lame := by
  have hframe : ByteMemory.Frame offset lame.length buf (buf.setBytes offset lame) :=
    ByteMemory.frame_setBytes
  have hagree : ByteMemory.Agree 0 offset buf (buf.setBytes offset lame) :=
    hframe.agree (.inl (by omega))
  rw [ByteMemory.bytes_add, Nat.zero_add, ByteMemory.bytes_setBytes,
    hagree.bytes (Nat.le_refl 0) (Nat.le_refl _)]

/-- What is copied to the front is found there. -/
theorem bytes_copied : (m.setBytes 0 (inbuf.bytes i n)).bytes 0 n = inbuf.bytes i n := by
  have hbytes : (m.setBytes 0 (inbuf.bytes i n)).bytes 0 (inbuf.bytes i n).length =
      inbuf.bytes i n :=
    ByteMemory.bytes_setBytes
  rwa [ByteMemory.length_bytes] at hbytes

/-- A packet in its buffer: the header in front, the frame behind it. -/
theorem packet_spec (header : RTPHeader) (outbuf inbuf : ByteMemory) (size : Nat)
    {packet : List (BitVec 8)} (hpacket : packet =
      ((outbuf.setWords 0 ([header.firstWord, header.timestamp, header.ssrc] ++ [])).setBytes 12
        (inbuf.bytes 0 size)).bytes 0 (12 + size)) :
    packetNumber packet = header.sequenceNumber ∧ payload packet = inbuf.bytes 0 size := by
  obtain ⟨written, hwritten⟩ : ∃ m, m =
      outbuf.setWords 0 ([header.firstWord, header.timestamp, header.ssrc] ++ []) := ⟨_, rfl⟩
  have hword : written.word 0 = header.firstWord := by
    have hwords :
      (outbuf.setWords 0 ([header.firstWord, header.timestamp, header.ssrc] ++ [])).words
        0 3 = [header.firstWord, header.timestamp, header.ssrc] := ByteMemory.words_setWords
    rw [← hwritten] at hwords
    exact (List.cons.inj hwords).1
  rw [← hwritten] at hpacket
  subst hpacket
  have hframe : ByteMemory.Frame 12 (inbuf.bytes 0 size).length written
      (written.setBytes 12 (inbuf.bytes 0 size)) := ByteMemory.frame_setBytes
  constructor
  · have hagree : ByteMemory.Agree 0 (12 + size) (written.setBytes 12 (inbuf.bytes 0 size))
        (ByteMemory.setBytes (fun _ => 0) 0
          ((written.setBytes 12 (inbuf.bytes 0 size)).bytes 0 (12 + size))) :=
      ByteMemory.agree_setBytes
    rw [packetNumber, hagree.word (Nat.le_refl 0) (by omega), hframe.word (.inl (by omega)), hword,
      RTPHeader.number_firstWord]
  · have hbytes : (written.setBytes 12 (inbuf.bytes 0 size)).bytes 12 (inbuf.bytes 0 size).length =
        inbuf.bytes 0 size := ByteMemory.bytes_setBytes
    rw [ByteMemory.length_bytes] at hbytes
    rw [payload, ByteMemory.bytes_add, List.drop_left' ByteMemory.length_bytes, Nat.zero_add,
      hbytes]

/-- What LAME returns and what is left add up. -/
theorem Appends.toInt (h : Appends t call) :
    (BitVec.ofInt 32 call.ret + BitVec.ofNat 32 t.lameOffset).toInt =
      (t.lameOffset + call.lame.length : Nat) := by
  have hroom := h.room
  rw [h.ret, BitVec.ofInt_natCast, ← BitVec.ofNat_add, BitVec.toInt_eq_toNat_cond,
    BitVec.toNat_ofNat, Nat.mod_eq_of_lt (by omega), if_pos (by omega), Nat.add_comm]

/-- The length of a packet survives the conversions. -/
theorem toInt_length {n : Nat} (hn : n ≤ 1500) :
    ((BitVec.ofNat 64 n).setWidth 32).toInt = (n : Int) := by
  rw [BitVec.setWidth_ofNat_of_le (by decide), BitVec.toInt_eq_toNat_cond, BitVec.toNat_ofNat,
    Nat.mod_eq_of_lt (by omega), if_pos (by omega)]

/-- A call that completes no frame: what LAME has appended stays, and the length that nothing has
set is returned. -/
theorem encodeLayer3Frame_none (ha : Appends t call)
    (hnone : t.lameOffset + call.lame.length < t.frameSize) : ∃ t',
    t.encodeLayer3Frame call = some (t', call.outbuf, (call.outlen.setWidth 32).toInt) ∧
      t'.header = t.header ∧ t'.frameSize = t.frameSize ∧ t'.streamRatio = t.streamRatio ∧
      t'.loopback = t.loopback ∧ t'.retained = call.buf.bytes 0 t.lameOffset ++ call.lame := by
  have hblocks : (t.lameOffset + call.lame.length) / t.frameSize = 0 := Nat.div_eq_of_lt hnone
  have hoffset : (t.lameOffset + call.lame.length) % t.frameSize =
      t.lameOffset + call.lame.length := Nat.mod_eq_of_lt hnone
  rw [encodeLayer3Frame]
  simp only [ha.toInt, Int.natCast_nonneg, ge_iff_le, if_true, Int.toNat_natCast,
    writeLayer3Buffer, hblocks, hoffset, writeLayer3Blocks, Option.bind_eq_bind, Option.bind_some,
    Option.pure_def]
  refine ⟨_, rfl, rfl, rfl, rfl, rfl, ?_⟩
  rw [retained, Nat.mul_zero, bytes_copied, bytes_appended]

/-- A call that completes one frame: it is sent, and what is behind it stays. -/
theorem encodeLayer3Frame_one (h : Transmits t) (ha : Appends t call)
    (hle : t.frameSize ≤ t.lameOffset + call.lame.length)
    (hlt : t.lameOffset + call.lame.length < 2 * t.frameSize) (hfits : 12 + t.frameSize ≤ 1500) :
    ∃ (t' : AudioInput) (outbuf : ByteMemory),
      t.encodeLayer3Frame call = some (t', outbuf, ((12 + t.frameSize : Nat) : Int)) ∧
      t'.header = t.header.increment ∧ t'.frameSize = t.frameSize ∧
      t'.streamRatio = t.streamRatio ∧ t'.loopback = t.loopback ∧
      packetNumber (outbuf.bytes 0 (12 + t.frameSize)) = t.header.sequenceNumber ∧
      (payload (outbuf.bytes 0 (12 + t.frameSize))).length = t.frameSize ∧
      call.buf.bytes 0 t.lameOffset ++ call.lame =
        payload (outbuf.bytes 0 (12 + t.frameSize)) ++ t'.retained := by
  have hblocks : (t.lameOffset + call.lame.length) / t.frameSize = 1 :=
    Nat.div_eq_of_lt_le (by omega) (by omega)
  have hoffset : (t.lameOffset + call.lame.length) % t.frameSize =
      t.lameOffset + call.lame.length - t.frameSize := by
    rw [Nat.mod_eq_sub_mod hle, Nat.mod_eq_of_lt (by omega)]
  have hcount : t.header.csrcCount = 0 := by rw [RTPHeader.csrcCount, h.csrcs, List.length_nil]
  have hwrite : t.header.writeBlock call.outbuf 0 375 =
      (call.outbuf.setWords 0 ([t.header.firstWord, t.header.timestamp, t.header.ssrc] ++ []),
        3) := by
    rw [RTPHeader.writeBlock_eq (by rw [hcount]; decide), hcount, h.csrcs]
  have hlen : ((BitVec.ofNat 64 (t.frameSize + 4 * 3)).setWidth 32).toInt =
      ((12 + t.frameSize : Nat) : Int) := by
    rw [Nat.add_comm t.frameSize, toInt_length hfits]
  rw [encodeLayer3Frame]
  simp only [ha.toInt, Int.natCast_nonneg, ge_iff_le, if_true, Int.toNat_natCast,
    writeLayer3Buffer, hblocks, hoffset, writeLayer3Blocks, writeLayer3Block, hwrite,
    if_pos (show 4 * 3 + t.frameSize ≤ 1500 from hfits), hlen, Option.bind_eq_bind,
    Option.bind_some, Option.pure_def]
  obtain ⟨hnumber, hpayload⟩ := packet_spec t.header call.outbuf
    (call.buf.setBytes t.lameOffset call.lame) t.frameSize rfl
  refine ⟨_, _, rfl, rfl, rfl, rfl, rfl, ?_, ?_, ?_⟩
  · rw [Nat.zero_mul]
    exact hnumber
  · rw [Nat.zero_mul]
    exact (congrArg List.length hpayload).trans ByteMemory.length_bytes
  · rw [Nat.zero_mul, retained, Nat.mul_one, bytes_copied]
    refine (bytes_appended call.buf t.lameOffset call.lame).symm.trans ?_
    refine Eq.trans ?_ (congrArg (· ++ _) hpayload.symm)
    have hsplit := @ByteMemory.bytes_add (call.buf.setBytes t.lameOffset call.lame) 0 t.frameSize
      (t.lameOffset + call.lame.length - t.frameSize)
    rwa [Nat.add_sub_cancel' hle, Nat.zero_add] at hsplit

/-- The step lemma: a call that meets the condition sends nothing and keeps everything, or sends one
packet and keeps the rest. -/
theorem step_spec (h : Transmits t) (ha : Appends t call) (hu : Undisturbed t call) :
    ∃ t' record, step t call = some (t', [record]) ∧ record.lame = call.lame ∧
      t'.frameSize = t.frameSize ∧ t'.streamRatio = t.streamRatio ∧ t'.loopback = t.loopback ∧
      ((record.sent = [] ∧ t'.header = t.header ∧ t'.retained = t.retained ++ call.lame) ∨
        ∃ packet, record.frames = 1 ∧ record.sent = List.replicate t.streamRatio packet ∧
          t'.header = t.header.increment ∧ packetNumber packet = t.header.sequenceNumber ∧
          (payload packet).length = t.frameSize ∧
          t.retained ++ call.lame = payload packet ++ t'.retained) := by
  rw [← hu.buf]
  rcases Nat.lt_or_ge (t.lameOffset + call.lame.length) t.frameSize with hnone | hle
  · obtain ⟨t', hencode, hheader, hsize, hratio, hloop, hretained⟩ :=
      encodeLayer3Frame_none ha hnone
    have hidle := Int.not_lt.2 (hu.outlen hnone)
    refine ⟨t', ⟨call.lame, (t.lameOffset + call.lame.length) / t.frameSize, []⟩, ?_, rfl, hsize,
      hratio, hloop, .inl ⟨rfl, hheader, hretained⟩⟩
    simp only [step, audioInputCallback, ha.input, h.live, and_self, if_true, hencode,
      Option.bind_eq_bind, Option.bind_some, gt_iff_lt, hidle, if_false, Option.pure_def,
      Option.map_some]
  · obtain ⟨t', outbuf, hencode, hheader, hsize, hratio, hloop, hnumber, hlength, hcontent⟩ :=
      encodeLayer3Frame_one h ha hle hu.single (hu.fits hle)
    have hpos : ((12 + t.frameSize : Nat) : Int) > 0 := by omega
    refine ⟨t', ⟨call.lame, (t.lameOffset + call.lame.length) / t.frameSize,
      List.replicate t.streamRatio (outbuf.bytes 0 (12 + t.frameSize))⟩, ?_, rfl, hsize, hratio,
      hloop, .inr ⟨_, ?_, rfl, hheader, hnumber, hlength, hcontent⟩⟩
    · simp only [step, audioInputCallback, ha.input, h.live, and_self, if_true, hencode,
        Option.bind_eq_bind, Option.bind_some, hpos, Option.pure_def, Option.map_some, hratio,
        Int.toNat_natCast]
    · exact Nat.div_eq_of_lt_le (by omega) (by have := hu.single; omega)

/-! ## Runs -/

/-- The packets of a run: what a call sends, it sends several times. -/
def packets (tr : List InputRecord) : List (List (BitVec 8)) := tr.flatMap fun r => r.sent.take 1

/-- The stream is cut into packets: nothing is lost or added, each packet is one frame, they are
numbered in order, and a call that completes no frame sends none. -/
structure Packetised (t : AudioInput) (tr : List InputRecord) (t' : AudioInput) : Prop where
  content : ((packets tr).map payload).flatten ++ t'.retained = (tr.map (·.lame)).flatten
  sizes : ∀ packet ∈ packets tr, (payload packet).length = t.frameSize
  numbers : (packets tr).map packetNumber = (List.range (packets tr).length).map fun i =>
    t.header.sequenceNumber + BitVec.ofNat 16 i
  copies : ∀ record ∈ tr, record.sent = [] ∨
    ∃ packet, record.sent = List.replicate t.streamRatio packet
  idle : ∀ record ∈ tr, record.frames = 0 → record.sent = []

/-- What every run keeps. -/
structure Cutting (t : AudioInput) (tr : List InputRecord) (t' : AudioInput) : Prop where
  transmits : Transmits t'
  frameSize : t'.frameSize = t.frameSize
  ratio : t'.streamRatio = t.streamRatio
  number : t'.header.sequenceNumber =
    t.header.sequenceNumber + BitVec.ofNat 16 (packets tr).length
  packetised : Packetised t tr t'

/-- The condition is enough for a call to keep it. -/
theorem Cutting.step {tr : List InputRecord} {t₁ t₂ : AudioInput} {out : List InputRecord}
    (h : Cutting t tr t₁) (ha : Appends t₁ call) (hu : Undisturbed t₁ call)
    (hs : AudioInput.step t₁ call = some (t₂, out)) : Cutting t (tr ++ out) t₂ := by
  obtain ⟨t', record, hs', hlame, hsize, hratio, hloop, hsent⟩ := step_spec h.transmits ha hu
  obtain ⟨rfl, rfl⟩ := Prod.mk.inj (Option.some.inj (hs'.symm.trans hs))
  have hp := h.packetised
  have hlive := hloop.trans h.transmits.live
  have hflat : ((tr ++ [record]).map (·.lame)).flatten =
      (tr.map (·.lame)).flatten ++ call.lame := by simp [hlame]
  rcases hsent with ⟨hnone, hheader, hkeep⟩ | ⟨packet, hone, hcopies, hheader, hnumber, hlen, hcut⟩
  · have hpackets : packets (tr ++ [record]) = packets tr := by simp [packets, hnone]
    refine ⟨⟨hsize ▸ h.transmits.frameSize, hheader ▸ h.transmits.csrcs, hlive,
      hratio ▸ h.transmits.ratio⟩, hsize.trans h.frameSize, hratio.trans h.ratio, ?_, ?_⟩
    · rw [hheader, hpackets]
      exact h.number
    · refine ⟨?_, ?_, ?_, ?_, ?_⟩
      · rw [hpackets, hkeep, hflat, ← hp.content, List.append_assoc]
      · rw [hpackets]
        exact hp.sizes
      · rw [hpackets]
        exact hp.numbers
      · rw [List.forall_mem_append]
        exact ⟨hp.copies, List.forall_mem_singleton.2 (.inl hnone)⟩
      · rw [List.forall_mem_append]
        exact ⟨hp.idle, List.forall_mem_singleton.2 fun _ => hnone⟩
  · have hpackets : packets (tr ++ [record]) = packets tr ++ [packet] := by
      obtain ⟨k, hk⟩ : ∃ k, t₁.streamRatio = k + 1 :=
        ⟨t₁.streamRatio - 1, by have := h.transmits.ratio; omega⟩
      simp [packets, hcopies, hk, List.replicate_succ]
    refine ⟨⟨hsize ▸ h.transmits.frameSize, hheader ▸ h.transmits.csrcs, hlive,
      hratio ▸ h.transmits.ratio⟩, hsize.trans h.frameSize, hratio.trans h.ratio, ?_, ?_⟩
    · rw [hheader, hpackets, List.length_append, List.length_singleton, BitVec.ofNat_add,
        ← BitVec.add_assoc, ← h.number]
      rfl
    · refine ⟨?_, ?_, ?_, ?_, ?_⟩
      · rw [hpackets, hflat, ← hp.content, List.append_assoc, hcut]
        simp
      · rw [hpackets, List.forall_mem_append]
        exact ⟨hp.sizes, List.forall_mem_singleton.2 (hlen.trans h.frameSize)⟩
      · rw [hpackets, List.map_append, List.length_append, List.length_singleton, List.range_succ,
          List.map_append, hp.numbers, List.map_singleton, List.map_singleton, hnumber, h.number]
      · rw [List.forall_mem_append]
        exact ⟨hp.copies, List.forall_mem_singleton.2 (.inr ⟨packet, h.ratio ▸ hcopies⟩)⟩
      · rw [List.forall_mem_append]
        exact ⟨hp.idle, List.forall_mem_singleton.2 fun hzero => absurd (hone.symm.trans hzero)
          (by decide)⟩

/-- **In every run whose calls meet the condition the stream of LAME is cut into packets, and the
next call that meets it returns.** -/
theorem packetised_of_runs {calls : List InputCall} {tr : List InputRecord} (h : Transmits t)
    (hfresh : t.lameOffset = 0)
    (hr : Runs step (fun t call => Appends t call ∧ Undisturbed t call) t calls t' tr) :
    Packetised t tr t' ∧
      ∀ call, Appends t' call → Undisturbed t' call → (step t' call).isSome := by
  have hcutting : Cutting t tr t' := by
    refine hr.invariant_history (I := fun _ t' tr => Cutting t tr t') ?_ ?_
    · refine ⟨h, rfl, rfl, (BitVec.add_zero _).symm, ⟨?_, List.forall_mem_nil _, rfl,
        List.forall_mem_nil _, List.forall_mem_nil _⟩⟩
      rw [retained, hfresh]
      rfl
    · rintro calls t₁ tr call t₂ out - hcutting ⟨ha, hu⟩ hs
      exact hcutting.step ha hu hs
  refine ⟨hcutting.packetised, fun call ha hu => ?_⟩
  obtain ⟨t₂, record, hs, -⟩ := step_spec hcutting.transmits ha hu
  rw [hs]
  rfl

/-- A transmitter with frames of three bytes. -/
def small : AudioInput where
  codec := {}
  header := mpaHeader 0
  frameSize := 3
  lameOffset := 0
  streamRatio := 1
  loopback := false
  left := fun _ => 0

/-- The small sender transmits. -/
theorem transmits_small : Transmits small := ⟨by decide, rfl, rfl, by decide⟩

/-- A call in which LAME appends two bytes, while the array begins with two others. -/
def appendTwo (found lame : List (BitVec 8)) : InputCall where
  lame := lame
  ret := 2
  buf := ByteMemory.setBytes (fun _ => 0) 0 found
  outbuf := fun _ => 0
  outlen := 0

/-- A frame that is completed by the second call. -/
theorem packetised_of_runs_demo : ∃ t' tr,
    Runs step (fun t call => Appends t call ∧ Undisturbed t call) small
      [appendTwo [] [1, 2], appendTwo [1, 2] [3, 4]] t' tr ∧
    (packets tr).map payload = [[1, 2, 3]] ∧ t'.retained = [4] ∧ Packetised small tr t' := by
  obtain ⟨t₁, out₁, hs₁, t₂, out₂, hs₂, ha, hu, hpackets, hretained⟩ : ∃ t₁ out₁,
      step small (appendTwo [] [1, 2]) = some (t₁, out₁) ∧ ∃ t₂ out₂,
        step t₁ (appendTwo [1, 2] [3, 4]) = some (t₂, out₂) ∧
          Appends t₁ (appendTwo [1, 2] [3, 4]) ∧ Undisturbed t₁ (appendTwo [1, 2] [3, 4]) ∧
          (packets (out₁ ++ out₂)).map payload = [[1, 2, 3]] ∧ t₂.retained = [4] :=
    ⟨_, _, rfl, _, _, rfl, ⟨rfl, rfl, by decide⟩, ⟨by decide, by decide, by decide, by decide⟩,
      by decide, by decide⟩
  have hr : Runs step (fun t call => Appends t call ∧ Undisturbed t call) small
      [appendTwo [] [1, 2], appendTwo [1, 2] [3, 4]] t₂ (out₁ ++ out₂) :=
    (Runs.single ⟨⟨rfl, rfl, by decide⟩, ⟨by decide, by decide, by decide, by decide⟩⟩ hs₁).snoc
      ⟨ha, hu⟩ hs₂
  exact ⟨t₂, _, hr, hpackets, hretained, (packetised_of_runs transmits_small rfl hr).1⟩

/-- Of two frames in one call only the second is sent. -/
theorem packetised_fails : ¬ ∀ (t t' : AudioInput) (calls : List InputCall)
    (tr : List InputRecord), Transmits t → t.lameOffset = 0 → Runs step Appends t calls t' tr →
      Packetised t tr t' := by
  intro hall
  obtain ⟨t', tr, hs, htr⟩ : ∃ t' tr,
      step small ⟨[1, 2, 3, 4, 5, 6], 6, fun _ => 0, fun _ => 0, 0, true⟩ = some (t', tr) ∧
        (packets tr).map payload = [[4, 5, 6]] ∧ t'.lameOffset = 0 ∧
          (tr.map (·.lame)).flatten = [1, 2, 3, 4, 5, 6] := ⟨_, _, rfl, by decide, rfl, rfl⟩
  have hp := hall small t' _ tr transmits_small rfl (Runs.single ⟨rfl, rfl, by decide⟩ hs)
  have hcontent := hp.content
  have hnil : t'.left.bytes 0 0 = [] := rfl
  rw [htr.1, htr.2.2, retained, htr.2.1, hnil] at hcontent
  exact absurd hcontent (by decide)

end AudioInput

end NetISDN

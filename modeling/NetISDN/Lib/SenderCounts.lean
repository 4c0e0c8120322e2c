import NetISDN.Lib.AudioInput

/-!
# What a sender report counts

`GenerateRtcpPacket` reports `codec_transmit_packets`, `codec_transmit_octets` and a timestamp that
it makes of the former, while `WriteLayer3Buffer` and `EncodeSpeexFrame` move the counters and the
header on. The octets that are counted include the header of each packet, and so the first packet
makes the reports wrong: they agree with the stream as long as there is none (`reportsAgree_iff`).
With Layer 3 the timestamp is right in every run (`timestamp_of_runs`).
-/

namespace NetISDN

open TransitionSystem

/-- The modes in which `InitSpeexEncoder` creates an encoder, by their sample rates. -/
inductive SpeexMode where
  | narrow
  | wide
  | superWide
  deriving DecidableEq

/-- `AudioSettings::format(Transmit)`, for the formats whose encoders are followed here. -/
inductive SenderFormat where
  | layer3
  | speex (mode : SpeexMode)
  deriving DecidableEq

/-- The payload type with which `InitEncoder` creates the header (`codec.cpp:924`). -/
def SenderFormat.payloadType : SenderFormat → BitVec 32
  | .layer3 => 14
  | .speex .narrow => 20
  | .speex .wide => 21
  | .speex .superWide => 22

/-- The timestamp interval that goes with it (`rtpheader.cpp:84`, `rtpheader.cpp:104`). -/
def SenderFormat.timestampInterval : SenderFormat → BitVec 32
  | .layer3 => 90000
  | .speex .narrow => 8000
  | .speex .wide => 16000
  | .speex .superWide => 32000

/-- The transmitter of a call: what the callback works on, and the format. -/
structure Sender extends AudioInput where
  format : SenderFormat

/-- A call of the callback: what Layer 3 finds, and the bytes that `speex_bits_write` writes. -/
structure SenderCall extends InputCall where
  speex : List (BitVec 8)

namespace Sender

/-- `connectToHost` (`codec.cpp:545`), as far as it sets what the callback and the reports use;
`rand` is the first sequence number. What earlier calls have left of Layer 3 stays. -/
def connectToHost (t : Sender) (format : SenderFormat) (rand : BitVec 16) (ssrc : BitVec 32)
    (frameSize streamRatio : Nat) : Sender :=
  { t with
    format := format
    codec := { t.codec with transmitPackets := 0, transmitOctets := 0, transmitSsrc := ssrc }
    header := { mpaHeader rand with
      payloadType := format.payloadType
      timestampInterval := format.timestampInterval
      ssrc := ssrc }
    frameSize := frameSize
    streamRatio := streamRatio }

/-- `EncodeSpeexFrame` (`codec.cpp:1321`), if the packet fits its buffer. -/
def encodeSpeexFrame (t : Sender) (call : SenderCall) : Option (Sender × ByteMemory × Int) :=
  let (outbuf, words) := t.header.writeBlock call.outbuf 0 375
  let l := 4 * words
  if l + call.speex.length ≤ 1500 then
    some
      ({ t with
          header := t.header.increment
          codec := { t.codec with
            transmitPackets := t.codec.transmitPackets + 1
            transmitOctets := t.codec.transmitOctets + BitVec.ofNat 32 (l + call.speex.length) } },
        outbuf.setBytes l call.speex, ((call.speex.length + l : Nat) : Int))
  else none

/-- The number of bytes that `EncodeLayer3Frame` takes to be in its array. -/
def layer3Bytes (t : Sender) (call : SenderCall) : Int :=
  (BitVec.ofInt 32 call.ret + BitVec.ofNat 32 t.lameOffset).toInt

/-- `EncodeFrame` (`codec.cpp:1034`), as long as LAME stays within its array and there is no
division by a frame size of zero. -/
def encodeFrame (t : Sender) (call : SenderCall) : Option (Sender × ByteMemory × Int) :=
  match t.format with
  | .layer3 =>
      if t.lameOffset + call.lame.length ≤ 1500 ∧ (0 ≤ t.layer3Bytes call → 0 < t.frameSize) then
        (t.encodeLayer3Frame call.toInputCall).map fun (t', outbuf, s) =>
          ({ t with toAudioInput := t' }, outbuf, s)
      else none
  | .speex _ => t.encodeSpeexFrame call

/-- `AudioInputCallback` (`codec.cpp:66`), and the datagrams that it hands to the socket. -/
def audioInputCallback (t : Sender) (call : SenderCall) :
    Option (Sender × List (List (BitVec 8))) :=
  if call.hasInput ∧ t.loopback = false then do
    let (t, buf, s) ← t.encodeFrame call
    if s > 0 then return (t, List.replicate t.streamRatio (buf.bytes 0 s.toNat))
    else return (t, [])
  else some (t, [])

/-- What happens during a call: a callback, a report, and a change of the loopback. -/
inductive Event where
  | audioInputCallback (call : SenderCall)
  | rtcpTransmitData (ntp : BitVec 64) (packet : ByteMemory)
  | setLoopback (state : Bool)

/-- A step puts out what a callback hands to the socket. -/
def step (t : Sender) : Event → Option (Sender × List (List (List (BitVec 8))))
  | .audioInputCallback call => (t.audioInputCallback call).map fun (t', sent) => (t', [sent])
  | .rtcpTransmitData ntp packet =>
      some ({ t with codec := (t.codec.rtcpTransmitData ntp packet).1 }, [])
  | .setLoopback state => some ({ t with loopback := state }, [])

/-- The distinct packets of a run: what a callback hands over, it hands over several times. -/
def packets (tr : List (List (List (BitVec 8)))) : List (List (BitVec 8)) :=
  tr.flatMap (·.take 1)

/-- The lengths of their payloads. -/
def payloadOctets (tr : List (List (List (BitVec 8)))) : Nat :=
  ((packets tr).map fun packet => (AudioInput.payload packet).length).sum

/-- The sender report that `GenerateRtcpPacket` makes agrees with the stream so far. -/
structure Agrees (t : Sender) (tr : List (List (List (BitVec 8)))) (ntp : BitVec 64) : Prop where
  packets : (t.codec.senderReport ntp).senderPacketCount = BitVec.ofNat 32 (packets tr).length
  octets : (t.codec.senderReport ntp).senderOctetCount = BitVec.ofNat 32 (payloadOctets tr)
  timestamp : (t.codec.senderReport ntp).rtpTimestamp = t.header.timestamp

/-- The report agrees with the stream at every point of the run over a list of events. -/
def ReportsAgree (t : Sender) (es : List Event) : Prop :=
  ∀ pre post t' tr ntp, es = pre ++ post → Runs step Always t pre t' tr → Agrees t' tr ntp

/-- A callback with input, not looped back, that makes a packet, or, where it makes none of Layer 3,
finds a positive number in the length that nothing sets then. -/
def Sends (t : Sender) : Event → Prop
  | .audioInputCallback call =>
      call.hasInput = true ∧ t.loopback = false ∧
        match t.format with
        | .layer3 =>
            t.lameOffset + call.lame.length ≤ 1500 ∧ 0 ≤ t.layer3Bytes call ∧ 0 < t.frameSize ∧
              if t.frameSize ≤ (t.layer3Bytes call).toNat then 12 + t.frameSize ≤ 1500
              else 0 < (call.outlen.setWidth 32).toInt ∧ 0 < t.streamRatio
        | .speex _ => 12 + call.speex.length ≤ 1500
  | .rtcpTransmitData _ _ => False
  | .setLoopback _ => False

/-! ## What a callback counts -/

/-- Between two states `k` packets of `size` bytes have been counted. -/
structure Counted (t : AudioInput) (k size : Nat) (t' : AudioInput) : Prop where
  packets : t'.codec.transmitPackets = t.codec.transmitPackets + BitVec.ofNat 32 k
  octets : t'.codec.transmitOctets = t.codec.transmitOctets + BitVec.ofNat 32 (k * size)
  timestamp : t'.header.timestamp =
    t.header.timestamp + t.header.timestampInterval * BitVec.ofNat 32 k
  interval : t'.header.timestampInterval = t.header.timestampInterval
  csrcs : t'.header.csrcs = t.header.csrcs
  frameSize : t'.frameSize = t.frameSize
  streamRatio : t'.streamRatio = t.streamRatio

variable {t t' t₀ t₁ t₂ : AudioInput} {k l size i : Nat} {inbuf outbuf : ByteMemory}
  {outlen : BitVec 64}

/-- No packet has been counted. -/
theorem Counted.refl (t : AudioInput) (size : Nat) : Counted t 0 size t :=
  ⟨(BitVec.add_zero _).symm, by simp, by simp, rfl, rfl, rfl, rfl⟩

/-- No packets have no size. -/
theorem Counted.resize (h : Counted t 0 size t') (l : Nat) : Counted t 0 l t' :=
  ⟨h.packets, by rw [h.octets, Nat.zero_mul, Nat.zero_mul], h.timestamp, h.interval, h.csrcs,
    h.frameSize, h.streamRatio⟩

/-- Counts add up. -/
theorem Counted.trans (h : Counted t₀ k size t₁) (h' : Counted t₁ l size t₂) :
    Counted t₀ (k + l) size t₂ := by
  refine ⟨?_, ?_, ?_, h'.interval.trans h.interval, h'.csrcs.trans h.csrcs,
    h'.frameSize.trans h.frameSize, h'.streamRatio.trans h.streamRatio⟩
  · rw [h'.packets, h.packets, BitVec.add_assoc, BitVec.ofNat_add]
  · rw [h'.octets, h.octets, BitVec.add_assoc, Nat.add_mul, BitVec.ofNat_add]
  · rw [h'.timestamp, h.timestamp, h.interval, BitVec.add_assoc, ← BitVec.mul_add, BitVec.ofNat_add]

/-- A header without contributing sources takes three words. -/
theorem snd_writeBlock {header : RTPHeader} (hcsrcs : header.csrcs = []) :
    (header.writeBlock outbuf 0 375).2 = 3 := by
  have hcount : header.csrcCount = 0 := by rw [RTPHeader.csrcCount, hcsrcs, List.length_nil]
  rw [RTPHeader.writeBlock_eq (by rw [hcount]; decide), hcount]

/-- A block of Layer 3 is counted with its header. -/
theorem writeLayer3Block_spec (inbuf outbuf : ByteMemory) (i : Nat)
    (hcsrcs : t.header.csrcs = []) (hfits : 12 + t.frameSize ≤ 1500) :
    ∃ t' outbuf', t.writeLayer3Block inbuf i outbuf =
        some (t', outbuf', BitVec.ofNat 64 (12 + t.frameSize)) ∧
      Counted t 1 (12 + t.frameSize) t' := by
  simp only [AudioInput.writeLayer3Block, snd_writeBlock hcsrcs,
    if_pos (show 4 * 3 + t.frameSize ≤ 1500 from hfits), Nat.add_comm t.frameSize]
  exact ⟨_, _, rfl, rfl, by rw [Nat.one_mul], by rw [BitVec.mul_one]; rfl, rfl, rfl, rfl, rfl⟩

/-- The blocks of a call are all counted; the length is that of the last one. -/
theorem writeLayer3Blocks_spec (hcsrcs : t.header.csrcs = []) (hfits : 12 + t.frameSize ≤ 1500) :
    ∃ t' outbuf', t.writeLayer3Blocks inbuf outbuf outlen i k =
        some (t', outbuf', if k = 0 then outlen else BitVec.ofNat 64 (12 + t.frameSize)) ∧
      Counted t k (12 + t.frameSize) t' := by
  induction k generalizing t outbuf outlen i with
  | zero => exact ⟨t, outbuf, rfl, Counted.refl t _⟩
  | succ k ih =>
      obtain ⟨t₁, outbuf₁, hblock, hone⟩ := writeLayer3Block_spec inbuf outbuf i hcsrcs hfits
      obtain ⟨t₂, outbuf₂, hblocks, hrest⟩ : ∃ t₂ outbuf₂,
          t₁.writeLayer3Blocks inbuf outbuf₁ (BitVec.ofNat 64 (12 + t.frameSize)) (i + 1) k =
            some (t₂, outbuf₂, if k = 0 then BitVec.ofNat 64 (12 + t.frameSize)
              else BitVec.ofNat 64 (12 + t₁.frameSize)) ∧
          Counted t₁ k (12 + t₁.frameSize) t₂ :=
        ih (hone.csrcs.trans hcsrcs) (hone.frameSize ▸ hfits)
      rw [hone.frameSize] at hblocks hrest
      refine ⟨t₂, outbuf₂, ?_, Nat.add_comm 1 k ▸ hone.trans hrest⟩
      simp only [AudioInput.writeLayer3Blocks, hblock, hblocks, Option.bind_eq_bind,
        Option.bind_some, ite_self, Nat.add_eq_zero_iff, one_ne_zero, and_false, if_false]

/-- A block that does not fit overruns the packet buffer. -/
theorem writeLayer3Blocks_none (hcsrcs : t.header.csrcs = []) (hfits : ¬ 12 + t.frameSize ≤ 1500)
    (hk : 0 < k) : t.writeLayer3Blocks inbuf outbuf outlen i k = none := by
  obtain ⟨k, rfl⟩ := Nat.exists_eq_succ_of_ne_zero (Nat.pos_iff_ne_zero.1 hk)
  simp only [AudioInput.writeLayer3Blocks, AudioInput.writeLayer3Block, snd_writeBlock hcsrcs,
    if_neg (show ¬ 4 * 3 + t.frameSize ≤ 1500 from hfits), Option.bind_eq_bind, Option.bind_none]

/-- What is left in the array of Layer 3 is not counted. -/
theorem Counted.keep (h : Counted t k size t') (offset : Nat) (left : ByteMemory) :
    Counted t k size { t' with lameOffset := offset, left := left } :=
  ⟨h.packets, h.octets, h.timestamp, h.interval, h.csrcs, h.frameSize, h.streamRatio⟩

section
variable {t t' : Sender} {call : SenderCall} {sent : List (List (BitVec 8))}

/-- `EncodeLayer3Frame` counts the frames that are complete. If there is none, it returns the length
that nothing has set. -/
theorem encodeLayer3Frame_spec (hcsrcs : t.header.csrcs = []) (hbytes : 0 ≤ t.layer3Bytes call)
    (hk : (t.layer3Bytes call).toNat / t.frameSize = k) (hfits : 0 < k → 12 + t.frameSize ≤ 1500) :
    ∃ t' outbuf, t.encodeLayer3Frame call.toInputCall = some (t', outbuf,
        ((if k = 0 then call.outlen else BitVec.ofNat 64 (12 + t.frameSize)).setWidth 32).toInt) ∧
      Counted t.toAudioInput k (12 + t.frameSize) t' := by
  obtain ⟨buf, hbuf⟩ : ∃ buf, buf = call.buf.setBytes t.lameOffset call.lame := ⟨_, rfl⟩
  obtain ⟨t₁, outbuf₁, hblocks, hcounted⟩ : ∃ t₁ outbuf₁,
      t.writeLayer3Blocks buf call.outbuf call.outlen 0 k = some (t₁, outbuf₁,
        if k = 0 then call.outlen else BitVec.ofNat 64 (12 + t.frameSize)) ∧
      Counted t.toAudioInput k (12 + t.frameSize) t₁ := by
    rcases Nat.eq_zero_or_pos k with rfl | hpos
    · exact ⟨_, _, rfl, Counted.refl _ _⟩
    · exact writeLayer3Blocks_spec hcsrcs (hfits hpos)
  rw [layer3Bytes] at hbytes hk
  rw [AudioInput.encodeLayer3Frame]
  simp only [ge_iff_le, hbytes, if_true, AudioInput.writeLayer3Buffer, hk, ← hbuf, hblocks,
    Option.bind_eq_bind, Option.bind_some, Option.pure_def]
  exact ⟨_, _, rfl, hcounted.keep _ _⟩

/-- `EncodeSpeexFrame` counts one packet, with its header. -/
theorem encodeSpeexFrame_spec (hcsrcs : t.header.csrcs = [])
    (hfits : 12 + call.speex.length ≤ 1500) :
    ∃ t' outbuf, t.encodeSpeexFrame call =
        some (t', outbuf, ((12 + call.speex.length : Nat) : Int)) ∧
      Counted t.toAudioInput 1 (12 + call.speex.length) t'.toAudioInput := by
  simp only [encodeSpeexFrame, snd_writeBlock hcsrcs,
    if_pos (show 4 * 3 + call.speex.length ≤ 1500 from hfits), Nat.add_comm call.speex.length]
  exact ⟨_, _, rfl, rfl, by rw [Nat.one_mul], by rw [BitVec.mul_one]; rfl, rfl, rfl, rfl, rfl⟩

/-- What has been made is handed over in copies, all at the length that the encoder returns. -/
theorem audioInputCallback_eq {outbuf : ByteMemory} {n : Nat} (hinput : call.hasInput = true)
    (hlive : t.loopback = false) (hencode : t.encodeFrame call = some (t', outbuf, (n : Int)))
    (hn : 0 < n) :
    t.audioInputCallback call = some (t', List.replicate t'.streamRatio (outbuf.bytes 0 n)) := by
  have hpos : (n : Int) > 0 := Int.natCast_pos.2 hn
  simp only [audioInputCallback, hinput, hlive, and_self, if_true, hencode, Option.bind_eq_bind,
    Option.bind_some, hpos, Int.toNat_natCast, Option.pure_def]

/-- What a callback that sends does: it counts packets, and hands over the last of them, or it hands
over what it has not counted. -/
inductive Outcome (t : AudioInput) (sent : List (List (BitVec 8))) (t' : AudioInput) : Prop
  | counted {k size n : Nat} {packet : List (BitVec 8)} (hk : 0 < k) (hlt : k < 2 ^ 32)
      (hsize : 12 + size ≤ 1500) (h : Counted t k (12 + size) t')
      (hlength : packet.length = 12 + size) (hsent : sent = List.replicate n packet) :
      Outcome t sent t'
  | stray {packet : List (BitVec 8)} (h : Counted t 0 0 t') (hsent : sent.take 1 = [packet]) :
      Outcome t sent t'

/-- Layer 3 is encoded: LAME has not failed and is within its array, and there is a frame size. -/
structure Encodes (t : Sender) (call : SenderCall) : Prop where
  layer3 : t.format = .layer3
  csrcs : t.header.csrcs = []
  room : t.lameOffset + call.lame.length ≤ 1500
  bytes : 0 ≤ t.layer3Bytes call
  frameSize : 0 < t.frameSize

/-- One packet is counted for each frame that is encoded. -/
theorem Encodes.encodeFrame (h : Encodes t call) (hk : (t.layer3Bytes call).toNat / t.frameSize = k)
    (hfits : 0 < k → 12 + t.frameSize ≤ 1500) : ∃ t' outbuf, t.encodeFrame call =
        some (t', outbuf,
          ((if k = 0 then call.outlen else BitVec.ofNat 64 (12 + t.frameSize)).setWidth 32).toInt) ∧
      Counted t.toAudioInput k (12 + t.frameSize) t'.toAudioInput := by
  obtain ⟨t₁, outbuf, hencode, hcounted⟩ := encodeLayer3Frame_spec h.csrcs h.bytes hk hfits
  have hguard : t.lameOffset + call.lame.length ≤ 1500 ∧
      (0 ≤ t.layer3Bytes call → 0 < t.frameSize) := ⟨h.room, fun _ => h.frameSize⟩
  refine ⟨{ t with toAudioInput := t₁ }, outbuf, ?_, hcounted⟩
  simp only [Sender.encodeFrame, h.layer3, if_pos hguard, hencode, Option.map_some]

/-- A callback that completes frames hands over the last of them. -/
theorem Encodes.sends_frames (h : Encodes t call) (hinput : call.hasInput = true)
    (hlive : t.loopback = false) (hle : t.frameSize ≤ (t.layer3Bytes call).toNat)
    (hfits : 12 + t.frameSize ≤ 1500) : ∃ t' sent, t.audioInputCallback call = some (t', sent) ∧
      Outcome t.toAudioInput sent t'.toAudioInput := by
  obtain ⟨k, hk⟩ : ∃ k, (t.layer3Bytes call).toNat / t.frameSize = k := ⟨_, rfl⟩
  have hpos : 0 < k := hk ▸ Nat.div_pos hle h.frameSize
  have hlt : k < 2 ^ 32 := by
    have hbound : t.layer3Bytes call < 2 ^ 31 := BitVec.toInt_lt
    have hdiv : k ≤ (t.layer3Bytes call).toNat := hk ▸ Nat.div_le_self _ _
    omega
  obtain ⟨t₁, outbuf, hencode, hcounted⟩ := h.encodeFrame hk fun _ => hfits
  rw [if_neg (Nat.pos_iff_ne_zero.1 hpos), AudioInput.toInt_length hfits] at hencode
  exact ⟨_, _, audioInputCallback_eq hinput hlive hencode (by omega),
    .counted hpos hlt hfits hcounted ByteMemory.length_bytes rfl⟩

/-- Where no frame is complete nothing is counted, and the length is returned that nothing has set.
-/
theorem Encodes.encodeFrame_none (h : Encodes t call)
    (hlt : (t.layer3Bytes call).toNat < t.frameSize) : ∃ t' outbuf,
      t.encodeFrame call = some (t', outbuf, (call.outlen.setWidth 32).toInt) ∧
        Counted t.toAudioInput 0 0 t'.toAudioInput := by
  obtain ⟨t₁, outbuf, hencode, hcounted⟩ :=
    h.encodeFrame (Nat.div_eq_of_lt hlt) fun hpos => absurd hpos (Nat.lt_irrefl 0)
  rw [if_pos rfl] at hencode
  exact ⟨t₁, outbuf, hencode, hcounted.resize 0⟩

/-- A callback that completes no frame hands over what the length says that nothing has set. -/
theorem Encodes.sends_stray (h : Encodes t call) (hinput : call.hasInput = true)
    (hlive : t.loopback = false) (hlt : (t.layer3Bytes call).toNat < t.frameSize)
    (hlength : 0 < (call.outlen.setWidth 32).toInt) (hratio : 0 < t.streamRatio) :
    ∃ t' sent, t.audioInputCallback call = some (t', sent) ∧
      Outcome t.toAudioInput sent t'.toAudioInput := by
  obtain ⟨t₁, outbuf, hencode, hcounted⟩ := h.encodeFrame_none hlt
  obtain ⟨n, hn⟩ := Int.eq_ofNat_of_zero_le hlength.le
  obtain ⟨r, hr⟩ := Nat.exists_eq_add_one_of_ne_zero (Nat.pos_iff_ne_zero.1 hratio)
  rw [hn] at hencode
  have hsent : (List.replicate t₁.streamRatio (outbuf.bytes 0 n)).take 1 = [outbuf.bytes 0 n] := by
    rw [hcounted.streamRatio, hr, List.replicate_succ, List.take_succ_cons, List.take_zero]
  exact ⟨_, _, audioInputCallback_eq hinput hlive hencode (by omega), .stray hcounted hsent⟩

/-- A callback of Speex hands its packet over. -/
theorem sends_speex {mode : SpeexMode} (hspeex : t.format = .speex mode)
    (hcsrcs : t.header.csrcs = []) (hinput : call.hasInput = true) (hlive : t.loopback = false)
    (hfits : 12 + call.speex.length ≤ 1500) : ∃ t' sent,
      t.audioInputCallback call = some (t', sent) ∧
        Outcome t.toAudioInput sent t'.toAudioInput := by
  obtain ⟨t₁, outbuf, hencode, hcounted⟩ := encodeSpeexFrame_spec hcsrcs hfits
  have hencode' : t.encodeFrame call = some (t₁, outbuf,
      ((12 + call.speex.length : Nat) : Int)) := by
    simp only [encodeFrame, hspeex, hencode]
  exact ⟨_, _, audioInputCallback_eq hinput hlive hencode' (by omega),
    .counted (by decide) (by decide) hfits hcounted ByteMemory.length_bytes rfl⟩

/-- What a call of the callback sends is counted. -/
theorem audioInputCallback_sends (hcsrcs : t.header.csrcs = [])
    (hs : Sends t (.audioInputCallback call)) : ∃ t' sent,
      t.audioInputCallback call = some (t', sent) ∧
        Outcome t.toAudioInput sent t'.toAudioInput := by
  obtain ⟨hinput, hlive, hformat⟩ := hs
  split at hformat
  · next hlayer3 =>
      obtain ⟨hroom, hbytes, hsize, hframe⟩ := hformat
      have hencodes : Encodes t call := ⟨hlayer3, hcsrcs, hroom, hbytes, hsize⟩
      split at hframe
      · next hle => exact hencodes.sends_frames hinput hlive hle hframe
      · next hlt => exact hencodes.sends_stray hinput hlive (Nat.not_le.1 hlt) hframe.1 hframe.2
  · next mode hspeex => exact sends_speex hspeex hcsrcs hinput hlive hformat

/-- A call in which LAME fails counts nothing. -/
theorem encodeFrame_failed {outbuf : ByteMemory} {n : Int} (hlayer3 : t.format = .layer3)
    (hneg : t.layer3Bytes call < 0) (h : t.encodeFrame call = some (t', outbuf, n)) :
    n = 0 ∧ Counted t.toAudioInput 0 0 t'.toAudioInput := by
  have hfail : ¬ (BitVec.ofInt 32 call.ret + BitVec.ofNat 32 t.lameOffset).toInt ≥ 0 :=
    Int.not_le.2 hneg
  rw [encodeFrame, hlayer3] at h
  dsimp only at h
  split at h
  · rw [AudioInput.encodeLayer3Frame] at h
    simp only [if_neg hfail, Option.map_some, Option.some.injEq, Prod.mk.injEq] at h
    obtain ⟨rfl, -, rfl⟩ := h
    exact ⟨rfl, (Counted.refl _ _).keep _ _⟩
  · cases h

/-- Frames that do not fit overrun the packet buffer. -/
theorem Encodes.encodeFrame_overrun (h : Encodes t call)
    (hle : t.frameSize ≤ (t.layer3Bytes call).toNat) (hfits : ¬ 12 + t.frameSize ≤ 1500) :
    t.encodeFrame call = none := by
  have hpos : 0 < (t.layer3Bytes call).toNat / t.frameSize := Nat.div_pos hle h.frameSize
  have hbytes := h.bytes
  rw [layer3Bytes] at hbytes hpos
  rw [Sender.encodeFrame, h.layer3]
  dsimp only
  split
  · rw [AudioInput.encodeLayer3Frame]
    simp only [ge_iff_le, hbytes, if_true, AudioInput.writeLayer3Buffer,
      writeLayer3Blocks_none h.csrcs hfits hpos, Option.bind_eq_bind, Option.bind_none,
      Option.map_none]
  · rfl

/-- A call of Layer 3 that does not send counts nothing. -/
theorem encodeFrame_idle_layer3 {outbuf : ByteMemory} {n : Int} (hlayer3 : t.format = .layer3)
    (hcsrcs : t.header.csrcs = [])
    (hframe : Encodes t call → ¬ if t.frameSize ≤ (t.layer3Bytes call).toNat
      then 12 + t.frameSize ≤ 1500 else 0 < (call.outlen.setWidth 32).toInt ∧ 0 < t.streamRatio)
    (h : t.encodeFrame call = some (t', outbuf, n)) :
    (n ≤ 0 ∨ t.streamRatio = 0) ∧ Counted t.toAudioInput 0 0 t'.toAudioInput := by
  rcases Int.lt_or_le (t.layer3Bytes call) 0 with hneg | hbytes
  · obtain ⟨rfl, hcounted⟩ := encodeFrame_failed hlayer3 hneg h
    exact ⟨.inl (Int.le_refl 0), hcounted⟩
  · have hencodes : Encodes t call := by
      rw [encodeFrame, hlayer3] at h
      dsimp only at h
      split at h
      · next hguard => exact ⟨hlayer3, hcsrcs, hguard.1, hbytes, hguard.2 hbytes⟩
      · cases h
    have hnot := hframe hencodes
    split at hnot
    · next hle => exact absurd ((hencodes.encodeFrame_overrun hle hnot).symm.trans h) nofun
    · next hlt =>
        obtain ⟨t₁, outbuf₁, hone, hcounted⟩ := hencodes.encodeFrame_none (Nat.not_le.1 hlt)
        rw [h, Option.some.injEq, Prod.mk.injEq, Prod.mk.injEq] at hone
        obtain ⟨rfl, -, rfl⟩ := hone
        refine ⟨?_, hcounted⟩
        rcases Int.lt_or_le 0 (call.outlen.setWidth 32).toInt with hlength | hlength
        · exact .inr (Nat.eq_zero_of_not_pos fun hratio => hnot ⟨hlength, hratio⟩)
        · exact .inl hlength

/-- A callback that does not send counts nothing and hands nothing over. -/
theorem audioInputCallback_idle (hcsrcs : t.header.csrcs = [])
    (hs : ¬ Sends t (.audioInputCallback call)) (h : t.audioInputCallback call = some (t', sent)) :
    sent = [] ∧ Counted t.toAudioInput 0 0 t'.toAudioInput := by
  rw [audioInputCallback] at h
  split at h
  · next hlive =>
      obtain ⟨⟨t₁, outbuf, n⟩, hencode, h⟩ := Option.bind_eq_some_iff.1 h
      have hidle : (n ≤ 0 ∨ t.streamRatio = 0) ∧ Counted t.toAudioInput 0 0 t₁.toAudioInput := by
        cases hformat : t.format with
        | layer3 =>
            refine encodeFrame_idle_layer3 hformat hcsrcs (fun h hframe => hs ?_) hencode
            refine ⟨hlive.1, hlive.2, ?_⟩
            rw [hformat]
            exact ⟨h.room, h.bytes, h.frameSize, hframe⟩
        | speex mode =>
            have hfits : ¬ 4 * 3 + call.speex.length ≤ 1500 := by
              refine fun hfits => hs ⟨hlive.1, hlive.2, ?_⟩
              rw [hformat]
              exact hfits
            simp only [encodeFrame, hformat, encodeSpeexFrame, snd_writeBlock hcsrcs, if_neg hfits,
              reduceCtorEq] at hencode
      obtain ⟨hnone, hcounted⟩ := hidle
      dsimp only at h
      split at h
      · next hpos =>
          obtain ⟨rfl, rfl⟩ := Prod.mk.inj (Option.some.inj h)
          have hratio : t.streamRatio = 0 := by omega
          rw [hcounted.streamRatio, hratio]
          exact ⟨rfl, hcounted⟩
      · obtain ⟨rfl, rfl⟩ := Prod.mk.inj (Option.some.inj h)
        exact ⟨rfl, hcounted⟩
  · obtain ⟨rfl, rfl⟩ := Prod.mk.inj (Option.some.inj h)
    exact ⟨rfl, Counted.refl _ _⟩

end

/-! ## Runs -/

variable {t t' : Sender} {e : Event} {es : List Event}
  {tr out : List (List (List (BitVec 8)))}

/-- What a sender report says of the stream does not depend on what has been received. -/
theorem senderReport_fields (c : Codec) (ntp : BitVec 64) :
    (c.senderReport ntp).senderPacketCount = c.transmitPackets ∧
      (c.senderReport ntp).senderOctetCount = c.transmitOctets ∧
      (c.senderReport ntp).rtpTimestamp = 90000 * c.transmitPackets := by
  rw [Codec.senderReport]
  split
  · exact ⟨rfl, rfl, rfl⟩
  · exact ⟨rfl, rfl, rfl⟩

/-- A report leaves what it says of the stream. -/
theorem rtcpTransmitData_fields (c : Codec) (ntp : BitVec 64) (packet : ByteMemory) :
    (c.rtcpTransmitData ntp packet).1.transmitPackets = c.transmitPackets ∧
      (c.rtcpTransmitData ntp packet).1.transmitOctets = c.transmitOctets := by
  have hreported : (c.rtcpTransmitData ntp packet).1 = c.reported := rfl
  rw [hreported, Codec.reported]
  split
  · exact ⟨rfl, rfl⟩
  · exact ⟨rfl, rfl⟩

/-- Nothing has been counted or handed over since the connection. -/
structure Fresh (t : Sender) (tr : List (List (List (BitVec 8)))) : Prop where
  counted : t.codec.transmitPackets = 0#32
  octets : t.codec.transmitOctets = 0#32
  timestamp : t.header.timestamp = 0
  csrcs : t.header.csrcs = []
  sent : packets tr = []

/-- A report agrees then. -/
theorem Fresh.agrees (h : Fresh t tr) (ntp : BitVec 64) : Agrees t tr ntp := by
  obtain ⟨hpackets, hoctets, htimestamp⟩ := senderReport_fields t.codec ntp
  refine ⟨?_, ?_, ?_⟩
  · rw [hpackets, h.counted, h.sent]
    rfl
  · rw [hoctets, h.octets, payloadOctets, h.sent]
    rfl
  · rw [htimestamp, h.counted, h.timestamp]
    rfl

/-- A step that sends nothing changes nothing of it. -/
theorem Fresh.of_idle (h : Fresh t tr) (hs : ¬ Sends t e) (hstep : step t e = some (t', out)) :
    Fresh t' (tr ++ out) := by
  cases e with
  | audioInputCallback call =>
      obtain ⟨⟨t₁, sent⟩, hcall, heq⟩ := Option.map_eq_some_iff.1 hstep
      obtain ⟨rfl, rfl⟩ := Prod.mk.inj heq
      obtain ⟨rfl, hcounted⟩ := audioInputCallback_idle h.csrcs hs hcall
      refine ⟨?_, ?_, ?_, hcounted.csrcs.trans h.csrcs, ?_⟩
      · rw [hcounted.packets, h.counted]
        rfl
      · rw [hcounted.octets, h.octets]
        rfl
      · rw [hcounted.timestamp, h.timestamp]
        simp
      · rw [Sender.packets, List.flatMap_append, ← Sender.packets, h.sent]
        rfl
  | rtcpTransmitData ntp packet =>
      obtain ⟨rfl, rfl⟩ := Prod.mk.inj (Option.some.inj hstep)
      have hreported := rtcpTransmitData_fields t.codec ntp packet
      rw [List.append_nil]
      exact ⟨hreported.1.trans h.counted, hreported.2.trans h.octets, h.timestamp, h.csrcs, h.sent⟩
  | setLoopback state =>
      obtain ⟨rfl, rfl⟩ := Prod.mk.inj (Option.some.inj hstep)
      rw [List.append_nil]
      exact ⟨h.counted, h.octets, h.timestamp, h.csrcs, h.sent⟩

/-- Counts below the width are equal if they are as words. -/
theorem eq_of_ofNat_eq {a b : Nat} (ha : a < 2 ^ 32) (hb : b < 2 ^ 32)
    (h : BitVec.ofNat 32 a = BitVec.ofNat 32 b) : a = b := by
  have hnat := congrArg BitVec.toNat h
  rwa [BitVec.toNat_ofNat, BitVec.toNat_ofNat, Nat.mod_eq_of_lt ha, Nat.mod_eq_of_lt hb] at hnat

/-- A callback that sends makes the report wrong: it has counted more packets than it has handed
over, or fewer, or one of each, and then the octets include its header. -/
theorem Fresh.not_agrees (h : Fresh t tr) {sent : List (List (BitVec 8))} {ntp : BitVec 64}
    (hout : Outcome t.toAudioInput sent t'.toAudioInput) : ¬ Agrees t' (tr ++ [sent]) ntp := by
  intro hagrees
  obtain ⟨hpackets, hoctets, -⟩ := senderReport_fields t'.codec ntp
  have hsent : packets (tr ++ [sent]) = sent.take 1 := by
    rw [packets, List.flatMap_append, ← packets, h.sent, List.nil_append, List.flatMap_singleton]
  have hcount := hagrees.packets
  have hsum := hagrees.octets
  rw [hpackets, hsent] at hcount
  rw [hoctets, payloadOctets, hsent] at hsum
  cases hout with
  | @counted k size n packet hk hlt hsize hcounted hlength hcopies =>
      rw [hcounted.packets, h.counted, BitVec.zero_add] at hcount
      rw [hcounted.octets, h.octets, BitVec.zero_add] at hsum
      have htake : (sent.take 1).length ≤ 1 := List.length_take_le 1 sent
      have hone : k = (sent.take 1).length := eq_of_ofNat_eq hlt (by omega) hcount
      obtain ⟨m, rfl⟩ : ∃ m, n = m + 1 := by
        refine Nat.exists_eq_add_one_of_ne_zero fun hzero => ?_
        rw [hcopies, hzero] at hone
        exact absurd hone (Nat.pos_iff_ne_zero.1 hk)
      have hpayload : (AudioInput.payload packet).length = size := by
        rw [AudioInput.payload, List.length_drop, hlength, Nat.add_sub_cancel_left]
      rw [hcopies, List.replicate_succ, List.take_succ_cons, List.take_zero] at hone hsum
      rw [hone, List.map_singleton, List.sum_singleton, hpayload, List.length_singleton,
        Nat.one_mul] at hsum
      have hheader : 12 + size = size := eq_of_ofNat_eq (by omega) (by omega) hsum
      omega
  | stray hcounted htake =>
      rw [hcounted.packets, h.counted, htake] at hcount
      have hzero : (0 : Nat) = 1 := eq_of_ofNat_eq (by decide) (by decide) hcount
      exact absurd hzero (by decide)

/-- The transmitter as `connectToHost` leaves it has counted nothing. -/
theorem fresh_connectToHost (t : Sender) (format : SenderFormat) (rand : BitVec 16)
    (ssrc : BitVec 32) (frameSize streamRatio : Nat) :
    Fresh (t.connectToHost format rand ssrc frameSize streamRatio) [] := ⟨rfl, rfl, rfl, rfl, rfl⟩

/-- Behind a step that sends no report agrees. -/
theorem Fresh.of_sends (h : Fresh t tr) (hs : Sends t e) :
    ∃ t' out, step t e = some (t', out) ∧ ∀ ntp, ¬ Agrees t' (tr ++ out) ntp := by
  cases e with
  | audioInputCallback call =>
      obtain ⟨t', sent, hcall, hout⟩ := audioInputCallback_sends h.csrcs hs
      exact ⟨t', [sent], by rw [step, hcall]; rfl, fun ntp => h.not_agrees hout⟩
  | rtcpTransmitData ntp packet => exact hs.elim
  | setLoopback state => exact hs.elim

/-- The run lemma: as long as no step sends, nothing is counted. -/
theorem Fresh.runs (hfresh : Fresh t [])
    (hidle : ∀ pre e post t₁ tr, es = pre ++ e :: post → Runs step Always t pre t₁ tr →
      Fresh t₁ tr → ¬ Sends t₁ e)
    {pre post : List Event} (hes : es = pre ++ post) (hr : Runs step Always t pre t' tr) :
    Fresh t' tr := by
  refine hr.invariant_history (I := fun pre t' tr => (∃ post, es = pre ++ post) → Fresh t' tr)
    (fun _ => hfresh) ?_ ⟨post, hes⟩
  rintro pre t₁ tr e t₂ out hr ih - hstep ⟨post, hes⟩
  have hcons : es = pre ++ e :: post := by rw [hes, List.append_assoc, List.singleton_append]
  have h := ih ⟨e :: post, hcons⟩
  exact h.of_idle (hidle _ _ _ _ _ hcons hr h) hstep

/-- **The reports of a call agree with the stream at every point if and only if no callback of it
makes a packet or hands one over.** -/
theorem reportsAgree_iff (t : Sender) (format : SenderFormat) (rand : BitVec 16) (ssrc : BitVec 32)
    (frameSize streamRatio : Nat) (es : List Event) :
    ReportsAgree (t.connectToHost format rand ssrc frameSize streamRatio) es ↔
      Throughout step (fun t e => ¬ Sends t e)
        (t.connectToHost format rand ssrc frameSize streamRatio) es := by
  have hfresh := fresh_connectToHost t format rand ssrc frameSize streamRatio
  constructor
  · intro hagree
    have hidle : ∀ pre e post t₁ tr, es = pre ++ e :: post →
        Runs step Always (t.connectToHost format rand ssrc frameSize streamRatio) pre t₁ tr →
        Fresh t₁ tr → ¬ Sends t₁ e := by
      intro pre e post t₁ tr hes hr h hs
      obtain ⟨t₂, out, hstep, hwrong⟩ := h.of_sends hs
      have hes' : es = (pre ++ [e]) ++ post := by rw [hes, List.append_assoc, List.singleton_append]
      exact hwrong 0 (hagree _ _ _ _ 0 hes' (hr.snoc trivial hstep))
    intro pre e post t₁ tr hes hr
    exact hidle pre e post t₁ tr hes hr (hfresh.runs hidle hes hr)
  · intro hidle pre post t₁ tr ntp hes hr
    exact (hfresh.runs (fun pre e post t₁ tr hes hr _ => hidle pre e post t₁ tr hes hr) hes
      hr).agrees ntp

/-- A transmitter before its first connection. -/
def idle : Sender where
  toAudioInput := AudioInput.small
  format := .layer3

/-- One frame of Speex: the report counts 21 octets, 12 of which are the header. -/
theorem reportsAgree_fails : ¬ ∀ (t : Sender) (format : SenderFormat) (rand : BitVec 16)
    (ssrc : BitVec 32) (frameSize streamRatio : Nat) (es : List Event),
      ReportsAgree (t.connectToHost format rand ssrc frameSize streamRatio) es := by
  intro hall
  let call : SenderCall :=
    { lame := [], ret := 0, buf := fun _ => 0, outbuf := fun _ => 0, outlen := 0,
      speex := [1, 2, 3, 4, 5, 6, 7, 8, 9] }
  obtain ⟨t', tr, hs, hoctets, hpayload⟩ : ∃ t' tr,
      step (idle.connectToHost (.speex .narrow) 0 7 576 1) (.audioInputCallback call) =
        some (t', tr) ∧ (t'.codec.senderReport 0).senderOctetCount = 21 ∧ payloadOctets tr = 9 :=
    ⟨_, _, rfl, rfl, rfl⟩
  have h := (hall idle (.speex .narrow) 0 7 576 1 [.audioInputCallback call] _ [] t' tr 0 rfl
    (Runs.single trivial hs)).octets
  rw [hoctets, hpayload] at h
  exact absurd h (by decide)

/-! ## The timestamp -/

/-- Every step counts some packets, or none. -/
theorem step_counted (hcsrcs : t.header.csrcs = []) (hstep : step t e = some (t', out)) :
    ∃ k size, Counted t.toAudioInput k size t'.toAudioInput := by
  cases e with
  | audioInputCallback call =>
      obtain ⟨⟨t₁, sent⟩, hcall, heq⟩ := Option.map_eq_some_iff.1 hstep
      obtain ⟨rfl, rfl⟩ := Prod.mk.inj heq
      rcases Classical.em (Sends t (.audioInputCallback call)) with hs | hs
      · obtain ⟨t₂, sent₂, hcall₂, hout⟩ := audioInputCallback_sends hcsrcs hs
        obtain ⟨rfl, -⟩ := Prod.mk.inj (Option.some.inj (hcall₂.symm.trans hcall))
        cases hout with
        | counted _ _ _ h => exact ⟨_, _, h⟩
        | stray h => exact ⟨_, _, h⟩
      · exact ⟨_, _, (audioInputCallback_idle hcsrcs hs hcall).2⟩
  | rtcpTransmitData ntp packet =>
      obtain ⟨rfl, -⟩ := Prod.mk.inj (Option.some.inj hstep)
      have hreported := rtcpTransmitData_fields t.codec ntp packet
      have h := Counted.refl t.toAudioInput 0
      exact ⟨0, 0, hreported.1.trans h.packets, hreported.2.trans h.octets, h.timestamp, h.interval,
        h.csrcs, h.frameSize, h.streamRatio⟩
  | setLoopback state =>
      obtain ⟨rfl, -⟩ := Prod.mk.inj (Option.some.inj hstep)
      have h := Counted.refl t.toAudioInput 0
      exact ⟨0, 0, h.packets, h.octets, h.timestamp, h.interval, h.csrcs, h.frameSize,
        h.streamRatio⟩

/-- What every run keeps: the timestamp moves on by its interval with each packet that is counted.
-/
structure Clocked (interval : BitVec 32) (t : Sender) : Prop where
  csrcs : t.header.csrcs = []
  clock : t.header.timestampInterval = interval
  timestamp : t.header.timestamp = interval * t.codec.transmitPackets

/-- The clock goes on over every event. -/
theorem Clocked.step {interval : BitVec 32} (h : Clocked interval t)
    (hstep : Sender.step t e = some (t', out)) : Clocked interval t' := by
  obtain ⟨k, size, hcounted⟩ := step_counted h.csrcs hstep
  refine ⟨hcounted.csrcs.trans h.csrcs, hcounted.interval.trans h.clock, ?_⟩
  rw [hcounted.timestamp, hcounted.packets, h.timestamp, h.clock, BitVec.mul_add]

/-- **In every run with Layer 3, however long, the timestamp of a report is that of the header.** -/
theorem timestamp_of_runs {rand : BitVec 16} {ssrc : BitVec 32} {frameSize streamRatio : Nat}
    (hr : Runs step Always (t.connectToHost .layer3 rand ssrc frameSize streamRatio) es t' tr)
    (ntp : BitVec 64) : (t'.codec.senderReport ntp).rtpTimestamp = t'.header.timestamp := by
  have h : Clocked 90000 t' := by
    refine hr.invariant (I := Clocked 90000) ⟨rfl, rfl, rfl⟩ ?_
    rintro t₁ e t₂ out h - hstep
    exact h.step hstep
  rw [(senderReport_fields _ _).2.2, h.timestamp]

end Sender

end NetISDN

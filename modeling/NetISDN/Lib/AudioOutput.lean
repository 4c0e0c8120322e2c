import NetISDN.Lib.Codec
import NetISDN.Lib.RingBuffer
import NetISDN.Rtp.Header

/-!
# The output callback

`AudioOutputCallback` (`codec.cpp:123`): PortAudio calls it for each block of samples that it is to
play. It empties the RTP socket, decodes what is in order into the ring buffer, and plays from there
once enough has gathered. The decoder and the resampler are arbitrary: each datagram comes with the
PCM that they make of it, should it be passed to them. The meters and the resampling ratio are left
out.
-/

namespace NetISDN

open TransitionSystem

/-- A datagram, and the PCM that the decoder and the resampler make of it. -/
structure Arrival where
  datagram : List (BitVec 8)
  pcm : List (BitVec 8)

/-- What the output callback does to the world. -/
inductive AudioEvent where
  /-- A datagram is read from the RTP socket, and `frame` is passed to `DecodeFrame`, unless there
  is nothing in it. -/
  | received (datagram frame : List (BitVec 8))
  /-- The PCM of a decoded frame is handed to the ring buffer, which takes its first `taken`
  bytes. -/
  | resampled (pcm : List (BitVec 8)) (taken : Nat)
  /-- A value is added to the average of the phase-locked loop. -/
  | addValue (step : Int)
  /-- A block is copied from the ring buffer to the output. -/
  | played (block : List (BitVec 8))
  /-- The output is cleared before the ring buffer has filled up. -/
  | muted
  /-- `Silence`. -/
  | silence
  /-- A datagram is sent back. -/
  | echoed (datagram : List (BitVec 8))
  deriving DecidableEq

/-- What the callback works on: the codec, its ring buffer, its receive channels, its setpoint and
its loopback flag, and the datagrams in the RTP socket. -/
structure AudioOutput where
  codec : Codec
  ring : RingBuffer
  channels : BitVec 32
  bufferSetpoint : BitVec 32
  loopback : Bool
  socket : List Arrival

/-- A call of the callback: what has arrived before it, how many frames are to be played, whether
there is a buffer for them, what `buf` holds and what the constructor of the header draws. -/
structure Callback where
  arrivals : List Arrival
  frameCount : BitVec 64
  hasOutput : Bool := true
  buf : ByteMemory := fun _ => 0
  rand : BitVec 16 := 0

/-- The order of a packet, and the receiver's statistics (`codec.cpp:177`); also whether its
payload goes on to the decoder. The sequence numbers are compared as `int`s. -/
def Codec.trackSequence (c : Codec) (ssrc : BitVec 32) (seq : BitVec 16) : Codec × Bool :=
  if ssrc = c.recvSsrc then
    let (c, accepted) :=
      if seq.toNat ≠ c.recvSequenceLoNumber.toNat + 1 then
        if seq ≠ c.recvSequenceLoNumber then
          ({ c with
              recvTotalPacketsLost := c.recvTotalPacketsLost + 1
              recvIntervalPacketsLost := c.recvIntervalPacketsLost + 1 },
            false)
        else (c, false)
      else (c, true)
    if seq > c.recvSequenceLoNumber then ({ c with recvSequenceLoNumber := seq }, accepted)
    else if c.recvSequenceLoNumber.toNat > 0xff00 ∧
        seq.toNat < c.recvSequenceLoNumber.toNat - 0xff00 then
      -- sequence number rolled over
      ({ c with
          recvSequenceLoNumber := seq
          recvSequenceHiNumber := c.recvSequenceHiNumber + 1
          recvLastSequenceNumber := 0 },
        accepted)
    else (c, false)
  else
    ({ c with
        recvSsrc := ssrc
        recvTotalPacketsLost := 0
        recvIntervalPacketsLost := 0
        recvSequenceLoNumber := seq
        recvLastSequenceNumber := seq
        recvStartSequenceNumber := seq.setWidth 32
        recvNtpTimestamp := 0
        recvStartPacketCount := 0 },
      true)

namespace AudioOutput

/-- What becomes of the bytes that are passed on from a datagram (`codec.cpp:224`). -/
def processFrame (a : AudioOutput) (arrival : Arrival) (frame : List (BitVec 8)) :
    Option (AudioOutput × List AudioEvent) :=
  if frame.length > 0 then do
    let (ring, taken) ← a.ring.write arrival.pcm (BitVec.ofNat 64 arrival.pcm.length)
    return ({ a with ring := ring },
      [.received arrival.datagram frame, .resampled arrival.pcm taken.toNat])
  else some (a, [.received arrival.datagram frame])

/-- One turn of the loop that fills the ring buffer (`codec.cpp:163`): the first `n` bytes of `buf`
are from the socket. -/
def receivePacket (a : AudioOutput) (rand : BitVec 16) (buf : ByteMemory) (n : Nat)
    (arrival : Arrival) : Option (AudioOutput × List AudioEvent) :=
  if n > 8 then
    let (hdr, words) := (mpaHeader rand).readBlock rand buf 0 (BitVec.ofNat 32 (n / 4))
    let l := 4 * words
    let (codec, accepted) := a.codec.trackSequence hdr.ssrc hdr.sequenceNumber
    let frame := if accepted then buf.bytes l (n - l) else []
    processFrame { a with codec := codec } arrival frame
  else some (a, [])

/-- The loop (`codec.cpp:161`): it ends at an empty datagram, or when there is none. -/
def fillRing (a : AudioOutput) (rand : BitVec 16) (buf : ByteMemory) :
    List Arrival → Option (AudioOutput × List AudioEvent)
  | [] => some ({ a with socket := [] }, [])
  | arrival :: rest =>
      let block := arrival.datagram.take 1500
      if block.length = 0 then some ({ a with socket := rest }, [])
      else do
        let buf := buf.setBytes 0 block
        let (a, out) ← a.receivePacket rand buf block.length arrival
        let (a, more) ← a.fillRing rand buf rest
        return (a, out ++ more)

/-- The bytes of a block: `2*frameCount*channels`. -/
def blockSize (a : AudioOutput) (frameCount : BitVec 64) : BitVec 64 :=
  2 * frameCount * a.channels.setWidth 64

/-- What the callback plays (`codec.cpp:261`). -/
def playOut (a : AudioOutput) (frameCount : BitVec 64) : Option (AudioOutput × List AudioEvent) :=
  let size := a.blockSize frameCount
  let setpoint := size * a.bufferSetpoint.setWidth 64
  if a.ring.readSpace < setpoint ∧ a.codec.locked = false then some (a, [.muted])
  else
    let pll := AudioEvent.addValue (if a.ring.readSpace < setpoint then 400 else -400)
    if a.ring.readSpace ≥ size then do
      let (ring, _, block) ← a.ring.read size
      return ({ a with ring := ring, codec := { a.codec with locked := true } },
        [pll, .played block])
    else some ({ a with codec := { a.codec with locked := false } }, [pll, .silence])

/-- The loop of the loopback (`codec.cpp:145`). -/
def loopBack (a : AudioOutput) : List Arrival → AudioOutput × List AudioEvent
  | [] => ({ a with socket := [] }, [])
  | arrival :: rest =>
      let block := arrival.datagram.take 1500
      if block.length = 0 then ({ a with socket := rest }, [])
      else
        let (a, more) := loopBack { a with codec := { a.codec with locked := false } } rest
        (a, [.echoed block, .silence] ++ more)

/-- `AudioOutputCallback` (`codec.cpp:123`). -/
def audioOutputCallback (a : AudioOutput) (cb : Callback) :
    Option (AudioOutput × List AudioEvent) :=
  let a := { a with socket := a.socket ++ cb.arrivals }
  if a.loopback then some (a.loopBack a.socket)
  else if cb.hasOutput = false then some (a, [])
  else do
    let (a, out) ← a.fillRing cb.rand cb.buf a.socket
    let (a, played) ← a.playOut cb.frameCount
    return (a, out ++ played)

/-! ## The callback returns -/

variable {a a' : AudioOutput} {cb : Callback} {rand : BitVec 16} {buf : ByteMemory} {n : Nat}
  {arrival : Arrival} {arrivals : List Arrival} {out : List AudioEvent}

/-- The bytes handed to the ring buffer are there. -/
theorem toNat_length_le (pcm : List (BitVec 8)) :
    (BitVec.ofNat 64 pcm.length).toNat ≤ pcm.length := by
  rw [BitVec.toNat_ofNat]
  exact Nat.mod_le _ _

/-- A frame is always processed, and the ring stays well formed. -/
theorem exists_processFrame (h : a.ring.WellFormed) (arrival : Arrival)
    (frame : List (BitVec 8)) : ∃ a' out, a.processFrame arrival frame = some (a', out) ∧
      a'.ring.WellFormed := by
  rw [processFrame]
  split
  · obtain ⟨ring, taken, hwrite, -, hring, -⟩ := h.write_spec (toNat_length_le arrival.pcm)
    exact ⟨_, _, by rw [hwrite]; rfl, hring⟩
  · exact ⟨_, _, rfl, h⟩

/-- A packet is always received, and the ring stays well formed. -/
theorem exists_receivePacket (h : a.ring.WellFormed) (rand : BitVec 16) (buf : ByteMemory) (n : Nat)
    (arrival : Arrival) : ∃ a' out, a.receivePacket rand buf n arrival = some (a', out) ∧
      a'.ring.WellFormed := by
  rw [receivePacket]
  split
  · dsimp only
    refine exists_processFrame ?_ arrival _
    exact h
  · exact ⟨_, _, rfl, h⟩

/-- The ring is always filled, and stays well formed. -/
theorem exists_fillRing (h : a.ring.WellFormed) (rand : BitVec 16) (buf : ByteMemory)
    (arrivals : List Arrival) : ∃ a' out, a.fillRing rand buf arrivals = some (a', out) ∧
      a'.ring.WellFormed := by
  induction arrivals generalizing a buf with
  | nil => exact ⟨_, _, rfl, h⟩
  | cons arrival rest ih =>
      rw [fillRing]
      split
      · exact ⟨_, _, rfl, h⟩
      · obtain ⟨a₁, out₁, hpacket, h₁⟩ := exists_receivePacket h rand
          (buf.setBytes 0 (arrival.datagram.take 1500)) (arrival.datagram.take 1500).length arrival
        obtain ⟨a₂, out₂, hfill, h₂⟩ := ih h₁ (buf.setBytes 0 (arrival.datagram.take 1500))
        refine ⟨a₂, out₁ ++ out₂, ?_, h₂⟩
        simp only [hpacket, hfill, Option.bind_eq_bind, Option.bind_some, Option.pure_def]

/-- Something is always played out, and the ring stays well formed. -/
theorem exists_playOut (h : a.ring.WellFormed) (frameCount : BitVec 64) :
    ∃ a' out, a.playOut frameCount = some (a', out) ∧ a'.ring.WellFormed := by
  obtain ⟨ring, n, hread, -, hring, -⟩ := h.read_spec (a.blockSize frameCount)
  simp only [playOut, hread, Option.bind_eq_bind, Option.bind_some, Option.pure_def]
  generalize AudioEvent.addValue _ = pll
  split
  · exact ⟨_, _, rfl, h⟩
  · split
    · exact ⟨_, _, rfl, hring⟩
    · exact ⟨_, _, rfl, h⟩

/-- The callback while there is neither a loopback nor a missing output: the ring buffer is filled,
and then played from. -/
theorem audioOutputCallback_eq_some_iff (hloop : a.loopback = false) (hout : cb.hasOutput = true) :
    a.audioOutputCallback cb = some (a', out) ↔ ∃ a₁ filled played,
      { a with socket := a.socket ++ cb.arrivals }.fillRing cb.rand cb.buf
        (a.socket ++ cb.arrivals) = some (a₁, filled) ∧
      a₁.playOut cb.frameCount = some (a', played) ∧ out = filled ++ played := by
  rw [audioOutputCallback]
  simp only [hloop, hout, Bool.false_eq_true, Bool.true_eq_false, if_false, Option.bind_eq_bind,
    Option.bind_eq_some_iff, Prod.exists, Option.pure_def, Option.some.injEq, Prod.mk.injEq]
  constructor
  · rintro ⟨a₁, filled, hfill, a₂, played, hplay, rfl, rfl⟩
    exact ⟨a₁, filled, played, hfill, hplay, rfl⟩
  · rintro ⟨a₁, filled, played, hfill, hplay, rfl⟩
    exact ⟨a₁, filled, hfill, a', played, hplay, rfl, rfl⟩

/-- With a well formed ring buffer the callback returns, and leaves one. -/
theorem exists_audioOutputCallback (h : a.ring.WellFormed) (hloop : a.loopback = false)
    (hout : cb.hasOutput = true) :
    ∃ a' out, a.audioOutputCallback cb = some (a', out) ∧ a'.ring.WellFormed := by
  obtain ⟨a₁, filled, hfill, h₁⟩ := exists_fillRing
    (a := { a with socket := a.socket ++ cb.arrivals }) h cb.rand cb.buf (a.socket ++ cb.arrivals)
  obtain ⟨a₂, played, hplay, h₂⟩ := exists_playOut h₁ cb.frameCount
  exact ⟨a₂, filled ++ played, (audioOutputCallback_eq_some_iff hloop hout).2
    ⟨a₁, filled, played, hfill, hplay, rfl⟩, h₂⟩

end AudioOutput

end NetISDN

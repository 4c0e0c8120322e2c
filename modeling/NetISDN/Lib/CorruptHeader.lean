import NetISDN.Lib.AudioOutput

/-!
# Packets with a corrupt header

`RTPHeader::readBlock` returns 0 for a header that is longer than its packet, but has filled in its
fields by then. `AudioOutputCallback` takes the 0 for the length of the header and goes on: it
tracks the source and the number that were read, and with a number it accepts, the whole packet is
passed to `DecodeFrame`. So such a packet has no effect if and only if it seems to repeat the last
one of the source that is followed (`ignoresCorrupt_iff`).
-/

namespace NetISDN

namespace Codec

variable {c : Codec} {ssrc : BitVec 32} {seq : BitVec 16}

/-- A number that is not expected is counted as a loss. -/
theorem lost_trackSequence (hnext : seq.toNat ≠ c.recvSequenceLoNumber.toNat + 1)
    (hlast : seq ≠ c.recvSequenceLoNumber) :
    (c.trackSequence c.recvSsrc seq).1.recvTotalPacketsLost = c.recvTotalPacketsLost + 1 := by
  rw [trackSequence, if_pos rfl, if_pos hnext, if_pos hlast]
  dsimp only
  split
  · rfl
  · split <;> rfl

/-- The expected number is the last one from now on. -/
theorem lo_trackSequence (hnext : seq.toNat = c.recvSequenceLoNumber.toNat + 1) :
    (c.trackSequence c.recvSsrc seq).1.recvSequenceLoNumber = seq := by
  have hgt : seq > c.recvSequenceLoNumber := by
    rw [gt_iff_lt, BitVec.lt_def]
    omega
  rw [trackSequence, if_pos rfl, if_neg (not_not.2 hnext)]
  dsimp only
  rw [if_pos hgt]

/-- A packet that repeats the last one changes nothing, and is not accepted. -/
theorem trackSequence_again (c : Codec) :
    c.trackSequence c.recvSsrc c.recvSequenceLoNumber = (c, false) := by
  have hnext : c.recvSequenceLoNumber.toNat ≠ c.recvSequenceLoNumber.toNat + 1 := by omega
  have hroll : ¬ (c.recvSequenceLoNumber.toNat > 0xff00 ∧
      c.recvSequenceLoNumber.toNat < c.recvSequenceLoNumber.toNat - 0xff00) := by omega
  rw [trackSequence, if_pos rfl, if_pos hnext, if_neg (not_not.2 rfl)]
  dsimp only
  rw [if_neg (BitVec.lt_irrefl _), if_neg hroll]

/-- Nothing else changes nothing. -/
theorem trackSequence_eq_self :
    (c.trackSequence ssrc seq).1 = c ↔ ssrc = c.recvSsrc ∧ seq = c.recvSequenceLoNumber := by
  constructor
  · intro h
    by_cases hssrc : ssrc = c.recvSsrc
    · subst hssrc
      refine ⟨rfl, ?_⟩
      by_contra hlast
      by_cases hnext : seq.toNat = c.recvSequenceLoNumber.toNat + 1
      · have hlo := lo_trackSequence hnext
        rw [h] at hlo
        exact hlast hlo.symm
      · have hlost := lost_trackSequence hnext hlast
        rw [h] at hlost
        bv_omega
    · have hnew := congrArg Codec.recvSsrc h
      rw [trackSequence, if_neg hssrc] at hnew
      exact absurd hnew hssrc
  · rintro ⟨rfl, rfl⟩
    rw [trackSequence_again]

end Codec

namespace AudioOutput

/-- What the header is read to be in the packet buffer, and its length in words. -/
def headerOf (rand : BitVec 16) (buf : ByteMemory) (n : Nat) : RTPHeader × Nat :=
  (mpaHeader rand).readBlock rand buf 0 (BitVec.ofNat 32 (n / 4))

/-- A turn of the loop of `AudioOutputCallback` has no effect: the codec with its statistics and the
ring buffer are as before, and nothing has been passed to `DecodeFrame`. -/
def Ignores (a : AudioOutput) (turn : Option (AudioOutput × List AudioEvent)) : Prop :=
  ∃ a' out, turn = some (a', out) ∧ a'.codec = a.codec ∧ a'.ring = a.ring ∧
    ∀ datagram frame, .received datagram frame ∈ out → frame = []

variable {a : AudioOutput} {rand : BitVec 16} {buf : ByteMemory} {n : Nat} {arrival : Arrival}

/-- A packet that is read: its number is tracked, and what is accepted of it is processed. -/
theorem receivePacket_eq (hn : 8 < n) : a.receivePacket rand buf n arrival =
    processFrame { a with codec := (a.codec.trackSequence (headerOf rand buf n).1.ssrc
        (headerOf rand buf n).1.sequenceNumber).1 } arrival
      (if (a.codec.trackSequence (headerOf rand buf n).1.ssrc
          (headerOf rand buf n).1.sequenceNumber).2 then
        buf.bytes (4 * (headerOf rand buf n).2) (n - 4 * (headerOf rand buf n).2) else []) := by
  rw [receivePacket, if_pos hn]
  rfl

/-- The decoder does not touch the statistics. -/
theorem codec_processFrame {a' : AudioOutput} {frame : List (BitVec 8)} {out : List AudioEvent}
    (h : a.processFrame arrival frame = some (a', out)) : a'.codec = a.codec := by
  rw [processFrame] at h
  split at h
  · simp only [Option.bind_eq_bind, Option.bind_eq_some_iff, Option.pure_def, Option.some.injEq,
      Prod.mk.injEq] at h
    obtain ⟨_, -, rfl, -⟩ := h
    rfl
  · obtain ⟨rfl, -⟩ := Prod.mk.inj (Option.some.inj h)
    rfl

/-- **A packet whose header is corrupt has no effect if and only if its header shows the source that
is followed and the last number of it.** -/
theorem ignoresCorrupt_iff (a : AudioOutput) (rand : BitVec 16) (buf : ByteMemory) (n : Nat)
    (arrival : Arrival) (hn : 8 < n) (_hcorrupt : (headerOf rand buf n).2 = 0) :
    a.Ignores (a.receivePacket rand buf n arrival) ↔
      (headerOf rand buf n).1.ssrc = a.codec.recvSsrc ∧
        (headerOf rand buf n).1.sequenceNumber = a.codec.recvSequenceLoNumber := by
  rw [receivePacket_eq hn]
  constructor
  · rintro ⟨a', out, hturn, hcodec, -, -⟩
    rw [codec_processFrame hturn] at hcodec
    exact Codec.trackSequence_eq_self.1 hcodec
  · rintro ⟨hssrc, hseq⟩
    rw [hssrc, hseq, Codec.trackSequence_again]
    refine ⟨a, [.received arrival.datagram []], rfl, rfl, rfl, fun datagram frame hmem => ?_⟩
    exact (AudioEvent.received.inj (List.mem_singleton.1 hmem)).2

/-- A receiver that follows source 7, whose last packet was number 5. -/
def following : AudioOutput where
  codec := { recvSsrc := 7, recvSequenceLoNumber := 5 }
  ring := { buf := fun _ => 0, size := 8, sizeMask := 7, readPtr := 0, writePtr := 0 }
  channels := 1
  bufferSetpoint := 1
  loopback := false
  socket := []

/-- A packet of twelve bytes that declares one contributing source. -/
def tooShort (number : BitVec 8) : ByteMemory :=
  ByteMemory.setBytes (fun _ => 0) 0 [0x81, 0, 0, number, 0, 0, 0, 0, 0, 0, 0, 7]

/-- A datagram that ends before its header does is ignored. -/
theorem ignoresCorrupt_iff_demo :
    following.Ignores (following.receivePacket 0 (tooShort 5) 12 ⟨[], []⟩) :=
  (ignoresCorrupt_iff following 0 (tooShort 5) 12 ⟨[], []⟩ (by decide) (by decide)).2
    ⟨by decide, by decide⟩

/-- The next number is accepted, and the packet with its header passed on. -/
theorem ignoresCorrupt_fails : ¬ ∀ (a : AudioOutput) (rand : BitVec 16) (buf : ByteMemory) (n : Nat)
    (arrival : Arrival), 8 < n → (headerOf rand buf n).2 = 0 →
      a.Ignores (a.receivePacket rand buf n arrival) := by
  intro hall
  obtain ⟨a', out, hturn, hcodec, -, -⟩ :=
    hall following 0 (tooShort 6) 12 ⟨[], []⟩ (by decide) (by decide)
  rw [receivePacket_eq (by decide)] at hturn
  rw [codec_processFrame hturn] at hcodec
  exact absurd (Codec.trackSequence_eq_self.1 hcodec).2 (by decide)

end AudioOutput

end NetISDN

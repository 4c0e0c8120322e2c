import NetISDN.Qt.QHostAddress
import NetISDN.Rtp.ControlHeader

/-!
# The codec

`Codec` (`codec.cpp`) as far as its connection and its RTCP traffic go: `connectToHost` and
`disconnect`, the compound packet that `GenerateRtcpPacket` makes, and what `rtcpReceiveData` does
with one it receives. Audio, the meters and the counters of the statistics window are left out.
-/

namespace NetISDN

/-- `Codec::ConnectionState` (`codec.h:92`). -/
inductive ConnectionState where
  | idle
  | connecting
  | connected
  deriving DecidableEq, Repr

/-- What a codec emits, or writes to its RTCP socket. -/
inductive CodecEvent where
  | connectionStateChanged (state : ConnectionState)
  | locked (state : Bool)
  | gpioChanged (line : Nat) (state : Bool)
  | rtcp (datagram : List (BitVec 8))
  deriving DecidableEq, Repr

/-- `CodecStats` (`codec_stats.h:32`), where the reports of the far end go. -/
structure CodecStats where
  transmitCname : List (BitVec 8) := []
  receptionCname : List (BitVec 8) := []
  name : List (BitVec 8) := []
  email : List (BitVec 8) := []
  phone : List (BitVec 8) := []
  location : List (BitVec 8) := []
  tool : List (BitVec 8) := []
  note : List (BitVec 8) := []
  receptionSsrc : BitVec 32 := 0
  receptionPacketsSent : BitVec 32 := 0
  transmitPacketsLost : BitVec 32 := 0
  transmitFractionLost : ℚ := 0

/-- `Codec` (`codec.h:87`). The source of the transmit header stands for the header. -/
structure Codec where
  connectionState : ConnectionState := .idle
  locked : Bool := false
  transmitSsrc : BitVec 32 := 0
  transmitCname : List (BitVec 8) := []
  transmitPackets : BitVec 32 := 0
  transmitOctets : BitVec 32 := 0
  recvSsrc : BitVec 32 := 0
  recvTotalPacketsLost : BitVec 32 := 0
  recvIntervalPacketsLost : BitVec 32 := 0
  recvStartSequenceNumber : BitVec 32 := 0
  recvStartPacketCount : BitVec 32 := 0
  recvLastSequenceNumber : BitVec 16 := 0
  recvSequenceLoNumber : BitVec 16 := 0
  recvSequenceHiNumber : BitVec 16 := 0
  recvNtpTimestamp : BitVec 64 := 0
  transGpio : BitVec 32 := 0
  recvGpio : BitVec 32 := 0
  stats : CodecStats := {}

namespace Codec

/-! ## The compound packet -/

/-- The reception block of `GenerateRtcpPacket` (`codec.cpp:1600`). -/
def receptionBlock (c : Codec) : RTPReceptionBlock :=
  { ssrc := c.transmitSsrc
    fractionPacketsLost := (c.recvIntervalPacketsLost.toNat : ℚ) /
      ((c.recvSequenceLoNumber.toNat - c.recvLastSequenceNumber.toNat : Nat) : ℚ)
    cumulativePacketsLost := c.recvTotalPacketsLost
    highestSequenceNumber :=
      (c.recvSequenceHiNumber.setWidth 32 <<< 16) |||
        (0xffff#32 &&& c.recvSequenceLoNumber.setWidth 32)
    lastSendReportTimestamp := (0xffffffff#64 &&& (c.recvNtpTimestamp >>> 16)).setWidth 32
    sendReportDelay := 0 }

/-- The sender report of `GenerateRtcpPacket` (`codec.cpp:1591`). -/
def senderReport (c : Codec) (ntp : BitVec 64) : RTPSenderReport :=
  let sr := { RTPSenderReport.new c.transmitSsrc 2 with
    ntpTimestamp := ntp
    rtpTimestamp := 90000 * c.transmitPackets
    senderPacketCount := c.transmitPackets
    senderOctetCount := c.transmitOctets }
  if c.recvSequenceLoNumber > c.recvLastSequenceNumber then sr.addReceptionBlock c.receptionBlock
  else sr

/-- What `GenerateRtcpPacket` does to the counters once it has reported them
(`codec.cpp:1610`). -/
def reported (c : Codec) : Codec :=
  if c.recvSequenceLoNumber > c.recvLastSequenceNumber then
    { c with recvIntervalPacketsLost := 0, recvLastSequenceNumber := c.recvSequenceLoNumber }
  else c

/-- The GPIO data: a tag, its length before it, and the mask. -/
def gpioData (mask : BitVec 32) : List (BitVec 8) :=
  [4, 0x47, 0x50, 0x49, 0x4f, (mask >>> 24).setWidth 8, (mask >>> 16).setWidth 8,
    (mask >>> 8).setWidth 8, mask.setWidth 8]

/-- The source description of `GenerateRtcpPacket` (`codec.cpp:1614`). -/
def sourceDescription (c : Codec) : RTPSourceDescription :=
  let sd : RTPSourceDescription := {}
  let sd := (sd.addChunk chunkCname c.transmitSsrc c.transmitCname).1
  (sd.addChunk chunkPriv c.transmitSsrc (gpioData c.transGpio)).1

/-- `GenerateRtcpPacket` (`codec.cpp:1585`), at the time whose stamp is `ntp`. -/
def generateRtcpPacket (c : Codec) (ntp : BitVec 64) (packet : ByteMemory) (len : Nat) :
    Codec × ByteMemory × Nat :=
  let (packet, n) := (c.senderReport ntp).writeBlock packet 0 len
  let (packet, k) := c.sourceDescription.writeBlock packet (4 * n) (len - n)
  (c.reported, packet, n + k)

/-- The packet that `disconnect` sends: another one with a BYE (`codec.cpp:625`). -/
def byePacket (c : Codec) (ntp : BitVec 64) (packet : ByteMemory) : Codec × ByteMemory × Nat :=
  let (c, packet, n) := c.generateRtcpPacket ntp packet 1500
  let bye := (({} : RTPBye).addSsrc c.transmitSsrc).1
  let (packet, k) := bye.writeBlock packet (4 * n) (1500 - n)
  (c, packet, n + k)

/-! ## Connection state -/

/-- `SetConnectionState` (`codec.cpp:1666`). -/
def setConnectionState (c : Codec) (state : ConnectionState) : Codec × List CodecEvent :=
  ({ c with connectionState := state }, [.connectionStateChanged state])

/-- `disconnect` (`codec.cpp:604`). The packet is made in the buffer `packet`, whatever that holds.
`StopMeters` has cleared the lock. -/
def disconnect (c : Codec) (ntp : BitVec 64) (packet : ByteMemory) : Codec × List CodecEvent :=
  match c.connectionState with
  | .idle => (c, [])
  | .connecting | .connected =>
      let c := { c with locked := false }
      let (c, packet, n) := c.byePacket ntp packet
      let c := { c with
        stats := { transmitCname := c.transmitCname }
        recvSequenceHiNumber := 0 }
      let (c, changed) := c.setConnectionState .idle
      (c, [.locked false, .rtcp (packet.bytes 0 (4 * n))] ++ changed)

/-- `rtcpTransmitData` (`codec.cpp:778`). -/
def rtcpTransmitData (c : Codec) (ntp : BitVec 64) (packet : ByteMemory) :
    Codec × List CodecEvent :=
  let (c, packet, n) := c.generateRtcpPacket ntp packet 1500
  (c, [.rtcp (packet.bytes 0 (4 * n))])

/-! ## Received packets -/

/-- `ReadPrivateSourceChunk` (`codec.cpp:1833`). -/
def readPrivateSourceChunk (c : Codec) (data : List (BitVec 8)) : Codec × List CodecEvent :=
  match data with
  | [d0, d1, d2, d3, d4, d5, d6, d7, d8] =>
      if d0 ≠ 4 then (c, [])
      else if d1 ≠ 0x47 ∨ d2 ≠ 0x50 ∨ d3 ≠ 0x49 ∨ d4 ≠ 0x4f then (c, [])
      else
        let gpio : BitVec 32 := (d5.setWidth 32 <<< 24) ||| (d6.setWidth 32 <<< 16) |||
          (d7.setWidth 32 <<< 8) ||| d8.setWidth 32
        let changed := (List.range 32).filter fun i =>
          gpio &&& (1#32 <<< i) ≠ c.recvGpio &&& (1#32 <<< i)
        ({ c with recvGpio := gpio },
          changed.map fun i => .gpioChanged i (gpio &&& (1#32 <<< i) ≠ 0))
  | _ => (c, [])

/-- One turn of the switch over the chunks (`codec.cpp:832`). -/
def readChunk (c : Codec) (chunk : Chunk) : Codec × List CodecEvent :=
  let text := RTPSourceDescription.chunkString chunk
  if chunk.type = chunkCname then ({ c with stats := { c.stats with receptionCname := text } }, [])
  else if chunk.type = chunkName then ({ c with stats := { c.stats with name := text } }, [])
  else if chunk.type = chunkEmail then ({ c with stats := { c.stats with email := text } }, [])
  else if chunk.type = chunkPhone then ({ c with stats := { c.stats with phone := text } }, [])
  else if chunk.type = chunkLoc then ({ c with stats := { c.stats with location := text } }, [])
  else if chunk.type = chunkTool then ({ c with stats := { c.stats with tool := text } }, [])
  else if chunk.type = chunkNote then ({ c with stats := { c.stats with note := text } }, [])
  else if chunk.type = chunkPriv then
    let sddata := RTPSourceDescription.chunkData chunk 256
    if sddata.length > 0 then c.readPrivateSourceChunk sddata else (c, [])
  else (c, [])

/-- The loop over the chunks. -/
def readChunks (c : Codec) : List Chunk → Codec × List CodecEvent
  | [] => (c, [])
  | chunk :: chunks =>
      let (c, events) := c.readChunk chunk
      let (c, more) := c.readChunks chunks
      (c, events ++ more)

/-- What `rtcpReceiveData` does with a sender report (`codec.cpp:868`). -/
def readSenderReport (c : Codec) (sr : RTPSenderReport) : Codec :=
  let c :=
    if c.recvStartPacketCount = 0 then { c with recvStartPacketCount := sr.senderPacketCount }
    else c
  let c := { c with
    recvNtpTimestamp := sr.ntpTimestamp
    stats := { c.stats with
      receptionPacketsSent := sr.senderPacketCount - c.recvStartPacketCount } }
  match sr.receptionBlocks with
  | [] => c
  | rb :: _ =>
      { c with stats := { c.stats with
          receptionSsrc := rb.ssrc
          transmitPacketsLost := rb.cumulativePacketsLost
          transmitFractionLost := rb.fractionPacketsLost } }

/-- Reset of the receiver's counters after a BYE (`codec.cpp:890`). -/
def resetReceiver (c : Codec) : Codec :=
  { c with
    recvTotalPacketsLost := 0
    recvIntervalPacketsLost := 0
    recvSequenceLoNumber := 0
    recvLastSequenceNumber := 0
    recvStartSequenceNumber := 0
    recvSsrc := 0
    recvNtpTimestamp := 0 }

/-- One turn of the loop of `rtcpReceiveData` (`codec.cpp:825`) on the `n` bytes at the start of
`packet`; also whether it has returned. `ntp` and `buffer` are what `disconnect` makes its packet
from. -/
def rtcpReceivePacket (c : Codec) (packet : ByteMemory) (n : Nat) (ntp : BitVec 64)
    (buffer : ByteMemory) : Codec × List CodecEvent × Bool :=
  let hdr := ({} : RTPControlHeader).readBlock packet 0 n
  let (c, events) :=
    match hdr.sourceDescription with
    | some sd => c.readChunks sd.chunks
    | none => (c, [])
  let c :=
    match hdr.senderReport with
    | some sr => c.readSenderReport sr
    | none => c
  match hdr.bye with
  | some _ =>
      let (c, bye) := c.disconnect ntp buffer
      (c.resetReceiver, events ++ bye, true)
  | none => (c, events, false)

/-- `rtcpReceiveData` (`codec.cpp:815`) on the datagrams in its socket, each of which it reads into
`packet`; also what it leaves in the socket. -/
def rtcpReceiveData (c : Codec) (packet : ByteMemory) (ntp : BitVec 64) (buffer : ByteMemory) :
    List (List (BitVec 8)) → Codec × List CodecEvent × List (List (BitVec 8))
  | [] => (c, [], [])
  | datagram :: datagrams =>
      let block := datagram.take 1500
      if block.length = 0 then (c, [], datagrams)
      else
        let packet := packet.setBytes 0 block
        match c.rtcpReceivePacket packet block.length ntp buffer with
        | (c, events, true) => (c, events, datagrams)
        | (c, events, false) =>
            let (c, more, rest) := c.rtcpReceiveData packet ntp buffer datagrams
            (c, events ++ more, rest)

end Codec

end NetISDN

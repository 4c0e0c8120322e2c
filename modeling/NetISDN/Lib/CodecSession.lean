import NetISDN.General.Ledger
import NetISDN.General.Runs
import NetISDN.Lib.AudioSettings
import NetISDN.Lib.Codec
import NetISDN.Qt.QHostAddress

/-!
# The resources of a codec

`Codec` (`codec.cpp`) as far as it allocates and releases: encoder, decoder, resampler, audio
streams, sockets and meters, and its timers. The codec is built with Layer 3, Speex and Vorbis. What
the libraries and the audio thread do is part of an event.
-/

namespace NetISDN

open AudioSettings

/-- A datagram for the RTCP socket, rather than a signal. -/
def CodecEvent.isPacket : CodecEvent → Bool
  | .rtcp _ => true
  | .connectionStateChanged _ | .locked _ | .gpioChanged _ _ => false

/-- What a codec allocates, by the member that designates it. `codec_transmit_header` and
`codec_dest_addr` are not among them: the source never deletes what they designate in a call. -/
inductive Resource where
  | lame_gfp
  | mad_stream
  | mad_frame
  | mad_synth
  | last_sample_block
  | speex_enc_bits
  | speex_enc_state
  | speex_dec_bits
  | speex_dec_state
  | preprocess_state
  | vorbis_trans_info
  | vorbis_trans_comment
  | vorbis_trans_dsp_state
  | vorbis_trans_block
  | vorbis_recv_info
  | vorbis_recv_comment
  | vorbis_recv_dsp_state
  | vorbis_recv_block
  | src_state
  | output_pstream
  | input_pstream
  | rtp_socket
  | rtcp_socket
  | averages
  deriving DecidableEq, Repr

/-- What the source leaves to the audio libraries: whether the functions that initialise the `mad_…`
structures and the received comment allocate anything for them, and whether `speex_encoder_destroy`
releases the decoder that it is given (`codec.cpp:1316`). -/
structure Libraries where
  allocates : Resource → Bool
  destroysDecoder : Bool

/-- How the calls in `connectToHost` turn out, and what the audio thread has made of `codec_locked`
once the output stream has been started. -/
structure Outcome where
  bindRtp : Bool := true
  bindRtcp : Bool := true
  srcNew : Bool := true
  openOutput : Bool := true
  startOutput : Bool := true
  openInput : Bool := true
  startInput : Bool := true
  locked : Bool := false
  deriving DecidableEq

/-- Both sockets are bound and the address is one, so that `connectToHost` goes on to the audio
interface. -/
def Outcome.opens (o : Outcome) (dest_addr : QHostAddress) : Bool :=
  o.bindRtp && o.bindRtcp && !dest_addr.isNull

/-- The streams are opened and started. -/
def Outcome.streams (o : Outcome) : Bool :=
  o.openOutput && o.startOutput && o.openInput && o.startInput

/-- `Codec`. `transmitHeader` tells whether `codec_transmit_header` designates a header, each
`…Timer` whether the timer runs. -/
structure CodecSession where
  connectionState : ConnectionState := .idle
  settings : AudioSettings := {}
  ledger : Ledger Resource := fun _ => Handle.free
  transmitHeader : Bool := false
  destAddr : Option QHostAddress := none
  port : BitVec 16 := 0
  locked : Bool := false
  lockState : Bool := false
  vorbisDecoderReady : Bool := false
  meterTimer : Bool := false
  rtcpTransmitTimer : Bool := false
  rtcpReceiveTimer : Bool := false
  timeoutTimer : Bool := false

namespace CodecSession

/-- An object is allocated. -/
def acquire (c : CodecSession) (r : Resource) : CodecSession :=
  { c with ledger := c.ledger.acquire r }

/-- An object is released. -/
def release (c : CodecSession) (r : Resource) : CodecSession :=
  { c with ledger := c.ledger.release r }

/-- `delete` of a pointer that may be null. -/
def delete (c : CodecSession) (r : Resource) : CodecSession :=
  { c with ledger := c.ledger.delete r }

/-- A member is handed to a library. Where it designates nothing, the behaviour is undefined. -/
def use (c : CodecSession) (r : Resource) : Option CodecSession :=
  if (c.ledger r).current then some c else none

/-! ## Encoders -/

/-- The sample rates for which the source asks Speex for a mode, and makes a header. -/
def hasMode (samprate : BitVec 32) : Bool :=
  samprate = 8000 ∨ samprate = 16000 ∨ samprate = 32000

/-- `InitLayer3Encoder` (`codec.cpp:1079`). -/
def initLayer3Encoder (c : CodecSession) : CodecSession := c.acquire .lame_gfp

/-- `FreeLayer3Encoder` (`codec.cpp:1106`). Its body is compiled where `HAVE_MPEG_LE3` is defined,
which it never is. -/
def freeLayer3Encoder (c : CodecSession) : CodecSession := c

/-- `InitSpeexEncoder` and `InitSpeexDecoder`: the bits are initialised, and the state where there
is a mode for the sample rate. The state is then asked for its frame size. -/
def initSpeex (c : CodecSession) (bits state : Resource) (samprate : BitVec 32) :
    Option CodecSession :=
  let c := c.acquire bits
  let c := if hasMode samprate then c.acquire state else c
  c.use state

/-- `InitSpeexEncoder` (`codec.cpp:1248`). -/
def initSpeexEncoder (c : CodecSession) (samprate : BitVec 32) : Option CodecSession :=
  c.initSpeex .speex_enc_bits .speex_enc_state samprate

/-- `FreeSpeexEncoder`. -/
def freeSpeexEncoder (c : CodecSession) : CodecSession :=
  (c.release .speex_enc_bits).release .speex_enc_state

/-- `InitVorbisEncoder` (`codec.cpp:1356`). The comment gets a tag. -/
def initVorbisEncoder (c : CodecSession) : CodecSession :=
  (((c.acquire .vorbis_trans_info).acquire .vorbis_trans_comment).acquire
    .vorbis_trans_dsp_state).acquire .vorbis_trans_block

/-- `FreeVorbisEncoder`. -/
def freeVorbisEncoder (c : CodecSession) : CodecSession :=
  ((c.release .vorbis_trans_block).release .vorbis_trans_dsp_state).release .vorbis_trans_info

/-- The switch of `InitEncoder` (`codec.cpp:921`). -/
def initFormat (c : CodecSession) (samprate : BitVec 32) : Option CodecSession :=
  match c.settings.format .transmit with
  | .layer3 => some { c.initLayer3Encoder with transmitHeader := true }
  | .speex => do
      let c ← c.initSpeexEncoder samprate
      some { c with transmitHeader := hasMode samprate || c.transmitHeader }
  | .vorbis => some { c.initVorbisEncoder with transmitHeader := true }
  | .noFormat | .unnamed _ _ => some c

/-- `InitEncoder` (`codec.cpp:918`). After the switch the header gets its source. -/
def initEncoder (c : CodecSession) (chans samprate : BitVec 32) (preprocess : Bool) :
    Option CodecSession := do
  let c ← c.initFormat samprate
  if c.transmitHeader then
    some (if preprocess ∧ chans = 1 then c.acquire .preprocess_state else c)
  else none

/-- `FreeEncoder`. -/
def freeEncoder (c : CodecSession) : CodecSession :=
  let c := c.delete .preprocess_state
  match c.settings.format .transmit with
  | .layer3 => c.freeLayer3Encoder
  | .speex => c.freeSpeexEncoder
  | .vorbis => c.freeVorbisEncoder
  | .noFormat | .unnamed _ _ => c

/-! ## Decoders -/

section
variable (lib : Libraries)

/-- A structure is initialised, for which the library may allocate. -/
def initialise (c : CodecSession) (r : Resource) : CodecSession :=
  if lib.allocates r then c.acquire r else c

/-- `InitLayer3Decoder` (`codec.cpp:1115`). -/
def initLayer3Decoder (c : CodecSession) : CodecSession :=
  let c := ((c.initialise lib .mad_stream).initialise lib .mad_frame).initialise lib .mad_synth
  c.acquire .last_sample_block

/-- `FreeLayer3Decoder`. -/
def freeLayer3Decoder (c : CodecSession) : CodecSession := c.delete .last_sample_block

/-- `InitSpeexDecoder` (`codec.cpp:1286`). -/
def initSpeexDecoder (c : CodecSession) (samprate : BitVec 32) : Option CodecSession :=
  c.initSpeex .speex_dec_bits .speex_dec_state samprate

/-- `FreeSpeexDecoder`. It hands the decoder to `speex_encoder_destroy`. -/
def freeSpeexDecoder (c : CodecSession) : CodecSession :=
  let c := c.release .speex_dec_bits
  if lib.destroysDecoder then c.release .speex_dec_state else c

/-- `InitVorbisDecoder` (`codec.cpp:1397`). -/
def initVorbisDecoder (c : CodecSession) : CodecSession :=
  (c.acquire .vorbis_recv_info).initialise lib .vorbis_recv_comment

/-- `FreeVorbisDecoder`. -/
def freeVorbisDecoder (c : CodecSession) : CodecSession :=
  let c :=
    if c.vorbisDecoderReady then (c.release .vorbis_recv_block).release .vorbis_recv_dsp_state
    else c
  { c.release .vorbis_recv_info with vorbisDecoderReady := false }

/-- `InitDecoder` (`codec.cpp:992`). -/
def initDecoder (c : CodecSession) (samprate : BitVec 32) : Option CodecSession :=
  match c.settings.format .receive with
  | .layer3 => some (c.initLayer3Decoder lib)
  | .speex => c.initSpeexDecoder samprate
  | .vorbis => some (c.initVorbisDecoder lib)
  | .noFormat | .unnamed _ _ => some c

/-- `FreeDecoder`. -/
def freeDecoder (c : CodecSession) : CodecSession :=
  match c.settings.format .receive with
  | .speex => c.freeSpeexDecoder lib
  | .layer3 => c.freeLayer3Decoder
  | .vorbis => c.freeVorbisDecoder
  | .noFormat | .unnamed _ _ => c

/-- `setCodebook` (`codec.cpp:685`). `accepted` tells whether all three packets are in Base64 and
libvorbis reads each as its header, which it does for a structure that has been initialised. -/
def setCodebook (c : CodecSession) (accepted : Bool) : Option CodecSession :=
  if accepted then do
    let c ← c.use .vorbis_recv_info
    some { (c.acquire .vorbis_recv_dsp_state).acquire .vorbis_recv_block with
      vorbisDecoderReady := true }
  else some c

/-! ## Sockets, audio and meters -/

/-- `InitSockets` (`codec.cpp:1673`). -/
def initSockets (c : CodecSession) (o : Outcome) : CodecSession × Bool :=
  let c := c.acquire .rtp_socket
  if !o.bindRtp then (c.delete .rtp_socket, false)
  else
    let c := c.acquire .rtcp_socket
    if !o.bindRtcp then ((c.delete .rtp_socket).delete .rtcp_socket, false)
    else ({ c with rtcpTransmitTimer := true, rtcpReceiveTimer := true }, true)

/-- `FreeSockets`. -/
def freeSockets (c : CodecSession) : CodecSession :=
  let c := { c with rtcpTransmitTimer := false, rtcpReceiveTimer := false }
  (c.delete .rtcp_socket).delete .rtp_socket

/-- `SetDestinationAddress` (`codec.cpp:1820`). -/
def setDestinationAddress (c : CodecSession) (addr : QHostAddress) (port : BitVec 16) :
    CodecSession × Bool :=
  if addr.isNull then ({ c with destAddr := none }, false)
  else ({ c with destAddr := some addr, port := port }, true)

/-- `InitAudioInterface` (`codec.cpp:1708`). No exit releases the resampler. -/
def initAudioInterface (c : CodecSession) (o : Outcome) : CodecSession × Bool :=
  if !o.srcNew then ({ c with ledger := c.ledger.forget .src_state }, false)
  else
    let c := c.acquire .src_state
    if !o.openOutput then (c, false)
    else
      let c := c.acquire .output_pstream
      if !o.startOutput then (c.release .output_pstream, false)
      else
        let c := { c with locked := o.locked }
        if !o.openInput then (c.release .output_pstream, false)
        else
          let c := c.acquire .input_pstream
          if !o.startInput then ((c.release .input_pstream).release .output_pstream, false)
          else (c, true)

/-- `FreeAudioInterface`. -/
def freeAudioInterface (c : CodecSession) : CodecSession :=
  ((c.release .output_pstream).release .input_pstream).delete .src_state

/-- `StartMeters` (`codec.cpp:1793`). -/
def startMeters (c : CodecSession) : CodecSession :=
  { c.acquire .averages with meterTimer := true }

/-- `StopMeters`. The levels it emits are left out. -/
def stopMeters (c : CodecSession) : CodecSession :=
  { c with
    meterTimer := false
    locked := false
    lockState := false }.release .averages

/-! ## Calls -/

/-- The exits of `connectToHost` that undo what was done before. -/
def giveUp (c : CodecSession) : CodecSession × List CodecEvent :=
  ({ (c.freeDecoder lib).freeEncoder with connectionState := .idle },
    [.connectionStateChanged .connecting, .connectionStateChanged .idle])

/-- `connectToHost` (`codec.cpp:546`). -/
def connectToHost (c : CodecSession) (dest_addr : QHostAddress) (dest_port : BitVec 16)
    (s : AudioSettings) (o : Outcome) : Option (CodecSession × List CodecEvent) :=
  if c.connectionState ≠ .idle then some (c, [])
  else do
    let c := { c with connectionState := .connecting, settings := s }
    let c ← c.initEncoder (s.channels .transmit) s.sampleRate (s.enableProcessor .transmit)
    let c ← c.initDecoder lib s.sampleRate
    match c.initSockets o with
    | (c, false) => some (c.giveUp lib)
    | (c, true) =>
        match c.setDestinationAddress dest_addr dest_port with
        | (c, false) => some (c.freeSockets.giveUp lib)
        | (c, true) =>
            match c.initAudioInterface o with
            | (c, false) => some (c.freeSockets.giveUp lib)
            | (c, true) => some (c.startMeters, [.connectionStateChanged .connecting])

/-- `disconnect` (`codec.cpp:605`), without the packet it sends. It frees the encoder alone. -/
def disconnect (c : CodecSession) : Option (CodecSession × List CodecEvent) :=
  match c.connectionState with
  | .idle => some (c, [])
  | .connecting | .connected =>
      let c := c.stopMeters.freeAudioInterface
      if c.transmitHeader ∧ c.destAddr.isSome then
        let c := c.freeSockets.freeEncoder
        some ({ c with
          transmitHeader := false
          connectionState := .idle }, [.locked false, .connectionStateChanged .idle])
      else none

/-- The first call that finds the far end is connected (`codec.cpp:763`). -/
def connectLocked (c : CodecSession) : CodecSession × List CodecEvent :=
  if c.locked ∧ c.connectionState = .connecting then
    ({ c with connectionState := .connected }, [.connectionStateChanged .connected])
  else (c, [])

/-- `meterData` (`codec.cpp:748`), without the levels. -/
def meterData (c : CodecSession) : CodecSession × List CodecEvent :=
  if c.locked ≠ c.lockState then
    ({ c.connectLocked.1 with
      timeoutTimer := !c.locked
      lockState := c.locked }, c.connectLocked.2 ++ [.locked c.locked])
  else (c, [])

end

/-- What happens to a codec: calls of its slots, its timers, a packet with a BYE among those that
`rtcpReceiveData` reads, and the audio thread finding or losing the far end. -/
inductive Event where
  | connectToHost (dest_addr : QHostAddress) (dest_port : BitVec 16) (s : AudioSettings)
      (o : Outcome)
  | disconnect
  | bye
  | timeoutData
  | meterData
  | audio (locked : Bool)
  | setCodebook (accepted : Bool)

/-- One event. A timer that does not run does not fire, and the audio thread runs while there is an
output stream. -/
def step (lib : Libraries) (c : CodecSession) : Event → Option (CodecSession × List CodecEvent)
  | .connectToHost dest_addr dest_port s o => c.connectToHost lib dest_addr dest_port s o
  | .disconnect => c.disconnect
  | .bye => if c.rtcpReceiveTimer then c.disconnect else none
  | .timeoutData => if c.timeoutTimer then { c with timeoutTimer := false }.disconnect else none
  | .meterData => if c.meterTimer then some c.meterData else none
  | .audio locked =>
      if (c.ledger .output_pstream).current then some ({ c with locked := locked }, []) else none
  | .setCodebook accepted => (c.setCodebook accepted).map fun c => (c, [])

end CodecSession

end NetISDN

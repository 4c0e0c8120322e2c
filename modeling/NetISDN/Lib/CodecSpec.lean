import NetISDN.Lib.CodecSession

/-!
# What a codec leaves unreleased

For any set of kinds whose books are in order beforehand: what a codec holds once `connectToHost`
has connected it, what it still holds when that failed (`connectToHost_spec`), and what `disconnect`
leaves (`disconnect_spec`). The `disconnect` of the packets is the same one (`disconnect_agrees`).
-/

namespace NetISDN

open AudioSettings Ledger

namespace CodecSession

section
variable {c c' : CodecSession} {K : Set Resource} {S : Finset Resource} {rs : List Resource}
  {o : Outcome} {addr : QHostAddress} {port : BitVec 16} {out : List CodecEvent} {lib : Libraries}
  {s : AudioSettings}

/-! ## What each format allocates and releases -/

/-- What `InitEncoder` allocates for a format. -/
def encoderResources : Format → List Resource
  | .layer3 => [.lame_gfp]
  | .speex => [.speex_enc_bits, .speex_enc_state]
  | .vorbis =>
      [.vorbis_trans_info, .vorbis_trans_comment, .vorbis_trans_dsp_state, .vorbis_trans_block]
  | .noFormat | .unnamed _ _ => []

/-- What of it `FreeEncoder` releases. -/
def encoderFreed : Format → List Resource
  | .speex => [.speex_enc_bits, .speex_enc_state]
  | .vorbis => [.vorbis_trans_block, .vorbis_trans_dsp_state, .vorbis_trans_info]
  | .layer3 | .noFormat | .unnamed _ _ => []

/-- The preprocessor, which `InitEncoder` allocates for one channel if it is asked for. -/
def preprocessResources (s : AudioSettings) : List Resource :=
  if s.enableProcessor .transmit ∧ s.channels .transmit = 1 then [.preprocess_state] else []

/-- What `InitDecoder` allocates for a format. -/
def decoderResources (lib : Libraries) : Format → List Resource
  | .layer3 => [.mad_stream, .mad_frame, .mad_synth].filter lib.allocates ++ [.last_sample_block]
  | .speex => [.speex_dec_bits, .speex_dec_state]
  | .vorbis => .vorbis_recv_info :: [.vorbis_recv_comment].filter lib.allocates
  | .noFormat | .unnamed _ _ => []

/-- What `FreeDecoder` releases, of a Vorbis decoder that is ready or not. -/
def decoderFreed (lib : Libraries) (ready : Bool) : Format → List Resource
  | .layer3 => [.last_sample_block]
  | .speex => .speex_dec_bits :: if lib.destroysDecoder then [.speex_dec_state] else []
  | .vorbis =>
      (if ready then [.vorbis_recv_block, .vorbis_recv_dsp_state] else []) ++ [.vorbis_recv_info]
  | .noFormat | .unnamed _ _ => []

/-- What a call holds besides encoder and decoder. -/
def linkResources : List Resource :=
  [.rtp_socket, .rtcp_socket, .src_state, .output_pstream, .input_pstream, .averages]

/-- What a call holds. -/
def callResources (lib : Libraries) (s : AudioSettings) : Finset Resource :=
  (encoderResources (s.format .transmit) ++ preprocessResources s ++
    decoderResources lib (s.format .receive) ++ linkResources).toFinset

/-- What `FreeEncoder` leaves. -/
def encoderLeft (f : Format) : List Resource :=
  (encoderResources f).filter (· ∉ encoderFreed f)

/-- What `FreeDecoder` leaves. -/
def decoderLeft (lib : Libraries) (f : Format) : List Resource :=
  (decoderResources lib f).filter (· ∉ decoderFreed lib false f)

/-- What `connectToHost` leaves when it fails. -/
def failureLeft (lib : Libraries) (s : AudioSettings) (o : Outcome) (addr : QHostAddress) :
    Finset Resource :=
  (encoderLeft (s.format .transmit) ++ decoderLeft lib (s.format .receive)).toFinset ∪
    if o.opens addr && o.srcNew then {.src_state} else ∅

/-- What `disconnect` leaves. -/
def callLeft (lib : Libraries) (s : AudioSettings) : Finset Resource :=
  (encoderLeft (s.format .transmit) ++ decoderResources lib (s.format .receive)).toFinset

/-- The parts of a codec. -/
inductive Part where
  | encoder
  | preprocessor
  | decoder
  | link

/-- The part that a resource belongs to. -/
def part : Resource → Part
  | .lame_gfp | .speex_enc_bits | .speex_enc_state | .vorbis_trans_info | .vorbis_trans_comment
  | .vorbis_trans_dsp_state | .vorbis_trans_block => .encoder
  | .preprocess_state => .preprocessor
  | .mad_stream | .mad_frame | .mad_synth | .last_sample_block | .speex_dec_bits
  | .speex_dec_state | .vorbis_recv_info | .vorbis_recv_comment | .vorbis_recv_dsp_state
  | .vorbis_recv_block => .decoder
  | .src_state | .output_pstream | .input_pstream | .rtp_socket | .rtcp_socket | .averages => .link

/-- What an encoder allocates is part of it. -/
theorem part_encoder {f : Format} {r : Resource} (h : r ∈ encoderResources f) :
    part r = .encoder := by
  cases f <;> simp only [encoderResources, List.mem_cons, List.not_mem_nil, or_false] at h <;>
    rcases h with rfl | rfl | rfl | rfl <;> rfl

/-- An encoder releases nothing but what it has allocated. -/
theorem encoderFreed_subset {f : Format} : encoderFreed f ⊆ encoderResources f := by
  cases f with
  | layer3 | noFormat | unnamed n h => exact List.nil_subset _
  | speex | vorbis => decide

/-- The preprocessor is all that preprocessing allocates. -/
theorem part_preprocessor {r : Resource} (h : r ∈ preprocessResources s) :
    r = .preprocess_state := by
  unfold preprocessResources at h
  split at h
  · exact List.mem_singleton.1 h
  · cases h

/-- What a decoder allocates is part of it, and not what Vorbis makes of the first packets. -/
theorem part_decoder {f : Format} {r : Resource} (h : r ∈ decoderResources lib f) :
    part r = .decoder ∧ r ≠ .vorbis_recv_dsp_state ∧ r ≠ .vorbis_recv_block := by
  cases f with
  | layer3 | speex | vorbis =>
      simp only [decoderResources, List.mem_append, List.mem_filter, List.mem_cons,
        List.not_mem_nil, or_false] at h
      grind [part]
  | noFormat | unnamed n hn => cases h

/-- What is released of a decoder. -/
theorem mem_decoderFreed {f : Format} {ready : Bool} {r : Resource}
    (h : r ∈ decoderFreed lib ready f) : r ∈ decoderResources lib f ∧ r ∈ decoderFreed lib false f ∨
      f = .vorbis ∧ ready = true ∧ (r = .vorbis_recv_dsp_state ∨ r = .vorbis_recv_block) := by
  cases f with
  | layer3 | speex | vorbis => grind [decoderFreed, decoderResources]
  | noFormat | unnamed n hn => cases h

/-- An encoder allocates each part once. -/
theorem nodup_encoderResources (f : Format) : (encoderResources f).Nodup := by
  cases f with
  | layer3 | speex | vorbis => decide
  | noFormat | unnamed n h => exact List.nodup_nil

/-- And so does a decoder. -/
theorem nodup_decoderResources (lib : Libraries) (f : Format) : (decoderResources lib f).Nodup := by
  cases f with
  | layer3 => exact (List.filter_sublist.append_right [_]).nodup (by decide)
  | speex =>
      show ([.speex_dec_bits, .speex_dec_state] : List Resource).Nodup
      decide
  | vorbis => exact (List.filter_sublist.cons_cons _).nodup (by decide)
  | noFormat | unnamed n h => exact List.nodup_nil

/-! ## Encoder and decoder -/

/-- `InitSpeex` allocates the bits and the state. -/
theorem initSpeex_spec {bits state : Resource} {rate : BitVec 32} (hne : bits ≠ state)
    (h : c.initSpeex bits state rate = some c') :
    ∃ l, c' = { c with ledger := l } ∧ ∀ {K S}, HoldsOn K S c.ledger →
      (∀ r ∈ [bits, state], r ∈ K → r ∉ S) → HoldsOn K (S ∪ [bits, state].toFinset) l := by
  unfold initSpeex use at h
  cases hrate : hasMode rate with
  | true =>
      simp only [hrate, if_true] at h
      obtain rfl := Option.some.inj (Option.ite_none_right_eq_some.1 h).2
      exact ⟨_, rfl, fun hl hS => hl.acquireAll (by simp [hne]) hS⟩
  | false =>
      simp only [hrate, Bool.false_eq_true, if_false] at h
      obtain ⟨hcurrent, h⟩ := Option.ite_none_right_eq_some.1 h
      obtain rfl := Option.some.inj h
      refine ⟨_, rfl, fun {K S} hl hS => ?_⟩
      -- A state that is not allocated can only be in use where the books do not tell of it.
      have hbits := hl.acquire (hS bits (by simp))
      have hstate : state ∉ K := by
        intro hK
        have hfree := hbits.free hK (by simpa [hne.symm] using hS state (by simp) hK)
        have : (c.acquire bits).ledger state = Handle.free := hfree
        rw [this] at hcurrent
        cases hcurrent
      refine hbits.congr fun r hr => ?_
      have : r ≠ state := fun heq => hstate (heq ▸ hr)
      simp [this]

/-- `InitEncoder` allocates what the format needs. -/
theorem initFormat_spec {rate : BitVec 32} (h : c.initFormat rate = some c') :
    ∃ l b, c' = { c with ledger := l, transmitHeader := b } ∧ ∀ {K S}, HoldsOn K S c.ledger →
      (∀ r ∈ encoderResources (c.settings.format .transmit), r ∈ K → r ∉ S) →
      HoldsOn K (S ∪ (encoderResources (c.settings.format .transmit)).toFinset) l := by
  have hnodup := nodup_encoderResources (c.settings.format .transmit)
  unfold initFormat at h
  cases hf : c.settings.format .transmit with
  | layer3 | vorbis =>
      simp only [hf] at h hnodup
      obtain rfl := Option.some.inj h
      exact ⟨_, _, rfl, fun hl hS => hl.acquireAll hnodup hS⟩
  | speex =>
      simp only [hf, Option.bind_eq_bind, Option.bind_eq_some_iff] at h
      obtain ⟨c₁, h₁, h⟩ := h
      obtain ⟨l, rfl, hl⟩ := initSpeex_spec (by decide) h₁
      obtain rfl := Option.some.inj h
      exact ⟨l, _, rfl, hl⟩
  | noFormat | unnamed n hn =>
      simp only [hf] at h
      obtain rfl := Option.some.inj h
      exact ⟨_, _, rfl, fun hl hS => hl.acquireAll .nil hS⟩

/-- What `InitEncoder` does, if it comes to an end. -/
theorem initEncoder_spec
    (h : c.initEncoder (c.settings.channels .transmit) c.settings.sampleRate
      (c.settings.enableProcessor .transmit) = some c') :
    ∃ l, c' = { c with ledger := l, transmitHeader := true } ∧ ∀ {K S}, HoldsOn K S c.ledger →
      (∀ r ∈ encoderResources (c.settings.format .transmit) ++ preprocessResources c.settings,
        r ∈ K → r ∉ S) →
      HoldsOn K (S ∪ (encoderResources (c.settings.format .transmit) ++
        preprocessResources c.settings).toFinset) l := by
  unfold initEncoder at h
  simp only [Option.bind_eq_bind, Option.bind_eq_some_iff] at h
  obtain ⟨c₁, h₁, h⟩ := h
  obtain ⟨hheader, h⟩ := Option.ite_none_right_eq_some.1 h
  obtain ⟨l, b, rfl, hl⟩ := initFormat_spec h₁
  obtain rfl : b = true := hheader
  obtain rfl := Option.some.inj h
  unfold preprocessResources
  split
  · refine ⟨_, rfl, fun {K S} hK hS => ?_⟩
    rw [List.toFinset_append, ← Finset.union_assoc]
    refine (hl hK fun r hr => hS r (List.mem_append_left _ hr)).acquireAll
      (List.nodup_singleton _) fun r hr hrK hmem => ?_
    obtain rfl := List.mem_singleton.1 hr
    rcases Finset.mem_union.1 hmem with hmem | hmem
    · exact hS _ (List.mem_append_right _ hr) hrK hmem
    · revert hmem
      cases c.settings.format .transmit <;> simp [encoderResources]
  · exact ⟨_, rfl, fun hK hS => by simpa using hl hK (by simpa using hS)⟩

/-- Initialising a kind allocates it where the library does. -/
theorem initialise_eq (c : CodecSession) (lib : Libraries) (r : Resource) : c.initialise lib r =
    { c with ledger := c.ledger.acquireAll ([r].filter lib.allocates) } := by
  unfold initialise
  cases h : lib.allocates r with
  | true => simp [h, acquire, acquireAll]
  | false => simp [h, acquireAll]

/-- What `InitDecoder` does, if it comes to an end. -/
theorem initDecoder_spec {rate : BitVec 32} (h : c.initDecoder lib rate = some c') :
    ∃ l, c' = { c with ledger := l } ∧ ∀ {K S}, HoldsOn K S c.ledger →
      (∀ r ∈ decoderResources lib (c.settings.format .receive), r ∈ K → r ∉ S) →
      HoldsOn K (S ∪ (decoderResources lib (c.settings.format .receive)).toFinset) l := by
  have hnodup := nodup_decoderResources lib (c.settings.format .receive)
  unfold initDecoder at h
  cases hf : c.settings.format .receive with
  | layer3 =>
      simp only [hf] at h hnodup
      have heq : c.initLayer3Decoder lib =
          { c with ledger := c.ledger.acquireAll (decoderResources lib .layer3) } := by
        simp only [initLayer3Decoder, initialise_eq, acquire, ← acquireAll_append,
          ← List.filter_append, decoderResources]
        rw [acquireAll_append]
        rfl
      rw [heq] at h
      obtain rfl := Option.some.inj h
      exact ⟨_, rfl, fun hl hS => hl.acquireAll hnodup hS⟩
  | speex =>
      simp only [hf] at h
      exact initSpeex_spec (by decide) h
  | vorbis =>
      simp only [hf] at h hnodup
      have heq : c.initVorbisDecoder lib =
          { c with ledger := c.ledger.acquireAll (decoderResources lib .vorbis) } := by
        simp only [initVorbisDecoder, initialise_eq]
        rfl
      rw [heq] at h
      obtain rfl := Option.some.inj h
      exact ⟨_, rfl, fun hl hS => hl.acquireAll hnodup hS⟩
  | noFormat | unnamed n hn =>
      simp only [hf] at h
      obtain rfl := Option.some.inj h
      exact ⟨_, rfl, fun hl hS => hl.acquireAll .nil hS⟩

/-- `FreeEncoder` releases what it knows of. -/
theorem freeEncoder_spec (c : CodecSession) : ∃ l, c.freeEncoder = { c with ledger := l } ∧
    ∀ {K S}, HoldsOn K S c.ledger →
      (∀ r ∈ encoderFreed (c.settings.format .transmit), r ∈ K → r ∈ S) →
      HoldsOn K (S.erase .preprocess_state \
        (encoderFreed (c.settings.format .transmit)).toFinset) l := by
  refine ⟨(c.ledger.delete .preprocess_state).releaseAll
    (encoderFreed (c.settings.format .transmit)), ?_, fun {K S} hl hS => ?_⟩
  · unfold freeEncoder
    show (match c.settings.format .transmit with
      | .layer3 => (c.delete .preprocess_state).freeLayer3Encoder
      | .speex => (c.delete .preprocess_state).freeSpeexEncoder
      | .vorbis => (c.delete .preprocess_state).freeVorbisEncoder
      | .noFormat | .unnamed _ _ => c.delete .preprocess_state) = _
    cases c.settings.format .transmit <;> rfl
  · refine hl.delete.releaseAll ?_ fun r hr hK => Finset.mem_erase.2 ⟨?_, hS r hr hK⟩
    · cases c.settings.format .transmit <;> simp [encoderFreed]
    · rintro rfl
      revert hr
      cases c.settings.format .transmit <;> simp [encoderFreed]

/-- A decoder releases each part once. -/
theorem nodup_decoderFreed (lib : Libraries) (ready : Bool) (f : Format) :
    (decoderFreed lib ready f).Nodup := by
  cases f with
  | layer3 => exact List.nodup_singleton _
  | speex =>
      show (Resource.speex_dec_bits :: if lib.destroysDecoder then [_] else []).Nodup
      cases lib.destroysDecoder <;> simp
  | vorbis =>
      cases ready with
      | true => exact (by decide : [Resource.vorbis_recv_block, .vorbis_recv_dsp_state,
          .vorbis_recv_info].Nodup)
      | false => exact List.nodup_singleton _
  | noFormat | unnamed n h => exact List.nodup_nil

/-- `FreeDecoder` releases what it knows of. -/
theorem freeDecoder_spec (c : CodecSession) (lib : Libraries) : ∃ l, c.freeDecoder lib = { c with
      ledger := l
      vorbisDecoderReady := c.vorbisDecoderReady ∧ c.settings.format .receive ≠ .vorbis } ∧
    ∀ {K S}, HoldsOn K S c.ledger →
      (∀ r ∈ decoderFreed lib c.vorbisDecoderReady (c.settings.format .receive), r ∈ K → r ∈ S) →
      HoldsOn K (S \
        (decoderFreed lib c.vorbisDecoderReady (c.settings.format .receive)).toFinset) l := by
  have hnodup := nodup_decoderFreed lib c.vorbisDecoderReady (c.settings.format .receive)
  unfold freeDecoder
  cases hf : c.settings.format .receive with
  | layer3 =>
      refine ⟨c.ledger.delete .last_sample_block, by simp [freeLayer3Decoder, delete], ?_⟩
      intro K S hl hS
      have := hl.delete (r := .last_sample_block)
      rwa [Finset.erase_eq] at this
  | speex =>
      simp only [hf] at hnodup
      refine ⟨_, ?_, fun hl hS => hl.releaseAll hnodup hS⟩
      unfold freeSpeexDecoder decoderFreed
      cases lib.destroysDecoder <;> simp [release, releaseAll]
  | vorbis =>
      simp only [hf] at hnodup
      refine ⟨_, ?_, fun hl hS => hl.releaseAll hnodup hS⟩
      unfold freeVorbisDecoder decoderFreed
      cases c.vorbisDecoderReady <;> simp [release, releaseAll]
  | noFormat | unnamed n hn =>
      exact ⟨c.ledger, by simp, fun hl hS => hl.releaseAll .nil hS⟩

/-! ## Sockets and audio -/

/-- `InitSockets` allocates the sockets, unless one cannot be bound. -/
theorem initSockets_spec (c : CodecSession) (o : Outcome) : ∃ l, c.initSockets o = ({ c with
      ledger := l
      rtcpTransmitTimer := (o.bindRtp && o.bindRtcp) || c.rtcpTransmitTimer
      rtcpReceiveTimer := (o.bindRtp && o.bindRtcp) || c.rtcpReceiveTimer },
      o.bindRtp && o.bindRtcp) ∧
    ∀ {K S}, HoldsOn K S c.ledger → (∀ r ∈ [Resource.rtp_socket, .rtcp_socket], r ∈ K → r ∉ S) →
      HoldsOn K (S ∪ if o.bindRtp && o.bindRtcp then {.rtp_socket, .rtcp_socket} else ∅) l := by
  unfold initSockets
  cases hrtp : o.bindRtp with
  | false =>
      refine ⟨_, rfl, fun {K S} hl hS => ?_⟩
      refine (hl.acquire (hS .rtp_socket (by simp))).delete.congr fun r hr => ?_
      have := hS r
      grind
  | true =>
      cases hrtcp : o.bindRtcp with
      | false =>
          refine ⟨_, rfl, fun {K S} hl hS => ?_⟩
          have hboth : HoldsOn K _ (c.ledger.acquireAll [.rtp_socket, .rtcp_socket]) :=
            hl.acquireAll (by decide) hS
          refine hboth.delete.delete.congr fun r hr => ?_
          have := hS r
          grind [List.mem_toFinset]
      | true =>
          refine ⟨_, rfl, fun {K S} hl hS => ?_⟩
          have hboth : HoldsOn K _ (c.ledger.acquireAll [.rtp_socket, .rtcp_socket]) :=
            hl.acquireAll (by decide) hS
          exact hboth

section
variable {l : Ledger Resource} (hl : HoldsOn K S l)
  (hS : ∀ r ∈ [Resource.src_state, .output_pstream, .input_pstream], r ∈ K → r ∉ S)
include hl hS

/-- The resampler is acquired. -/
theorem holdsOn_srcNew : HoldsOn K (S ∪ {.src_state}) (l.acquire .src_state) :=
  (hl.acquire (hS _ (by simp))).congr fun r _ => by grind

/-- The output stream is acquired after it. -/
theorem holdsOn_openOutput : HoldsOn K (S ∪ {.src_state, .output_pstream})
    ((l.acquire .src_state).acquire .output_pstream) :=
  ((holdsOn_srcNew hl hS).acquire (by simpa using hS _ (by simp))).congr fun r _ => by grind

/-- And the input stream last. -/
theorem holdsOn_openInput : HoldsOn K (S ∪ {.src_state, .output_pstream, .input_pstream})
    (((l.acquire .src_state).acquire .output_pstream).acquire .input_pstream) :=
  ((holdsOn_openOutput hl hS).acquire (by simpa using hS _ (by simp))).congr fun r _ => by grind

/-- A stream that was opened and closed again leaves the resampler. -/
theorem holdsOn_closeOutput : HoldsOn K (S ∪ {.src_state})
    (((l.acquire .src_state).acquire .output_pstream).release .output_pstream) := by
  refine ((holdsOn_openOutput hl hS).release fun _ => by simp).congr fun r hr => ?_
  have := hS r
  grind

end

/-- `InitAudioInterface` holds the resampler if it fails after `src_new`. -/
theorem initAudioInterface_spec (c : CodecSession) (o : Outcome) : ∃ l k,
    c.initAudioInterface o = ({ c with ledger := l, locked := k }, o.srcNew && o.streams) ∧
    ∀ {K S}, HoldsOn K S c.ledger →
      (∀ r ∈ [Resource.src_state, .output_pstream, .input_pstream], r ∈ K → r ∉ S) →
      HoldsOn K (S ∪ if o.srcNew then
        if o.streams then {.src_state, .output_pstream, .input_pstream} else {.src_state}
        else ∅) l := by
  unfold initAudioInterface Outcome.streams
  cases o.srcNew with
  | false =>
      refine ⟨_, c.locked, rfl, fun {K S} hl hS => ?_⟩
      simpa using hl.forget (hS .src_state (by simp))
  | true =>
      cases o.openOutput with
      | false => exact ⟨_, c.locked, rfl, fun hl hS => holdsOn_srcNew hl hS⟩
      | true =>
          cases o.startOutput with
          | false => exact ⟨_, c.locked, rfl, fun hl hS => holdsOn_closeOutput hl hS⟩
          | true =>
              cases o.openInput with
              | false => exact ⟨_, o.locked, rfl, fun hl hS => holdsOn_closeOutput hl hS⟩
              | true =>
                  cases o.startInput with
                  | true => exact ⟨_, o.locked, rfl, fun hl hS => holdsOn_openInput hl hS⟩
                  | false =>
                      refine ⟨_, o.locked, rfl, fun {K S} hl hS => ?_⟩
                      refine (((holdsOn_openInput hl hS).release fun _ => by simp).release fun _ =>
                        by
                        simp).congr fun r hr => ?_
                      have := hS r
                      grind

/-! ## Calls -/

/-- How `connectToHost` leaves a codec it could not connect: idle, with what `failureLeft` lists. -/
structure GivenUp (lib : Libraries) (c : CodecSession) (s : AudioSettings) (o : Outcome)
    (addr : QHostAddress) (c' : CodecSession) : Prop where
  connectionState : c'.connectionState = .idle
  vorbisDecoderReady : c'.vorbisDecoderReady = true → c.vorbisDecoderReady = true
  meterTimer : c'.meterTimer = c.meterTimer
  rtcpTransmitTimer : c'.rtcpTransmitTimer = true → c.rtcpTransmitTimer = true
  rtcpReceiveTimer : c'.rtcpReceiveTimer = true → c.rtcpReceiveTimer = true
  timeoutTimer : c'.timeoutTimer = c.timeoutTimer
  holds : ∀ {K}, HoldsOn K ∅ c.ledger →
    (c.vorbisDecoderReady = true → .vorbis_recv_dsp_state ∉ K ∧ .vorbis_recv_block ∉ K) →
    HoldsOn K (failureLeft lib s o addr) c'.ledger

/-- How it leaves a codec it has connected. -/
structure Established (lib : Libraries) (c : CodecSession) (s : AudioSettings)
    (c' : CodecSession) : Prop where
  connectionState : c'.connectionState = .connecting
  settings : c'.settings = s
  transmitHeader : c'.transmitHeader = true
  destAddr : c'.destAddr.isSome = true
  vorbisDecoderReady : c'.vorbisDecoderReady = c.vorbisDecoderReady
  meterTimer : c'.meterTimer = true
  rtcpTransmitTimer : c'.rtcpTransmitTimer = true
  rtcpReceiveTimer : c'.rtcpReceiveTimer = true
  timeoutTimer : c'.timeoutTimer = c.timeoutTimer
  holds : ∀ {K}, HoldsOn K ∅ c.ledger → HoldsOn K (callResources lib s) c'.ledger

/-- A decoder that is ready releases more. -/
theorem decoderFreed_mono {f : Format} {ready : Bool} {r : Resource}
    (h : r ∈ decoderFreed lib false f) : r ∈ decoderFreed lib ready f := by
  cases f with
  | layer3 | speex | vorbis => grind [decoderFreed]
  | noFormat | unnamed n hn => cases h

/-- `FreeDecoder` and `FreeEncoder`, on what a call of the same settings holds at least. -/
theorem freeBoth_spec (c : CodecSession) (lib : Libraries) : ∃ l,
    (c.freeDecoder lib).freeEncoder = { c with
      ledger := l
      vorbisDecoderReady := c.vorbisDecoderReady ∧ c.settings.format .receive ≠ .vorbis } ∧
    ∀ {K S}, HoldsOn K S c.ledger →
      (∀ r ∈ encoderResources (c.settings.format .transmit) ++
        decoderResources lib (c.settings.format .receive), r ∈ S) →
      (c.vorbisDecoderReady = true → .vorbis_recv_dsp_state ∉ K ∧ .vorbis_recv_block ∉ K) →
      HoldsOn K (((S \ (decoderFreed lib false (c.settings.format .receive)).toFinset).erase
        .preprocess_state) \ (encoderFreed (c.settings.format .transmit)).toFinset) l := by
  obtain ⟨l₁, h₁, hl₁⟩ := freeDecoder_spec c lib
  obtain ⟨l₂, h₂, hl₂⟩ := freeEncoder_spec (c.freeDecoder lib)
  rw [h₁] at h₂ hl₂
  refine ⟨l₂, by rw [h₁, h₂], fun {K S} hl hS hready => ?_⟩
  have hfreed : ∀ r ∈ decoderFreed lib c.vorbisDecoderReady (c.settings.format .receive), r ∈ K →
      r ∈ S := by
    intro r hr hK
    rcases mem_decoderFreed hr with ⟨hres, -⟩ | ⟨-, hc, heq⟩
    · exact hS r (List.mem_append_right _ hres)
    · grind
  refine (hl₂ (hl₁ hl hfreed) fun r hr _ => ?_).congr fun r hK => ?_
  · have henc := encoderFreed_subset hr
    have hpart := part_encoder henc
    refine Finset.mem_sdiff.2 ⟨hS r (List.mem_append_left _ henc), fun hdec => ?_⟩
    rcases mem_decoderFreed (List.mem_toFinset.1 hdec) with ⟨hres, -⟩ | ⟨-, -, rfl | rfl⟩
    · cases hpart.symm.trans (part_decoder hres).1
    · cases hpart
    · cases hpart
  · have hsame : r ∈ decoderFreed lib c.vorbisDecoderReady (c.settings.format .receive) ↔
        r ∈ decoderFreed lib false (c.settings.format .receive) := by
      refine ⟨fun hr => ?_, decoderFreed_mono⟩
      rcases mem_decoderFreed hr with ⟨-, hr⟩ | ⟨-, hc, heq⟩
      · exact hr
      · grind
    simp only [Finset.mem_sdiff, Finset.mem_erase, List.mem_toFinset, hsame]

/-- What is left of `S` when a connection is given up. -/
theorem mem_left {f f' : Format} {r : Resource} {T : Finset Resource}
    (hT : ∀ r ∈ T, part r = .link) :
    r ∈ (((((∅ ∪ (encoderResources f ++ preprocessResources s).toFinset) ∪
      (decoderResources lib f').toFinset) ∪ T) \ (decoderFreed lib false f').toFinset).erase
      .preprocess_state) \ (encoderFreed f).toFinset ↔
    r ∈ (encoderLeft f ++ decoderLeft lib f').toFinset ∪ T := by
  have henc := part_encoder (f := f) (r := r)
  have hencFreed := fun hr => part_encoder (encoderFreed_subset (f := f) (a := r) hr)
  have hpre := part_preprocessor (s := s) (r := r)
  have hdec : r ∈ decoderResources lib f' → _ := part_decoder
  have hdecFreed : r ∈ decoderFreed lib false f' → _ := mem_decoderFreed
  have hlink := hT r
  simp only [encoderLeft, decoderLeft, Finset.mem_sdiff, Finset.mem_erase, Finset.mem_union,
    List.mem_toFinset, List.mem_append, List.mem_filter, decide_not, Bool.not_eq_true',
    decide_eq_false_iff_not]
  grind [part]

/-- What the encoder and the decoder of a call hold. -/
def codecResources (lib : Libraries) (s : AudioSettings) : Finset Resource :=
  (∅ ∪ (encoderResources (s.format .transmit) ++ preprocessResources s).toFinset) ∪
    (decoderResources lib (s.format .receive)).toFinset

/-- No part of the codec is part of the link. -/
theorem part_codec {r : Resource} (h : r ∈ codecResources lib s) : part r ≠ .link := by
  simp only [codecResources, Finset.mem_union, List.mem_toFinset, List.mem_append] at h
  rcases h with (h | h | h) | h
  · cases h
  · simp [part_encoder h]
  · simp [part_preprocessor h, part]
  · simp [(part_decoder h).1]

/-- The exits of `connectToHost`, given what is held besides encoder and decoder. -/
theorem giveUp_spec (hs : c'.settings = s) (hready : c'.vorbisDecoderReady = c.vorbisDecoderReady)
    (hmeter : c'.meterTimer = c.meterTimer)
    (htransmit : c'.rtcpTransmitTimer = true → c.rtcpTransmitTimer = true)
    (hreceive : c'.rtcpReceiveTimer = true → c.rtcpReceiveTimer = true)
    (htimeout : c'.timeoutTimer = c.timeoutTimer)
    (hl : ∀ {K}, HoldsOn K ∅ c.ledger → HoldsOn K (codecResources lib s ∪
      if o.opens addr && o.srcNew then {.src_state} else ∅) c'.ledger) :
    GivenUp lib c s o addr (c'.giveUp lib).1 := by
  obtain ⟨l, h, hfree⟩ := freeBoth_spec c' lib
  have heq : (c'.giveUp lib).1 = { c' with
      ledger := l
      vorbisDecoderReady := c'.vorbisDecoderReady ∧ c'.settings.format .receive ≠ .vorbis
      connectionState := .idle } := by
    simp only [giveUp, h]
  rw [heq]
  refine ⟨rfl, fun hr => ?_, hmeter, htransmit, hreceive, htimeout, fun {K} hc hr => ?_⟩
  · exact hready ▸ (of_decide_eq_true hr).1
  · rw [hs] at hfree
    have hlink : ∀ r ∈ (if o.opens addr && o.srcNew then {.src_state} else ∅ : Finset Resource),
        part r = .link := by
      intro r hr
      split at hr
      · rw [Finset.mem_singleton.1 hr, part]
      · cases hr
    refine (hfree (hl hc) (fun r hmem => ?_) (hready ▸ hr)).congr fun r _ => (mem_left hlink).symm
    simp only [codecResources, Finset.mem_union, List.mem_toFinset, List.mem_append] at hmem ⊢
    grind

/-- What a call holds is of the codec or of the link. -/
theorem mem_callResources {r : Resource} : r ∈ callResources lib s ↔
    r ∈ codecResources lib s ∨ r ∈ linkResources := by
  simp [callResources, codecResources, or_assoc]

/-- The parts of the link. -/
theorem part_link {r : Resource} (h : r ∈ linkResources) : part r = .link := by
  simp only [linkResources, List.mem_cons, List.not_mem_nil, or_false] at h
  rcases h with rfl | rfl | rfl | rfl | rfl | rfl <;> rfl

/-- The encoder and the decoder of a call. -/
theorem initCodec_spec {c₁ c₂ : CodecSession} (hs : c.settings = s)
    (h₁ : c.initEncoder (s.channels .transmit) s.sampleRate (s.enableProcessor .transmit) = some c₁)
    (h₂ : c₁.initDecoder lib s.sampleRate = some c₂) :
    ∃ l, c₂ = { c with ledger := l, transmitHeader := true } ∧
      ∀ {K}, HoldsOn K ∅ c.ledger → HoldsOn K (codecResources lib s) l := by
  subst hs
  obtain ⟨l₁, rfl, hl₁⟩ := initEncoder_spec h₁
  obtain ⟨l₂, rfl, hl₂⟩ := initDecoder_spec h₂
  refine ⟨l₂, rfl, fun {K} hl => ?_⟩
  refine hl₂ (hl₁ hl fun r _ _ => Finset.notMem_empty r) fun r hr _ hmem => ?_
  have hdec := (part_decoder hr).1
  rcases Finset.mem_union.1 hmem with hmem | hmem
  · cases hmem
  · rcases List.mem_append.1 (List.mem_toFinset.1 hmem) with hmem | hmem
    · cases (part_encoder hmem).symm.trans hdec
    · rw [part_preprocessor hmem] at hdec
      cases hdec

/-- The link is no part of the codec. -/
theorem not_mem_codecResources {r : Resource} (h : r ∈ linkResources) : r ∉ codecResources lib s :=
  fun hmem => part_codec hmem (part_link h)

section
variable {l : Ledger Resource} {T : Finset Resource}

/-- The sockets are closed again. -/
theorem holdsOn_closeSockets (hT : ∀ r ∈ T, r = .src_state)
    (hl : HoldsOn K (codecResources lib s ∪ {.rtp_socket, .rtcp_socket} ∪ T) l) :
    HoldsOn K (codecResources lib s ∪ T) ((l.delete .rtcp_socket).delete .rtp_socket) := by
  refine hl.delete.delete.congr fun r _ => ?_
  have hrtp : .rtp_socket ∉ codecResources lib s := not_mem_codecResources (by decide)
  have hrtcp : .rtcp_socket ∉ codecResources lib s := not_mem_codecResources (by decide)
  have hsrc := hT r
  grind

/-- With the averages a call has all that it holds. -/
theorem holdsOn_startMeters (hl : HoldsOn K (codecResources lib s ∪ {.rtp_socket, .rtcp_socket} ∪
      {.src_state, .output_pstream, .input_pstream}) l) :
    HoldsOn K (callResources lib s) (l.acquire .averages) := by
  have haverages : .averages ∉ codecResources lib s := not_mem_codecResources (by decide)
  refine (hl.acquire (r := .averages) fun _ hmem => ?_).congr fun r _ => ?_
  · grind
  · rw [mem_callResources, linkResources]
    grind

end

/-- `connectToHost` of an idle codec, if it comes to an end. -/
theorem connectToHost_spec (hidle : c.connectionState = .idle)
    (h : c.connectToHost lib addr port s o = some (c', out)) :
    if o.opens addr && o.srcNew && o.streams then Established lib c s c'
    else GivenUp lib c s o addr c' := by
  unfold connectToHost at h
  rw [if_neg (not_not.2 hidle)] at h
  simp only [Option.bind_eq_bind, Option.bind_eq_some_iff] at h
  obtain ⟨c₁, h₁, c₂, h₂, h⟩ := h
  obtain ⟨l₂, rfl, hcodec⟩ := initCodec_spec rfl h₁ h₂
  clear h₁ h₂
  have hsocket : ∀ r ∈ [Resource.rtp_socket, .rtcp_socket], r ∈ linkResources := by decide
  have hstopped : ∀ {p : Prop}, false = true → p := fun h => absurd h Bool.false_ne_true
  obtain ⟨l₃, h₃, hl₃⟩ := initSockets_spec { c with
    connectionState := .connecting
    settings := s
    ledger := l₂
    transmitHeader := true } o
  simp only [h₃] at h
  cases hbind : o.bindRtp && o.bindRtcp with
  | false =>
      have hopens : o.opens addr = false := by rw [Outcome.opens, hbind, Bool.false_and]
      simp only [hbind, hopens, Bool.false_and, Bool.false_or, Bool.false_eq_true,
        if_false] at h hl₃ ⊢
      obtain rfl : _ = c' := congrArg Prod.fst (Option.some.inj h)
      refine giveUp_spec rfl rfl rfl id id rfl fun {K} hl => ?_
      simpa [hopens] using hl₃ (hcodec hl) fun r hr _ => not_mem_codecResources (hsocket r hr)
  | true =>
      simp only [hbind, Bool.true_or, if_true] at h hl₃
      have hsockets : ∀ {K}, HoldsOn K ∅ c.ledger →
          HoldsOn K (codecResources lib s ∪ {.rtp_socket, .rtcp_socket}) l₃ :=
        fun hl => hl₃ (hcodec hl) fun r hr _ => not_mem_codecResources (hsocket r hr)
      unfold setDestinationAddress at h
      cases hnull : addr.isNull with
      | true =>
          have hopens : o.opens addr = false := by rw [Outcome.opens, hbind, hnull]; rfl
          simp only [hnull, hopens, if_true, Bool.false_and, Bool.false_eq_true, if_false] at h ⊢
          obtain rfl : _ = c' := congrArg Prod.fst (Option.some.inj h)
          refine giveUp_spec rfl rfl rfl hstopped hstopped rfl fun {K} hl => ?_
          rw [hopens, Bool.false_and, if_neg Bool.false_ne_true]
          refine holdsOn_closeSockets (fun r hr => absurd hr (Finset.notMem_empty r)) ?_
          rw [Finset.union_empty]
          exact hsockets hl
      | false =>
          have hopens : o.opens addr = true := by rw [Outcome.opens, hbind, hnull]; rfl
          simp only [hnull, hopens, Bool.false_eq_true, if_false, Bool.true_and] at h ⊢
          obtain ⟨l₄, k, h₄, hl₄⟩ := initAudioInterface_spec { c with
            connectionState := .connecting
            settings := s
            ledger := l₃
            transmitHeader := true
            destAddr := some addr
            port := port
            rtcpTransmitTimer := true
            rtcpReceiveTimer := true } o
          have haudio : ∀ {K : Set Resource}, ∀ r ∈ [Resource.src_state, .output_pstream,
              .input_pstream], r ∈ K →
              r ∉ codecResources lib s ∪ ({.rtp_socket, .rtcp_socket} : Finset Resource) := by
            intro K r hr _
            have hcodec : r ∉ codecResources lib s := not_mem_codecResources
              ((by decide : ∀ r ∈ [Resource.src_state, .output_pstream, .input_pstream],
                r ∈ linkResources) r hr)
            grind
          simp only [h₄] at h
          cases hdone : o.srcNew && o.streams with
          | true =>
              obtain ⟨hsrc, hstreams⟩ := Bool.and_eq_true_iff.1 hdone
              simp only [hdone] at h
              obtain rfl : _ = c' := congrArg Prod.fst (Option.some.inj h)
              refine ⟨rfl, rfl, rfl, rfl, rfl, rfl, rfl, rfl, rfl, fun {K} hl => ?_⟩
              have hall := hl₄ (hsockets hl) haudio
              rw [hsrc, hstreams] at hall
              exact holdsOn_startMeters hall
          | false =>
              simp only [hdone] at h
              obtain rfl : _ = c' := congrArg Prod.fst (Option.some.inj h)
              refine giveUp_spec rfl rfl rfl hstopped hstopped rfl fun {K} hl => ?_
              have hrest := hl₄ (hsockets hl) haudio
              rw [hopens, Bool.true_and]
              cases hsrc : o.srcNew with
              | false =>
                  rw [hsrc] at hrest
                  exact holdsOn_closeSockets (fun r hr => absurd hr (Finset.notMem_empty r)) hrest
              | true =>
                  rw [hsrc, Bool.true_and] at hdone
                  rw [hsrc, hdone] at hrest
                  exact holdsOn_closeSockets (fun r hr => Finset.mem_singleton.1 hr) hrest

/-- How `disconnect` leaves a codec that had a call: idle, with what `callLeft` lists, and with the
timeout timer as it was. -/
structure Ended (lib : Libraries) (c c' : CodecSession) : Prop where
  connectionState : c'.connectionState = .idle
  vorbisDecoderReady : c'.vorbisDecoderReady = c.vorbisDecoderReady
  meterTimer : c'.meterTimer = false
  rtcpTransmitTimer : c'.rtcpTransmitTimer = false
  rtcpReceiveTimer : c'.rtcpReceiveTimer = false
  timeoutTimer : c'.timeoutTimer = c.timeoutTimer
  holds : ∀ {K}, HoldsOn K (callResources lib c.settings) c.ledger →
    HoldsOn K (callLeft lib c.settings) c'.ledger

/-- What `disconnect` does before it comes to the encoder. -/
theorem freeLink_spec (c : CodecSession) : ∃ l, c.stopMeters.freeAudioInterface.freeSockets =
    { c with
      ledger := l
      meterTimer := false
      locked := false
      lockState := false
      rtcpTransmitTimer := false
      rtcpReceiveTimer := false } ∧
    ∀ {K lib s}, HoldsOn K (callResources lib s) c.ledger → HoldsOn K (codecResources lib s) l := by
  refine ⟨_, rfl, fun {K lib s} hc => ?_⟩
  have hmeters := hc.release (r := .averages) fun _ => mem_callResources.2 (.inr (by decide))
  have houtput := hmeters.release (r := .output_pstream) fun _ =>
    Finset.mem_erase.2 ⟨by decide, mem_callResources.2 (.inr (by decide))⟩
  have hinput := houtput.release (r := .input_pstream) fun _ =>
    Finset.mem_erase.2 ⟨by decide, Finset.mem_erase.2 ⟨by decide,
      mem_callResources.2 (.inr (by decide))⟩⟩
  refine (((hinput.delete (r := .src_state)).delete (r := .rtcp_socket)).delete
    (r := .rtp_socket)).congr fun r _ => ?_
  have hpart : r ∈ codecResources lib s → part r ≠ .link := part_codec
  have hlink := part_link (r := r)
  simp only [Finset.mem_erase, mem_callResources]
  grind [linkResources]

/-- `disconnect` ends a call. -/
theorem disconnect_spec (hbusy : c.connectionState ≠ .idle) (h : c.disconnect = some (c', out)) :
    Ended lib c c' := by
  have hcall : (if c.transmitHeader ∧ c.destAddr.isSome then
      some ({ c.stopMeters.freeAudioInterface.freeSockets.freeEncoder with
        transmitHeader := false
        connectionState := .idle },
        [CodecEvent.locked false, .connectionStateChanged .idle])
      else none) = some (c', out) := by
    unfold disconnect at h
    cases hstate : c.connectionState with
    | idle => exact absurd hstate hbusy
    | connecting | connected =>
        simp only [hstate] at h
        exact h
  obtain ⟨-, hcall⟩ := Option.ite_none_right_eq_some.1 hcall
  obtain ⟨l₁, hfree, hl₁⟩ := freeLink_spec c
  obtain ⟨l₂, hencoder, hl₂⟩ := freeEncoder_spec c.stopMeters.freeAudioInterface.freeSockets
  rw [hencoder, hfree] at hcall
  rw [hfree] at hl₂
  obtain rfl : _ = c' := congrArg Prod.fst (Option.some.inj hcall)
  refine ⟨rfl, rfl, rfl, rfl, rfl, rfl, fun {K} hc => ?_⟩
  refine (hl₂ (hl₁ hc) fun r hr _ => ?_).congr fun r _ => ?_
  · have henc := encoderFreed_subset hr
    simp only [codecResources, Finset.mem_union, List.mem_toFinset, List.mem_append]
    exact .inl (.inr (.inl henc))
  · have henc := part_encoder (f := c.settings.format .transmit) (r := r)
    have hencFreed := fun hr =>
      part_encoder (encoderFreed_subset (f := c.settings.format .transmit) (a := r) hr)
    have hpre := part_preprocessor (s := c.settings) (r := r)
    have hdec : r ∈ decoderResources lib (c.settings.format .receive) → _ := part_decoder
    simp only [callLeft, encoderLeft, codecResources, Finset.mem_sdiff, Finset.mem_erase,
      Finset.mem_union, List.mem_toFinset, List.mem_append, List.mem_filter, decide_not,
      Bool.not_eq_true', decide_eq_false_iff_not]
    grind [part]

/-- `disconnect` as the packets of the codec see it: the two agree on the state it leaves and, the
packet itself apart, on what it emits. -/
theorem disconnect_agrees {k : Codec} {ntp : BitVec 64} {packet : ByteMemory}
    (hk : k.connectionState = c.connectionState) (h : c.disconnect = some (c', out)) :
    (k.disconnect ntp packet).1.connectionState = c'.connectionState ∧
      (k.disconnect ntp packet).2.filter (!·.isPacket) = out := by
  unfold disconnect at h
  cases hstate : c.connectionState with
  | idle =>
      simp only [hstate, Option.some.injEq, Prod.mk.injEq] at h
      obtain ⟨rfl, rfl⟩ := h
      simp only [Codec.disconnect, hk, hstate]
      exact ⟨trivial, rfl⟩
  | connecting | connected =>
      simp only [hstate] at h
      obtain ⟨-, h⟩ := Option.ite_none_right_eq_some.1 h
      obtain ⟨rfl, rfl⟩ := Prod.mk.inj (Option.some.inj h)
      simp [Codec.disconnect, hk, hstate, Codec.setConnectionState, CodecEvent.isPacket]

end

end CodecSession

end NetISDN

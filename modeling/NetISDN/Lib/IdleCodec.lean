import NetISDN.Lib.CodecSpec

/-!
# The idle codec

In every run the sockets, the streams, the meters and the preprocessor of a call are released once,
and the timers of a call run as long as it (`balanced_of_runs`); so a call can always be ended
(`exists_disconnect`). The rest is not: `disconnect` leaves
the decoder and an encoder for Layer 3 or Vorbis, it leaves the timeout timer running, and
`connectToHost` leaves a resampler without streams. `idleHoldsNothing_iff` says which runs are
spared all of these.
-/

namespace NetISDN

open AudioSettings TransitionSystem Ledger

namespace CodecSession

section
variable {lib : Libraries} {c c' : CodecSession} {e : Event} {es : List Event}
  {out tr : List CodecEvent}

/-! ## The steps -/

/-- `FreeEncoder` releases the encoder that the settings ask for. -/
def EncoderFreed (s : AudioSettings) : Prop :=
  s.format .transmit ≠ .layer3 ∧ s.format .transmit ≠ .vorbis

/-- The settings ask for no decoder. -/
def NoDecoder (s : AudioSettings) : Prop :=
  s.format .receive ∉ [Format.layer3, .speex, .vorbis]

/-- `FreeDecoder` releases the decoder that the settings ask for. -/
def DecoderFreed (lib : Libraries) (s : AudioSettings) : Prop :=
  (s.format .receive = .layer3 →
    ∀ r ∈ [Resource.mad_stream, .mad_frame, .mad_synth], lib.allocates r = false) ∧
  (s.format .receive = .speex → lib.destroysDecoder = true) ∧
  (s.format .receive = .vorbis → lib.allocates .vorbis_recv_comment = false)

/-- The steps that leave nothing behind. A `connectToHost` connects, or it fails no later than
`src_new` and with codecs that are freed. What ends a call finds no decoder, an encoder that is
freed, and, unless it is the timeout timer itself, that timer stopped. -/
def Harmless (lib : Libraries) (c : CodecSession) : Event → Prop
  | .connectToHost addr _ s o => c.connectionState = .idle →
      (o.opens addr && o.srcNew && o.streams) = true ∨
        EncoderFreed s ∧ DecoderFreed lib s ∧ (o.opens addr && o.srcNew) = false
  | .disconnect | .bye => c.connectionState ≠ .idle →
      EncoderFreed c.settings ∧ NoDecoder c.settings ∧ c.timeoutTimer = false
  | .timeoutData => c.connectionState ≠ .idle → EncoderFreed c.settings ∧ NoDecoder c.settings
  | .meterData | .audio _ | .setCodebook _ => True

/-- A step that neither begins nor ends a call, nor allocates anything. Only the meters start the
timeout timer. -/
structure Quiet (c c' : CodecSession) : Prop where
  idle : c'.connectionState = .idle ↔ c.connectionState = .idle
  settings : c'.settings = c.settings
  ledger : c'.ledger = c.ledger
  transmitHeader : c'.transmitHeader = c.transmitHeader
  destAddr : c'.destAddr = c.destAddr
  vorbisDecoderReady : c'.vorbisDecoderReady = c.vorbisDecoderReady
  meterTimer : c'.meterTimer = c.meterTimer
  rtcpTransmitTimer : c'.rtcpTransmitTimer = c.rtcpTransmitTimer
  rtcpReceiveTimer : c'.rtcpReceiveTimer = c.rtcpReceiveTimer
  timeoutTimer : c'.timeoutTimer = true → c.timeoutTimer = true ∨ c.meterTimer = true

/-- What an event does to a codec. -/
inductive StepCases (lib : Libraries) (c : CodecSession) : Event → CodecSession → Prop
  | established {addr : QHostAddress} {port : BitVec 16} {s : AudioSettings} {o : Outcome}
      {c' : CodecSession} (hidle : c.connectionState = .idle)
      (ho : (o.opens addr && o.srcNew && o.streams) = true) (h : Established lib c s c') :
      StepCases lib c (.connectToHost addr port s o) c'
  | givenUp {addr : QHostAddress} {port : BitVec 16} {s : AudioSettings} {o : Outcome}
      {c' : CodecSession} (hidle : c.connectionState = .idle)
      (ho : (o.opens addr && o.srcNew && o.streams) = false) (h : GivenUp lib c s o addr c') :
      StepCases lib c (.connectToHost addr port s o) c'
  | ended {e : Event} {c' : CodecSession} (hbusy : c.connectionState ≠ .idle)
      (he : e = .disconnect ∨ e = .bye) (h : Ended lib c c') : StepCases lib c e c'
  | timedOut {c' : CodecSession} (hbusy : c.connectionState ≠ .idle)
      (h : Ended lib { c with timeoutTimer := false } c') : StepCases lib c .timeoutData c'
  | codebook (hinfo : (c.ledger .vorbis_recv_info).current = true) :
      StepCases lib c (.setCodebook true)
        { (c.acquire .vorbis_recv_dsp_state).acquire .vorbis_recv_block with
          vorbisDecoderReady := true }
  | quiet {e : Event} {c' : CodecSession} (he : Harmless lib c e) (h : Quiet c c') :
      StepCases lib c e c'

/-- Nothing happens. -/
theorem Quiet.refl (c : CodecSession) : Quiet c c :=
  ⟨Iff.rfl, rfl, rfl, rfl, rfl, rfl, rfl, rfl, rfl, .inl⟩

/-- There is no call to end. -/
theorem disconnect_idle (hidle : c.connectionState = .idle) : c.disconnect = some (c, []) := by
  unfold disconnect
  rw [hidle]

/-- The meters hold no resource. -/
theorem quiet_meterData (hmeter : c.meterTimer = true) : Quiet c c.meterData.1 := by
  unfold meterData
  split
  · unfold connectLocked
    split
    · next h => exact ⟨by simp [h.2], rfl, rfl, rfl, rfl, rfl, rfl, rfl, rfl, fun _ => .inr hmeter⟩
    · exact ⟨Iff.rfl, rfl, rfl, rfl, rfl, rfl, rfl, rfl, rfl, fun _ => .inr hmeter⟩
  · exact .refl c

/-- What a step does. -/
theorem step_cases (h : step lib c e = some (c', out)) : StepCases lib c e c' := by
  cases e with
  | connectToHost addr port s o =>
      rcases eq_or_ne c.connectionState .idle with hidle | hbusy
      · have hspec := connectToHost_spec hidle h
        split at hspec
        · next ho => exact .established hidle ho hspec
        · next ho => exact .givenUp hidle (Bool.eq_false_iff.2 ho) hspec
      · have hsame : c.connectToHost lib addr port s o = some (c, []) := if_pos hbusy
        obtain rfl : c = c' := congrArg Prod.fst (Option.some.inj (hsame.symm.trans h))
        exact .quiet (fun hidle => absurd hidle hbusy) (.refl c)
  | disconnect =>
      rcases eq_or_ne c.connectionState .idle with hidle | hbusy
      · obtain rfl : c = c' :=
          congrArg Prod.fst (Option.some.inj ((disconnect_idle hidle).symm.trans h))
        exact .quiet (fun hbusy => absurd hidle hbusy) (.refl c)
      · exact .ended hbusy (.inl rfl) (disconnect_spec hbusy h)
  | bye =>
      obtain ⟨-, h⟩ := Option.ite_none_right_eq_some.1 h
      rcases eq_or_ne c.connectionState .idle with hidle | hbusy
      · obtain rfl : c = c' :=
          congrArg Prod.fst (Option.some.inj ((disconnect_idle hidle).symm.trans h))
        exact .quiet (fun hbusy => absurd hidle hbusy) (.refl c)
      · exact .ended hbusy (.inr rfl) (disconnect_spec hbusy h)
  | timeoutData =>
      obtain ⟨-, h⟩ := Option.ite_none_right_eq_some.1 h
      rcases eq_or_ne c.connectionState .idle with hidle | hbusy
      · have hsame : disconnect { c with timeoutTimer := false } = some (_, []) :=
          disconnect_idle hidle
        obtain rfl : _ = c' := congrArg Prod.fst (Option.some.inj (hsame.symm.trans h))
        exact .quiet (fun hbusy => absurd hidle hbusy)
          ⟨Iff.rfl, rfl, rfl, rfl, rfl, rfl, rfl, rfl, rfl, (nomatch ·)⟩
      · exact .timedOut hbusy (disconnect_spec hbusy h)
  | meterData =>
      obtain ⟨hmeter, h⟩ := Option.ite_none_right_eq_some.1 h
      obtain rfl : _ = c' := congrArg Prod.fst (Option.some.inj h)
      exact .quiet trivial (quiet_meterData hmeter)
  | audio locked =>
      obtain ⟨-, h⟩ := Option.ite_none_right_eq_some.1 h
      obtain rfl : _ = c' := congrArg Prod.fst (Option.some.inj h)
      exact .quiet trivial ⟨Iff.rfl, rfl, rfl, rfl, rfl, rfl, rfl, rfl, rfl, .inl⟩
  | setCodebook accepted =>
      obtain ⟨c₁, h₁, h⟩ := Option.map_eq_some_iff.1 h
      obtain rfl : c₁ = c' := congrArg Prod.fst h
      cases accepted with
      | false =>
          obtain rfl := Option.some.inj h₁
          exact .quiet trivial (.refl c)
      | true =>
          simp only [setCodebook, if_true, Option.bind_eq_bind, Option.bind_eq_some_iff] at h₁
          obtain ⟨c₂, h₂, h₁⟩ := h₁
          obtain ⟨hinfo, h₂⟩ := Option.ite_none_right_eq_some.1 h₂
          obtain rfl := Option.some.inj h₂
          obtain rfl := Option.some.inj h₁
          exact .codebook hinfo

/-! ## What is always released -/

/-- What a call holds that no exit leaves. -/
def balancedKinds : Set Resource :=
  {.output_pstream, .input_pstream, .rtp_socket, .rtcp_socket, .averages, .preprocess_state}

/-- The books of an idle codec are empty in the `balancedKinds`, those of a call list them, and the
timers but one run during a call. -/
structure Balanced (lib : Libraries) (c : CodecSession) : Prop where
  idle : c.connectionState = .idle → HoldsOn balancedKinds ∅ c.ledger
  call : c.connectionState ≠ .idle → HoldsOn balancedKinds (callResources lib c.settings) c.ledger
  meterTimer : c.meterTimer = true ↔ c.connectionState ≠ .idle
  rtcpTransmitTimer : c.rtcpTransmitTimer = true ↔ c.connectionState ≠ .idle
  rtcpReceiveTimer : c.rtcpReceiveTimer = true ↔ c.connectionState ≠ .idle
  transmitHeader : c.connectionState ≠ .idle → c.transmitHeader = true
  destAddr : c.connectionState ≠ .idle → c.destAddr.isSome = true

/-- A new codec holds nothing. -/
theorem balanced_new : Balanced lib {} where
  idle := fun _ r _ => (if_neg (Finset.notMem_empty r)).symm
  call := fun h => absurd rfl h
  meterTimer := by simp
  rtcpTransmitTimer := by simp
  rtcpReceiveTimer := by simp
  transmitHeader := fun h => absurd rfl h
  destAddr := fun h => absurd rfl h

/-- The balanced kinds are neither of the encoder nor of the decoder, nor the resampler. -/
theorem part_balanced {r : Resource} (hr : r ∈ balancedKinds) :
    part r ≠ .encoder ∧ part r ≠ .decoder ∧ r ≠ .src_state := by
  rcases hr with rfl | rfl | rfl | rfl | rfl | rfl <;> simp [part]

/-- None of them is left by an encoder. -/
theorem notMem_encoderLeft {f : Format} {r : Resource} (hr : r ∈ balancedKinds) :
    r ∉ encoderLeft f :=
  fun h => (part_balanced hr).1 (part_encoder (List.mem_filter.1 h).1)

/-- None of them is allocated by a decoder. -/
theorem notMem_decoderResources {f : Format} {r : Resource} (hr : r ∈ balancedKinds) :
    r ∉ decoderResources lib f :=
  fun h => (part_balanced hr).2.1 (part_decoder h).1

/-- None of them is left by a call that fails. -/
theorem notMem_failureLeft {s : AudioSettings} {o : Outcome} {addr : QHostAddress} {r : Resource}
    (hr : r ∈ balancedKinds) : r ∉ failureLeft lib s o addr := by
  intro h
  simp only [failureLeft, Finset.mem_union, List.mem_toFinset, List.mem_append] at h
  rcases h with (h | h) | h
  · exact notMem_encoderLeft hr h
  · exact notMem_decoderResources hr (List.mem_filter.1 h).1
  · split at h
    · exact (part_balanced hr).2.2 (Finset.mem_singleton.1 h)
    · cases h

/-- None of them is left by a call that is ended. -/
theorem notMem_callLeft {s : AudioSettings} {r : Resource} (hr : r ∈ balancedKinds) :
    r ∉ callLeft lib s := by
  intro h
  rcases List.mem_append.1 (List.mem_toFinset.1 h) with h | h
  · exact notMem_encoderLeft hr h
  · exact notMem_decoderResources hr h

/-- The end of a call balances. -/
theorem Balanced.ended (h : Ended lib c c')
    (hl : HoldsOn balancedKinds (callResources lib c.settings) c.ledger) : Balanced lib c' where
  idle := fun _ => (h.holds hl).congr fun r hr =>
    iff_of_false (Finset.notMem_empty r) (notMem_callLeft hr)
  call := fun hbusy => absurd h.connectionState hbusy
  meterTimer := by simp [h.meterTimer, h.connectionState]
  rtcpTransmitTimer := by simp [h.rtcpTransmitTimer, h.connectionState]
  rtcpReceiveTimer := by simp [h.rtcpReceiveTimer, h.connectionState]
  transmitHeader := fun hbusy => absurd h.connectionState hbusy
  destAddr := fun hbusy => absurd h.connectionState hbusy

/-- The step lemma. -/
theorem Balanced.step (hc : Balanced lib c) (h : StepCases lib c e c') : Balanced lib c' := by
  cases h with
  | @established addr port s o c' hidle ho h =>
      have hbusy : c'.connectionState ≠ .idle := by simp [h.connectionState]
      refine ⟨fun hidle => absurd hidle hbusy, fun _ => ?_, ?_, ?_, ?_, fun _ => h.transmitHeader,
        fun _ => h.destAddr⟩
      · rw [h.settings]
        exact h.holds (hc.idle hidle)
      · simp [h.meterTimer, hbusy]
      · simp [h.rtcpTransmitTimer, hbusy]
      · simp [h.rtcpReceiveTimer, hbusy]
  | @givenUp addr port s o c' hidle ho h =>
      have hidle' := h.connectionState
      refine ⟨fun _ => ?_, fun hbusy => absurd hidle' hbusy, ?_, ?_, ?_,
        fun hbusy => absurd hidle' hbusy, fun hbusy => absurd hidle' hbusy⟩
      · refine (h.holds (hc.idle hidle) fun _ => by simp [balancedKinds]).congr fun r hr => ?_
        exact iff_of_false (Finset.notMem_empty r) (notMem_failureLeft hr)
      · simp [h.meterTimer, hc.meterTimer, hidle, hidle']
      · simpa [hidle'] using fun ht => hc.rtcpTransmitTimer.1 (h.rtcpTransmitTimer ht) hidle
      · simpa [hidle'] using fun ht => hc.rtcpReceiveTimer.1 (h.rtcpReceiveTimer ht) hidle
  | ended hbusy he h => exact .ended h (hc.call hbusy)
  | timedOut hbusy h => exact .ended h (hc.call hbusy)
  | codebook hinfo =>
      have hsame : ∀ r ∈ balancedKinds,
          ((c.ledger.acquire .vorbis_recv_dsp_state).acquire .vorbis_recv_block) r =
            c.ledger r := by
        rintro r (rfl | rfl | rfl | rfl | rfl | rfl) <;> rfl
      exact ⟨fun hidle => (hc.idle hidle).of_eq hsame, fun hbusy => (hc.call hbusy).of_eq hsame,
        hc.meterTimer, hc.rtcpTransmitTimer, hc.rtcpReceiveTimer, hc.transmitHeader, hc.destAddr⟩
  | quiet he h =>
      have hbusy : c'.connectionState ≠ .idle ↔ c.connectionState ≠ .idle := not_congr h.idle
      refine ⟨fun hidle => ?_, fun hbusy' => ?_, ?_, ?_, ?_, fun hbusy' => ?_, fun hbusy' => ?_⟩
      · exact h.ledger ▸ hc.idle (h.idle.1 hidle)
      · rw [h.ledger, h.settings]
        exact hc.call (hbusy.1 hbusy')
      · rw [h.meterTimer, hc.meterTimer, hbusy]
      · rw [h.rtcpTransmitTimer, hc.rtcpTransmitTimer, hbusy]
      · rw [h.rtcpReceiveTimer, hc.rtcpReceiveTimer, hbusy]
      · exact h.transmitHeader ▸ hc.transmitHeader (hbusy.1 hbusy')
      · exact h.destAddr ▸ hc.destAddr (hbusy.1 hbusy')

/-- **Sockets, streams, meters and the preprocessor are released once, and the timers that a call
starts run as long as it.** This holds in every run. -/
theorem balanced_of_runs {P : CodecSession → Event → Prop} (h : Runs (step lib) P {} es c tr) :
    Balanced lib c :=
  h.invariant balanced_new fun _ _ _ _ hc _ hs => hc.step (step_cases hs)

/-- A call can always be ended. -/
theorem exists_disconnect (hc : Balanced lib c) : ∃ c' out, c.disconnect = some (c', out) := by
  cases hstate : c.connectionState with
  | idle => exact ⟨c, [], disconnect_idle hstate⟩
  | connecting | connected =>
      have hbusy : c.connectionState ≠ .idle := by simp [hstate]
      have hready : c.stopMeters.freeAudioInterface.transmitHeader = true ∧
          c.stopMeters.freeAudioInterface.destAddr.isSome = true :=
        ⟨hc.transmitHeader hbusy, hc.destAddr hbusy⟩
      unfold disconnect
      simp only [hstate]
      rw [if_pos hready]
      exact ⟨_, _, rfl⟩

/-! ## What is left -/

/-- An idle codec as it should be: nothing is unreleased, nothing was released twice, no Vorbis
decoder is ready, and no timer runs. -/
structure HoldsNothing (c : CodecSession) : Prop where
  unreleased : ∀ r, (c.ledger r).unreleased = 0
  releasedTwice : ∀ r, (c.ledger r).releasedTwice = false
  vorbisDecoderReady : c.vorbisDecoderReady = false
  meterTimer : c.meterTimer = false
  rtcpTransmitTimer : c.rtcpTransmitTimer = false
  rtcpReceiveTimer : c.rtcpReceiveTimer = false
  timeoutTimer : c.timeoutTimer = false

/-- An encoder that leaves nothing. -/
theorem encoderLeft_eq_nil_iff {s : AudioSettings} :
    encoderLeft (s.format .transmit) = [] ↔ EncoderFreed s := by
  unfold EncoderFreed
  cases s.format .transmit <;> simp [encoderLeft, encoderResources, encoderFreed]

/-- A format without a decoder. -/
theorem decoderResources_eq_nil_iff (lib : Libraries) {s : AudioSettings} :
    decoderResources lib (s.format .receive) = [] ↔ NoDecoder s := by
  unfold NoDecoder
  cases s.format .receive <;> simp [decoderResources]

/-- A decoder that leaves nothing. -/
theorem decoderLeft_eq_nil_iff {s : AudioSettings} :
    decoderLeft lib (s.format .receive) = [] ↔ DecoderFreed lib s := by
  unfold DecoderFreed
  cases s.format .receive <;>
    simp [decoderLeft, decoderResources, decoderFreed, List.filter_eq_nil_iff]

/-- A failure that leaves nothing. -/
theorem failureLeft_eq_empty_iff {s : AudioSettings} {o : Outcome} {addr : QHostAddress} :
    failureLeft lib s o addr = ∅ ↔
      EncoderFreed s ∧ DecoderFreed lib s ∧ (o.opens addr && o.srcNew) = false := by
  rw [← encoderLeft_eq_nil_iff, ← decoderLeft_eq_nil_iff]
  cases h : o.opens addr && o.srcNew <;> simp [failureLeft, h]

/-- A call that leaves nothing. -/
theorem callLeft_eq_empty_iff (lib : Libraries) {s : AudioSettings} :
    callLeft lib s = ∅ ↔ EncoderFreed s ∧ NoDecoder s := by
  rw [← encoderLeft_eq_nil_iff, ← decoderResources_eq_nil_iff lib]
  simp [callLeft]

/-- The kinds whose books are in order in a call. A codebook that is set twice spoils those of its
decoder. -/
def callKinds (s : AudioSettings) : Set Resource :=
  {r | s.format .receive = .vorbis → r ≠ .vorbis_recv_dsp_state ∧ r ≠ .vorbis_recv_block}

/-- The codec after steps that are all harmless. -/
structure Clean (lib : Libraries) (c : CodecSession) : Prop where
  idle : c.connectionState = .idle → HoldsOn Set.univ ∅ c.ledger
  call : c.connectionState ≠ .idle →
    HoldsOn (callKinds c.settings) (callResources lib c.settings) c.ledger
  vorbisDecoderReady : c.vorbisDecoderReady = true →
    c.connectionState ≠ .idle ∧ c.settings.format .receive = .vorbis
  timeoutTimer : c.timeoutTimer = true → c.connectionState ≠ .idle

/-- A new codec is clean. -/
theorem clean_new : Clean lib {} where
  idle := fun _ r _ => (if_neg (Finset.notMem_empty r)).symm
  call := fun h => absurd rfl h
  vorbisDecoderReady := (nomatch ·)
  timeoutTimer := (nomatch ·)

/-- An idle codec that is clean and balanced holds nothing. -/
theorem Clean.holdsNothing (hc : Clean lib c) (hb : Balanced lib c)
    (hidle : c.connectionState = .idle) :
    c.HoldsNothing := by
  have hfree : ∀ r, c.ledger r = Handle.free :=
    fun r => (hc.idle hidle).free trivial (Finset.notMem_empty r)
  refine ⟨fun r => by rw [hfree r]; rfl, fun r => by rw [hfree r]; rfl, ?_, ?_, ?_, ?_, ?_⟩
  · exact Bool.eq_false_iff.2 fun h => (hc.vorbisDecoderReady h).1 hidle
  · exact Bool.eq_false_iff.2 fun h => hb.meterTimer.1 h hidle
  · exact Bool.eq_false_iff.2 fun h => hb.rtcpTransmitTimer.1 h hidle
  · exact Bool.eq_false_iff.2 fun h => hb.rtcpReceiveTimer.1 h hidle
  · exact Bool.eq_false_iff.2 fun h => hc.timeoutTimer h hidle

/-- Without a Vorbis decoder all books are in order. -/
theorem callKinds_eq_univ {s : AudioSettings} (h : NoDecoder s) : callKinds s = Set.univ := by
  refine Set.eq_univ_of_forall fun r hvorbis => ?_
  rw [NoDecoder, hvorbis] at h
  exact absurd (by decide) h

/-- The end of a call that leaves nothing. -/
theorem Clean.ended (h : Ended lib c c') (hfreed : EncoderFreed c.settings ∧ NoDecoder c.settings)
    (hl : HoldsOn (callKinds c.settings) (callResources lib c.settings) c.ledger)
    (hready : c.vorbisDecoderReady = true → c.settings.format .receive = .vorbis)
    (htimer : c.timeoutTimer = false) : Clean lib c' := by
  refine ⟨fun _ => ?_, fun hbusy => absurd h.connectionState hbusy, fun hr => ?_, fun ht => ?_⟩
  · rw [callKinds_eq_univ hfreed.2] at hl
    have hleft := h.holds hl
    rwa [(callLeft_eq_empty_iff lib).2 hfreed] at hleft
  · have hvorbis := hready (h.vorbisDecoderReady ▸ hr)
    exact absurd (by simp [hvorbis]) hfreed.2
  · rw [h.timeoutTimer, htimer] at ht
    cases ht

/-- A codebook is set during a call with a Vorbis decoder. -/
theorem Clean.of_codebook (hc : Clean lib c)
    (hinfo : (c.ledger .vorbis_recv_info).current = true) :
    c.connectionState ≠ .idle ∧ c.settings.format .receive = .vorbis := by
  have hbusy : c.connectionState ≠ .idle := by
    intro hidle
    rw [(hc.idle hidle).free trivial (Finset.notMem_empty _)] at hinfo
    cases hinfo
  refine ⟨hbusy, by_contra fun hne => ?_⟩
  have hnot : Resource.vorbis_recv_info ∉ callResources lib c.settings := by
    intro h
    rcases mem_callResources.1 h with h | h
    · simp only [codecResources, Finset.mem_union, List.mem_toFinset, List.mem_append] at h
      rcases h with (h | h | h) | h
      · cases h
      · cases part_encoder h
      · cases part_preprocessor h
      · cases hf : c.settings.format .receive <;> simp_all [decoderResources]
    · cases part_link h
  rw [(hc.call hbusy).free (fun hv => absurd hv hne) hnot] at hinfo
  cases hinfo

/-- What a harmless step preserves. -/
theorem Clean.step (hc : Clean lib c) (hb : Balanced lib c) (he : Harmless lib c e)
    (h : StepCases lib c e c') :
    Clean lib c' := by
  cases h with
  | @established addr port s o c' hidle ho h =>
      have hbusy : c'.connectionState ≠ .idle := by simp [h.connectionState]
      refine ⟨fun hidle' => absurd hidle' hbusy, fun _ => ?_, fun hr => ?_, fun _ => hbusy⟩
      · exact (h.holds (hc.idle hidle)).mono (Set.subset_univ _) |> fun hl => h.settings ▸ hl
      · exact absurd hidle (hc.vorbisDecoderReady (h.vorbisDecoderReady ▸ hr)).1
  | @givenUp addr port s o c' hidle ho h =>
      have hfreed : EncoderFreed s ∧ DecoderFreed lib s ∧ (o.opens addr && o.srcNew) = false := by
        rcases he hidle with hconnects | hfreed
        · cases ho.symm.trans hconnects
        · exact hfreed
      refine ⟨fun _ => ?_, fun hbusy => absurd h.connectionState hbusy, fun hr => ?_, fun ht => ?_⟩
      · have hleft := h.holds (hc.idle hidle) fun hr =>
          absurd hidle (hc.vorbisDecoderReady hr).1
        rwa [failureLeft_eq_empty_iff.2 hfreed] at hleft
      · exact absurd hidle (hc.vorbisDecoderReady (h.vorbisDecoderReady hr)).1
      · exact absurd hidle (hc.timeoutTimer (h.timeoutTimer ▸ ht))
  | ended hbusy heq h =>
      have hfreed : EncoderFreed c.settings ∧ NoDecoder c.settings ∧ c.timeoutTimer = false := by
        rcases heq with rfl | rfl
        · exact he hbusy
        · exact he hbusy
      exact .ended h ⟨hfreed.1, hfreed.2.1⟩ (hc.call hbusy)
        (fun hr => (hc.vorbisDecoderReady hr).2) hfreed.2.2
  | timedOut hbusy h =>
      exact .ended h (he hbusy) (hc.call hbusy) (fun hr => (hc.vorbisDecoderReady hr).2) rfl
  | codebook hinfo =>
      obtain ⟨hbusy, hvorbis⟩ := hc.of_codebook hinfo
      refine ⟨fun hidle => absurd hidle hbusy, fun _ => ?_, fun _ => ⟨hbusy, hvorbis⟩,
        hc.timeoutTimer⟩
      refine (hc.call hbusy).of_eq fun r hr => ?_
      obtain ⟨hdsp, hblock⟩ := hr hvorbis
      exact (Function.update_of_ne hblock _ _).trans (Function.update_of_ne hdsp _ _)
  | quiet _ h =>
      have hbusy : c'.connectionState ≠ .idle ↔ c.connectionState ≠ .idle := not_congr h.idle
      refine ⟨fun hidle => ?_, fun hbusy' => ?_, fun hr => ?_, fun ht => ?_⟩
      · exact h.ledger ▸ hc.idle (h.idle.1 hidle)
      · rw [h.ledger, h.settings]
        exact hc.call (hbusy.1 hbusy')
      · rw [hbusy, h.settings]
        exact hc.vorbisDecoderReady (h.vorbisDecoderReady ▸ hr)
      · rcases h.timeoutTimer ht with ht | ht
        · exact hbusy.2 (hc.timeoutTimer ht)
        · exact hbusy.2 (hb.meterTimer.1 ht)

/-- A call that leaves nothing behind had no decoder, and an encoder that is freed. -/
theorem Ended.freed (h : Ended lib c c') (hn : c'.HoldsNothing)
    (hl : HoldsOn (callKinds c.settings) (callResources lib c.settings) c.ledger) :
    EncoderFreed c.settings ∧ NoDecoder c.settings := by
  refine (callLeft_eq_empty_iff lib).1 (Finset.eq_empty_of_forall_notMem fun r hr => ?_)
  have hkind : r ∈ callKinds c.settings := by
    intro _
    rcases List.mem_append.1 (List.mem_toFinset.1 hr) with hr | hr
    · have hpart := part_encoder (List.mem_filter.1 hr).1
      exact ⟨fun heq => by simp [heq, part] at hpart, fun heq => by simp [heq, part] at hpart⟩
    · exact (part_decoder hr).2
  exact (h.holds hl).notMem hkind (hn.unreleased r) hr

/-- A step that leaves nothing behind is harmless. -/
theorem Clean.harmless (hc : Clean lib c) (h : StepCases lib c e c')
    (hnothing : c'.connectionState = .idle → c'.HoldsNothing) : Harmless lib c e := by
  cases h with
  | established hidle ho h => exact fun _ => .inl ho
  | givenUp hidle ho h =>
      have hleft := h.holds (hc.idle hidle) fun hr => absurd hidle (hc.vorbisDecoderReady hr).1
      have hn := hnothing h.connectionState
      exact fun _ => .inr (failureLeft_eq_empty_iff.1 (Finset.eq_empty_of_forall_notMem fun r =>
        hleft.notMem trivial (hn.unreleased r)))
  | ended hbusy heq h =>
      have hn := hnothing h.connectionState
      obtain ⟨henc, hdec⟩ := h.freed hn (hc.call hbusy)
      have htimer : c.timeoutTimer = false := h.timeoutTimer ▸ hn.timeoutTimer
      rcases heq with rfl | rfl
      · exact fun _ => ⟨henc, hdec, htimer⟩
      · exact fun _ => ⟨henc, hdec, htimer⟩
  | timedOut hbusy h =>
      have hfreed := h.freed (hnothing h.connectionState) (hc.call hbusy)
      exact fun _ => hfreed
  | codebook hinfo => exact trivial
  | quiet he h => exact he

/-! ## Runs -/

/-- In every state that the events lead through, an idle codec holds nothing. -/
def IdleHoldsNothing (lib : Libraries) (es : List Event) : Prop :=
  ∀ pre post c tr, es = pre ++ post → Runs (step lib) Always {} pre c tr →
    c.connectionState = .idle → c.HoldsNothing

/-- The run lemma. -/
theorem clean_of_runs (h : Runs (step lib) (Harmless lib) {} es c tr) :
    Clean lib c ∧ Balanced lib c :=
  h.invariant (I := fun c => Clean lib c ∧ Balanced lib c) ⟨clean_new, balanced_new⟩
    fun _ _ _ _ hc he hs =>
      ⟨hc.1.step hc.2 he (step_cases hs), hc.2.step (step_cases hs)⟩

/-- **An idle codec holds nothing, throughout a run, exactly if every step of the run is
harmless.** -/
theorem idleHoldsNothing_iff (h : Runs (step lib) Always {} es c tr) :
    IdleHoldsNothing lib es ↔ Runs (step lib) (Harmless lib) {} es c tr := by
  constructor
  · intro hall
    induction h with
    | nil => exact .nil
    | @snoc es c c' tr out e hr _ hs ih =>
        have hpre : IdleHoldsNothing lib es := fun pre post c₁ tr₁ heq =>
          hall pre (post ++ [e]) c₁ tr₁ (by rw [heq, List.append_assoc])
        have hharmless := ih hpre
        refine hharmless.snoc ?_ hs
        exact (clean_of_runs hharmless).1.harmless (step_cases hs)
          (hall (es ++ [e]) [] c' _ (List.append_nil _).symm (hr.snoc trivial hs))
  · rintro hharmless pre post c₁ tr₁ rfl hr hidle
    obtain ⟨c₂, tr₂, -, hpre, -, -⟩ := hharmless.split
    obtain ⟨rfl, -⟩ := hr.det hpre
    obtain ⟨hclean, hbalanced⟩ := clean_of_runs hpre
    exact hclean.holdsNothing hbalanced hidle

end

/-- Mono Speex for narrow band, both ways. -/
def speexSettings : AudioSettings where
  set_format := fun _ => .speex
  set_channels := fun _ => 1
  set_sample_rate := 8000

/-- An address to call. -/
def peer : QHostAddress := ⟨0xc0a80002⟩

/-- Libraries as they are: nothing is allocated for a structure that is only reset. -/
def plainLibraries : Libraries := ⟨fun _ => false, true⟩

/-- The Speex encoder is freed. -/
theorem encoderFreed_speexSettings : EncoderFreed speexSettings := ⟨by decide, by decide⟩

/-- So is the decoder, where the encoder's destructor does it. -/
theorem decoderFreed_speexSettings : DecoderFreed plainLibraries speexSettings :=
  ⟨fun _ _ _ => rfl, fun _ => rfl, fun _ => rfl⟩

/-- A call that fails as the second socket is taken, and one that is set up. -/
def secondTry : List Event :=
  [.connectToHost peer 5004 speexSettings { bindRtcp := false },
    .connectToHost peer 5004 speexSettings {}, .audio true, .meterData]

/-- Nothing is left of the call that failed. -/
theorem idleHoldsNothing_iff_demo : IdleHoldsNothing plainLibraries secondTry := by
  have hfails : Harmless plainLibraries {}
      (.connectToHost peer 5004 speexSettings { bindRtcp := false }) := fun _ =>
    .inr ⟨encoderFreed_speexSettings, decoderFreed_speexSettings, rfl⟩
  have hconnects (c : CodecSession) :
      Harmless plainLibraries c (.connectToHost peer 5004 speexSettings {}) := fun _ => .inl rfl
  have hquiet (c : CodecSession) : Harmless plainLibraries c (.audio true) ∧
      Harmless plainLibraries c .meterData := ⟨trivial, trivial⟩
  have hrun : ∃ c tr, Runs (step plainLibraries) (Harmless plainLibraries) {} secondTry c tr :=
    ⟨_, _, (((Runs.nil.snoc hfails rfl).snoc (hconnects _) rfl).snoc (hquiet _).1 rfl).snoc
      (hquiet _).2 rfl⟩
  obtain ⟨c, tr, hrun⟩ := hrun
  exact (idleHoldsNothing_iff (hrun.mono fun _ _ _ => trivial)).2 hrun

/-- A call that is ended after the far end was lost, and another one, which the timer of the first
ends. -/
def twoCalls : List Event :=
  [.connectToHost peer 5004 speexSettings {}, .audio true, .meterData, .audio false,
    .meterData, .disconnect, .connectToHost peer 5004 speexSettings {}, .timeoutData]

/-- The decoder of a call is left. -/
theorem idleHoldsNothing_fails : ¬ ∀ (lib : Libraries) (es : List Event),
    (∀ addr port s o, Event.connectToHost addr port s o ∈ es →
      ∀ dir, s.format dir ∈ [Format.layer3, .speex, .vorbis]) → IdleHoldsNothing lib es := by
  intro hall
  have hrun : ∃ c tr, Runs (step plainLibraries) Always {} twoCalls c tr ∧
      c.connectionState = .idle ∧ (c.ledger .speex_dec_bits).unreleased = 2 :=
    ⟨_, _, runs_of_run rfl, rfl, rfl⟩
  obtain ⟨c, tr, hrun, hidle, hbits⟩ := hrun
  have hnothing := hall plainLibraries twoCalls (fun addr port s o h dir => ?_) twoCalls [] c tr
    (List.append_nil _).symm hrun hidle
  · rw [hnothing.unreleased] at hbits
    cases hbits
  · simp only [twoCalls, List.mem_cons, Event.connectToHost.injEq, reduceCtorEq, false_or,
      List.not_mem_nil, or_false] at h
    rcases h with ⟨-, -, rfl, -⟩ | ⟨-, -, rfl, -⟩ <;> cases dir <;> decide

end CodecSession

end NetISDN

import NetISDN.Lib.SenderCounts
import NetISDN.System.Frames

/-!
# The audio stream, end to end

The frames of an encoder travel in packets that the far end hands to its decoder. Whatever the
network loses, repeats or delays, the decoder is handed frames that the encoder has made, in their
order, and none twice, as long as the receiver is in step (`heard_sublist`). A network that keeps
the order makes the decoder miss the frame behind each gap, and the one whose packet is numbered 0;
if it brings each packet at least once, which is what sending every packet several times is for, the
decoder gets what the encoder has written (`heard_of_arriving`).
-/

namespace NetISDN

open TransitionSystem

/-! ## A call of the callback -/

namespace AudioInput

variable {t t' : AudioInput} {call : InputCall} {sent : List (List (BitVec 8))}

/-- What a call that completes a frame leaves in the packet buffer. -/
theorem bytes_encodeLayer3Frame {outbuf : ByteMemory} {n : Int} (h : Transmits t)
    (ha : Appends t call) (hle : t.frameSize ≤ t.lameOffset + call.lame.length)
    (hlt : t.lameOffset + call.lame.length < 2 * t.frameSize) (hfits : 12 + t.frameSize ≤ 1500)
    (hencode : t.encodeLayer3Frame call = some (t', outbuf, n)) :
    ∃ frame, frame.length = t.frameSize ∧
      outbuf.bytes 0 (12 + t.frameSize) = t.header.packet frame := by
  have hblocks : (t.lameOffset + call.lame.length) / t.frameSize = 1 :=
    Nat.div_eq_of_lt_le (by omega) (by omega)
  have hcount : t.header.csrcCount = 0 := by rw [RTPHeader.csrcCount, h.csrcs, List.length_nil]
  have hwrite : t.header.writeBlock call.outbuf 0 375 =
      (call.outbuf.setWords 0 [t.header.firstWord, t.header.timestamp, t.header.ssrc], 3) := by
    rw [RTPHeader.writeBlock_eq (by rw [hcount]; decide), hcount, h.csrcs, List.append_nil]
  rw [encodeLayer3Frame] at hencode
  simp only [ha.toInt, Int.natCast_nonneg, ge_iff_le, if_true, Int.toNat_natCast,
    writeLayer3Buffer, hblocks, writeLayer3Blocks, writeLayer3Block, hwrite,
    if_pos (show 4 * 3 + t.frameSize ≤ 1500 from hfits), Option.bind_eq_bind, Option.bind_some,
    Option.pure_def, Option.some.injEq, Prod.mk.injEq] at hencode
  obtain ⟨-, rfl, -⟩ := hencode
  have hpacket := RTPHeader.bytes_packet call.outbuf t.header
    ((call.buf.setBytes t.lameOffset call.lame).bytes 0 t.frameSize)
  rw [ByteMemory.length_bytes] at hpacket
  rw [Nat.zero_mul]
  exact ⟨_, ByteMemory.length_bytes, hpacket⟩

/-- A call sends one packet, with the frame that it completes, or none. -/
theorem Transmits.audioInputCallback_sent (h : Transmits t) (ha : Appends t call)
    (hu : Undisturbed t call) :
    ∃ t' sent, t.audioInputCallback call = some (t', sent) ∧ t'.frameSize = t.frameSize ∧
      t'.streamRatio = t.streamRatio ∧ t'.loopback = t.loopback ∧
      (sent = [] ∧ t'.header = t.header ∧ t'.retained = t.retained ++ call.lame ∨
        ∃ frame, sent = List.replicate t.streamRatio (t.header.packet frame) ∧
          frame.length = t.frameSize ∧ 12 + frame.length ≤ 1500 ∧ t'.header = t.header.increment ∧
          t.retained ++ call.lame = frame ++ t'.retained) := by
  rcases Nat.lt_or_ge (t.lameOffset + call.lame.length) t.frameSize with hnone | hle
  · obtain ⟨t', hencode, hheader, hsize, hratio, hloop, hretained⟩ :=
      encodeLayer3Frame_none ha hnone
    have hidle := Int.not_lt.2 (hu.outlen hnone)
    rw [hu.buf] at hretained
    refine ⟨t', [], ?_, hsize, hratio, hloop, .inl ⟨rfl, hheader, hretained⟩⟩
    simp only [audioInputCallback, ha.input, h.live, and_self, if_true, hencode,
      Option.bind_eq_bind, Option.bind_some, gt_iff_lt, hidle, if_false, Option.pure_def]
  · have hfits := hu.fits hle
    obtain ⟨t', outbuf, hencode, hheader, hsize, hratio, hloop, -, -, hcut⟩ :=
      encodeLayer3Frame_one h ha hle hu.single hfits
    obtain ⟨frame, hlength, hpacket⟩ := bytes_encodeLayer3Frame h ha hle hu.single hfits hencode
    rw [hpacket, RTPHeader.payload_packet, hu.buf] at hcut
    have hpos : ((12 + t.frameSize : Nat) : Int) > 0 := by omega
    refine ⟨t', List.replicate t.streamRatio (t.header.packet frame), ?_, hsize, hratio, hloop,
      .inr ⟨frame, rfl, hlength, by rwa [hlength], hheader, hcut⟩⟩
    simp only [audioInputCallback, ha.input, h.live, and_self, if_true, hencode,
      Option.bind_eq_bind, Option.bind_some, hpos, Option.pure_def, hratio, Int.toNat_natCast,
      hpacket]

end AudioInput

namespace Sender

variable {t t' : Sender} {e : Event} {es es' : List Event} {call : SenderCall}
  {tr out : List (List (List (BitVec 8)))} {sent : List (List (BitVec 8))}

/-- What the encoder writes in a step: it is not called without input, nor in the loopback. -/
def encodes (t : Sender) : Event → List (BitVec 8)
  | .audioInputCallback call =>
      if call.hasInput ∧ t.loopback = false then
        match t.format with
        | .layer3 => call.lame
        | .speex _ => call.speex
      else []
  | .rtcpTransmitData _ _ => []
  | .setLoopback _ => []

/-- What it writes in a run. -/
def encoded (t : Sender) : List Event → List (BitVec 8)
  | [] => []
  | e :: es => t.encodes e ++ match step t e with
      | some (t', _) => t'.encoded es
      | none => []

/-- What it has written, but is not in a packet yet. -/
def rest (t : Sender) : List (BitVec 8) :=
  match t.format with
  | .layer3 => t.retained
  | .speex _ => []

/-- Where the encoder is called, it does not disturb the packetiser: Layer 3 completes at most one
frame from what the array has kept, and a frame of Speex is not empty and fits its packet. -/
def Orderly (t : Sender) : Event → Prop
  | .audioInputCallback call => call.hasInput = true → t.loopback = false →
      match t.format with
      | .layer3 => AudioInput.Appends t.toAudioInput call.toInputCall ∧
          AudioInput.Undisturbed t.toAudioInput call.toInputCall
      | .speex _ => call.speex ≠ [] ∧ 12 + call.speex.length ≤ 1500
  | .rtcpTransmitData _ _ => True
  | .setLoopback _ => True

/-- The transmitter of a connection: frames have a size, there are no contributing sources, and
every packet is sent at least once. -/
structure Transmitting (t : Sender) : Prop where
  frameSize : 0 < t.frameSize
  csrcs : t.header.csrcs = []
  ratio : 1 ≤ t.streamRatio

/-- What does not change during a call. -/
structure SameCall (t t' : Sender) : Prop where
  format : t'.format = t.format
  frameSize : t'.frameSize = t.frameSize
  ratio : t'.streamRatio = t.streamRatio
  ssrc : t'.header.ssrc = t.header.ssrc
  csrcs : t'.header.csrcs = t.header.csrcs

/-- The same call is still transmitting. -/
theorem SameCall.transmitting (h : SameCall t t') (ht : Transmitting t) : Transmitting t' :=
  ⟨by rw [h.frameSize]; exact ht.frameSize, h.csrcs.trans ht.csrcs, by rw [h.ratio]; exact ht.ratio⟩

/-- A step sends nothing and keeps everything, or sends one packet and keeps the rest. -/
inductive Cuts (t : Sender) (e : Event) (t' : Sender) (out : List (List (List (BitVec 8)))) : Prop
  | keeps : packets out = [] → t'.header = t.header → t'.rest = t.rest ++ t.encodes e →
      Cuts t e t' out
  | cuts (frame : List (BitVec 8)) : packets out = [t.header.packet frame] → frame ≠ [] →
      12 + frame.length ≤ 1500 → t'.header = t.header.increment →
      t.rest ++ t.encodes e = frame ++ t'.rest → Cuts t e t' out

/-- A packet that is sent several times is one packet. -/
theorem packets_copies {packet : List (BitVec 8)} (h : 1 ≤ t.streamRatio) :
    packets [List.replicate t.streamRatio packet] = [packet] := by
  obtain ⟨n, hn⟩ := Nat.exists_eq_add_of_le' h
  rw [packets, List.flatMap_singleton, hn, List.replicate_succ, List.take_succ_cons, List.take_zero]

/-- With Layer 3 the callback is that of the packetiser. -/
theorem audioInputCallback_layer3 (h : Transmitting t) (hlayer3 : t.format = .layer3)
    (hroom : t.lameOffset + call.lame.length ≤ 1500) : t.audioInputCallback call =
      (t.toAudioInput.audioInputCallback call.toInputCall).map fun (t', sent) =>
        ({ t with toAudioInput := t' }, sent) := by
  have hguard : t.lameOffset + call.lame.length ≤ 1500 ∧
      (0 ≤ t.layer3Bytes call → 0 < t.frameSize) :=
    ⟨hroom, fun _ => h.frameSize⟩
  simp only [audioInputCallback, encodeFrame, hlayer3, AudioInput.audioInputCallback, if_pos hguard]
  split
  · cases t.encodeLayer3Frame call.toInputCall with
    | none => rfl
    | some r =>
        obtain ⟨t', outbuf, n⟩ := r
        simp only [Option.map_some, Option.bind_eq_bind, Option.bind_some, Option.pure_def]
        split <;> rw [← hlayer3] <;> rfl
  · simp only [Option.map_some, ← hlayer3]

/-- A call of the input callback cuts the next frames of the MPEG stream. -/
theorem cuts_layer3 (h : Transmitting t) (hlayer3 : t.format = .layer3) (hlive : t.loopback = false)
    (ha : AudioInput.Appends t.toAudioInput call.toInputCall)
    (hu : AudioInput.Undisturbed t.toAudioInput call.toInputCall)
    (hcall : t.audioInputCallback call = some (t', sent)) :
    SameCall t t' ∧ Cuts t (.audioInputCallback call) t' [sent] := by
  have htransmits : AudioInput.Transmits t.toAudioInput := ⟨h.frameSize, h.csrcs, hlive, h.ratio⟩
  have hencodes : t.encodes (.audioInputCallback call) = call.lame := by
    rw [encodes, if_pos ⟨ha.input, hlive⟩, hlayer3]
  obtain ⟨t₁, sent₁, hone, hsize, hratio, -, hsent⟩ := htransmits.audioInputCallback_sent ha hu
  rw [audioInputCallback_layer3 h hlayer3 ha.room, hone] at hcall
  obtain ⟨rfl, rfl⟩ := Prod.mk.inj (Option.some.inj hcall)
  have hrest : rest { t with toAudioInput := t₁ } = t₁.retained := by rw [rest, hlayer3]
  rcases hsent with ⟨rfl, hheader, hkeep⟩ | ⟨frame, rfl, hlength, hfits, hheader, hcut⟩
  · refine ⟨⟨rfl, hsize, hratio, congrArg _ hheader, congrArg _ hheader⟩, .keeps rfl hheader ?_⟩
    rw [hrest, hencodes, hkeep, rest, hlayer3]
  · have hsame : t₁.header.ssrc = t.header.ssrc ∧ t₁.header.csrcs = t.header.csrcs := by
      rw [hheader]
      exact ⟨rfl, rfl⟩
    refine ⟨⟨rfl, hsize, hratio, hsame.1, hsame.2⟩,
      .cuts frame (packets_copies h.ratio) ?_ hfits hheader ?_⟩
    · rw [← List.length_pos_iff, hlength]
      exact h.frameSize
    · rw [hrest, hencodes, rest, hlayer3]
      exact hcut

/-- A call of the input callback cuts the next Speex frame. -/
theorem cuts_speex {mode : SpeexMode} (h : Transmitting t) (hspeex : t.format = .speex mode)
    (hinput : call.hasInput = true) (hlive : t.loopback = false) (hne : call.speex ≠ [])
    (hfits : 12 + call.speex.length ≤ 1500) (hcall : t.audioInputCallback call = some (t', sent)) :
    SameCall t t' ∧ Cuts t (.audioInputCallback call) t' [sent] := by
  have hencodes : t.encodes (.audioInputCallback call) = call.speex := by
    rw [encodes, if_pos ⟨hinput, hlive⟩, hspeex]
  have hrest : t.rest = [] := by rw [rest, hspeex]
  have hcount : t.header.csrcCount = 0 := by rw [RTPHeader.csrcCount, h.csrcs, List.length_nil]
  have hwrite : t.header.writeBlock call.outbuf 0 375 =
      (call.outbuf.setWords 0 [t.header.firstWord, t.header.timestamp, t.header.ssrc], 3) := by
    rw [RTPHeader.writeBlock_eq (by rw [hcount]; decide), hcount, h.csrcs, List.append_nil]
  have hpos : ((12 + call.speex.length : Nat) : Int) > 0 := by omega
  have hlen : call.speex.length + 4 * 3 = 12 + call.speex.length := Nat.add_comm _ _
  simp only [audioInputCallback, hinput, hlive, and_self, if_true, encodeFrame, hspeex,
    encodeSpeexFrame, hwrite, if_pos (show 4 * 3 + call.speex.length ≤ 1500 from hfits),
    Option.bind_eq_bind, Option.bind_some, hpos, Int.toNat_natCast, hlen, Option.pure_def,
      Option.some.injEq, Prod.mk.injEq] at hcall
  obtain ⟨rfl, rfl⟩ := hcall
  have hpackets := @packets_copies t (t.header.packet call.speex) h.ratio
  rw [← RTPHeader.bytes_packet call.outbuf] at hpackets
  refine ⟨⟨hspeex.symm, rfl, rfl, rfl, rfl⟩, .cuts call.speex ?_ hne hfits rfl ?_⟩
  · rw [← RTPHeader.bytes_packet call.outbuf]
    exact hpackets
  rw [hencodes, hrest]
  exact (List.append_nil _).symm

/-- What an orderly step does with the frames. -/
theorem step_cuts (h : Transmitting t) (horderly : Orderly t e)
    (hstep : step t e = some (t', out)) :
    SameCall t t' ∧ Cuts t e t' out := by
  cases e with
  | audioInputCallback call =>
      obtain ⟨⟨t₁, sent⟩, hcall, heq⟩ := Option.map_eq_some_iff.1 hstep
      obtain ⟨rfl, rfl⟩ := Prod.mk.inj heq
      by_cases hcalled : call.hasInput = true ∧ t.loopback = false
      · have hwhole := horderly hcalled.1 hcalled.2
        cases hformat : t.format with
        | layer3 =>
            rw [hformat] at hwhole
            exact cuts_layer3 h hformat hcalled.2 hwhole.1 hwhole.2 hcall
        | speex mode =>
            rw [hformat] at hwhole
            exact cuts_speex h hformat hcalled.1 hcalled.2 hwhole.1 hwhole.2 hcall
      · rw [audioInputCallback, if_neg hcalled] at hcall
        obtain ⟨rfl, rfl⟩ := Prod.mk.inj (Option.some.inj hcall)
        refine ⟨⟨rfl, rfl, rfl, rfl, rfl⟩, .keeps rfl rfl ?_⟩
        rw [encodes, if_neg hcalled, List.append_nil]
  | rtcpTransmitData ntp packet =>
      obtain ⟨rfl, rfl⟩ := Prod.mk.inj (Option.some.inj hstep)
      exact ⟨⟨rfl, rfl, rfl, rfl, rfl⟩, .keeps rfl rfl (List.append_nil _).symm⟩
  | setLoopback state =>
      obtain ⟨rfl, rfl⟩ := Prod.mk.inj (Option.some.inj hstep)
      exact ⟨⟨rfl, rfl, rfl, rfl, rfl⟩, .keeps rfl rfl (List.append_nil _).symm⟩

/-! ## Runs -/

/-- A run that goes on writes on. -/
theorem encoded_append {P : Sender → Event → Prop} (h : Runs step P t es t' tr) :
    t.encoded (es ++ es') = t.encoded es ++ t'.encoded es' := by
  induction es generalizing t tr with
  | nil =>
      obtain ⟨rfl, -⟩ := h.det (.nil : Runs step P t [] t [])
      rfl
  | cons e es ih =>
      obtain ⟨t₁, out, tr₁, -, hstep, hrest, -⟩ := h.uncons
      rw [List.cons_append, encoded, encoded, hstep, List.append_assoc]
      exact congrArg _ (ih hrest)

/-- The packets of a run: they carry the frames that the encoder has written, one number after the
other. -/
structure Streams (t : Sender) (es : List Event) (t' : Sender)
    (tr : List (List (List (BitVec 8)))) : Prop where
  same : SameCall t t'
  number : t'.header.sequenceNumber = t.header.sequenceNumber + BitVec.ofNat 16 (packets tr).length
  carries : ∀ k packet, (packets tr)[k]? = some packet →
    Carries t.header.ssrc (t.header.sequenceNumber.toNat + k) packet
  content : ((packets tr).map AudioInput.payload).flatten ++ t'.rest = t.rest ++ t.encoded es

/-- A call is the same as itself. -/
theorem SameCall.refl (t : Sender) : SameCall t t := ⟨rfl, rfl, rfl, rfl, rfl⟩

/-- The same call over two steps. -/
theorem SameCall.trans {t₁ : Sender} (h : SameCall t t₁) (h' : SameCall t₁ t') : SameCall t t' :=
  ⟨h'.format.trans h.format, h'.frameSize.trans h.frameSize, h'.ratio.trans h.ratio,
    h'.ssrc.trans h.ssrc, h'.csrcs.trans h.csrcs⟩

/-- The packets of two traces, one behind the other. -/
theorem packets_append : packets (tr ++ out) = packets tr ++ packets out := List.flatMap_append

/-- One more orderly event keeps the stream. -/
theorem Streams.step {t₁ : Sender} (h : Streams t es t₁ tr) (hr : Runs step Orderly t es t₁ tr)
    (ht : Transmitting t) (horderly : Orderly t₁ e) (hstep : Sender.step t₁ e = some (t', out)) :
    Streams t (es ++ [e]) t' (tr ++ out) := by
  have htransmits := h.same.transmitting ht
  obtain ⟨hsame, hcuts⟩ := step_cuts htransmits horderly hstep
  have hencoded : t.encoded (es ++ [e]) = t.encoded es ++ t₁.encodes e := by
    rw [encoded_append hr, encoded, hstep]
    exact congrArg _ (List.append_nil _)
  cases hcuts with
  | keeps hnone hheader hrest =>
      refine ⟨h.same.trans hsame, ?_, ?_, ?_⟩
      · rw [hheader, packets_append, hnone, List.append_nil]
        exact h.number
      · rw [packets_append, hnone, List.append_nil]
        exact h.carries
      · rw [packets_append, hnone, List.append_nil, hrest, hencoded, ← List.append_assoc, h.content,
          List.append_assoc]
  | cuts frame hone hne hfits hheader hcut =>
      refine ⟨h.same.trans hsame, ?_, ?_, ?_⟩
      · rw [hheader, packets_append, hone, List.length_append, List.length_singleton,
          BitVec.ofNat_add, ← BitVec.add_assoc, ← h.number]
        rfl
      · intro k packet hk
        rw [packets_append, hone] at hk
        rcases Nat.lt_trichotomy k (packets tr).length with hlt | rfl | hgt
        · rw [List.getElem?_append_left hlt] at hk
          exact h.carries k packet hk
        · rw [List.getElem?_concat_length] at hk
          obtain rfl := Option.some.inj hk
          rw [← h.same.ssrc]
          refine RTPHeader.carries_packet htransmits.csrcs ?_ hne hfits
          rw [h.number, Reception.seq16, BitVec.ofNat_add, BitVec.ofNat_toNat, BitVec.setWidth_eq]
        · rw [List.getElem?_eq_none (by simp; omega)] at hk
          cases hk
      · rw [packets_append, hone, List.map_append, List.flatten_append, List.map_singleton,
          RTPHeader.payload_packet, List.flatten_singleton, List.append_assoc, ← hcut,
          ← List.append_assoc, h.content, hencoded, List.append_assoc]

/-- An orderly run streams. -/
theorem streams_of_runs (ht : Transmitting t) (hr : Runs step Orderly t es t' tr) :
    Streams t es t' tr := by
  refine hr.invariant_history (I := fun es t' tr => Streams t es t' tr) ?_ ?_
  · refine ⟨.refl t, (BitVec.add_zero _).symm, fun k packet hk => by simp [packets] at hk, ?_⟩
    exact (List.append_nil _).symm
  · intro es t₁ tr e t₂ out hr h horderly hstep
    exact h.step hr ht horderly hstep

/-! ## What arrives -/

open AudioOutput AudioEvent
open Reception (Follows Arriving)

/-- The frame of packet `k` of a run. -/
def frame (tr : List (List (List (BitVec 8)))) (k : Nat) : List (BitVec 8) :=
  AudioInput.payload ((packets tr).getD k [])

/-- A run of the output callback far away, which follows another source so far or has just been
initialised, in which the datagrams that arrive are the packets `js` of the run. -/
structure Delivers (t : Sender) (tr : List (List (List (BitVec 8)))) (js : List Nat)
    (out : List AudioEvent) : Prop where
  sent : ∀ j ∈ js, j < (packets tr).length
  received : ∃ a cbs a', Awaits t.header.ssrc a ∧ Runs audioOutputCallback HasOutput a cbs a' out ∧
    (arrivalsOf cbs).map (·.datagram) = js.map fun j => (packets tr).getD j []

variable {js : List Nat} {heardOut : List AudioEvent}

/-- The decoder is handed the frames of the packets that are passed on. -/
theorem Streams.heard (h : Streams t es t' tr) (hd : Delivers t tr js heardOut) :
    ∃ r₀, Begins t.header.ssrc r₀ ∧ heard heardOut = (Reception.passedOn js (Reception.receiveAll r₀
      (js.map fun j => Reception.seq16 (t.header.sequenceNumber.toNat + j))).2).map (frame tr) := by
  obtain ⟨a, cbs, a', hawaits, hr, harr⟩ := hd.received
  refine ⟨_, begins_reception hawaits.source,
    heard_of_runs hawaits.live hawaits.socket hr (fun j hj => h.carries j _ ?_) harr⟩
  rw [List.getD_eq_getElem?_getD, List.getElem?_eq_getElem (hd.sent j hj), Option.getD_some]

/-- The frames, one after the other. -/
theorem map_frame_range : (List.range (packets tr).length).map (frame tr) =
    (packets tr).map AudioInput.payload := by
  refine List.ext_getElem (by simp) fun k hk hk' => ?_
  have hlt : k < (packets tr).length := by simpa using hk
  simp [frame, hlt]

/-- Whatever packets of a run arrive, a receiver takes them. -/
theorem exists_delivers (t : Sender) (js : List Nat) (hsent : ∀ j ∈ js, j < (packets tr).length) :
    ∃ out, Delivers t tr js out := by
  obtain ⟨a, hring, hloop, hsocket, hcodec⟩ := exists_receiver { recvSsrc := t.header.ssrc + 1 }
  obtain ⟨a', out, hr⟩ := exists_run hring hloop (js.map fun j => ⟨(packets tr).getD j [], []⟩)
  refine ⟨out, hsent, a, _, a', ⟨.inl ?_, hloop, hsocket⟩, hr, by simp [arrivalsOf]⟩
  intro hsame
  rw [hcodec] at hsame
  have hne := congrArg BitVec.toNat hsame
  rw [BitVec.toNat_add, show (1 : BitVec 32).toNat = 1 from rfl] at hne
  omega

/-- The transmitter that `connectToHost` leaves. -/
theorem transmitting_connectToHost (t : Sender) (format : SenderFormat) (rand : BitVec 16)
    (ssrc : BitVec 32) {frameSize streamRatio : Nat} (hsize : 0 < frameSize)
    (hratio : 1 ≤ streamRatio) :
    Transmitting (t.connectToHost format rand ssrc frameSize streamRatio) := ⟨hsize, rfl, hratio⟩

/-- **Whatever the network does with the packets, the decoder is handed frames of the encoder in
their order, and none twice**, as long as no late packet looks to the receiver as if it were ahead;
and the frames are what the encoder has written, cut up. -/
theorem heard_sublist (ht : Transmitting t) (hr : Runs step Orderly t es t' tr)
    (hd : Delivers t tr js heardOut)
    (hsteps : EachAfter (fun pre p => Codec.InStep (Codec.positionAfter none pre) p.index)
      (js.map (AudioPacket.nth t.header.sequenceNumber.toNat (frame tr)))) :
    (heard heardOut).Sublist ((packets tr).map AudioInput.payload) ∧
      ((packets tr).map AudioInput.payload).flatten ++ t'.rest = t.rest ++ t.encoded es := by
  have h := streams_of_runs ht hr
  refine ⟨?_, h.content⟩
  have hne : ∀ j ∈ js, frame tr j ≠ [] := by
    intro j hj
    have hcarries := h.carries j ((packets tr).getD j []) (by
      rw [List.getD_eq_getElem?_getD, List.getElem?_eq_getElem (hd.sent j hj), Option.getD_some])
    exact hcarries.frame_ne
  obtain ⟨r₀, hbegins, hheard⟩ := h.heard hd
  rw [hheard, ← map_frame_range]
  refine List.Sublist.map (frame tr)
    (sublist_range (hbegins.pairwise hne hsteps) fun j hj => hd.sent j ?_)
  exact mem_of_passedOn hj

/-- A call in which Speex writes `frame`. -/
def speaks (frame : List (BitVec 8)) : Event := .audioInputCallback
  { lame := [], ret := 0, buf := fun _ => 0, outbuf := fun _ => 0, outlen := 0, speex := frame }

/-- A call with Speex in which each packet is sent twice. -/
def doubled : Sender := idle.connectToHost (.speex .narrow) 65533 7 160 2

/-- Two frames of it. -/
theorem runs_doubled : ∃ t' tr, Runs step Orderly doubled [speaks [1, 2], speaks [3]] t' tr ∧
    (packets tr).length = 2 ∧ t'.rest = [] ∧
    doubled.encoded [speaks [1, 2], speaks [3]] = [1, 2, 3] := by
  have horderly (t : Sender) (ht : t.format = .speex .narrow) (frame : List (BitVec 8))
      (hne : frame ≠ []) (hle : 12 + frame.length ≤ 1500) : Orderly t (speaks frame) := by
    intro _ _
    rw [ht]
    exact ⟨hne, hle⟩
  exact ⟨_, _, (Runs.single (horderly _ rfl [1, 2] (by simp) (by simp)) rfl).snoc
    (horderly _ rfl [3] (by simp) (by simp)) rfl, rfl, rfl, rfl⟩

/-- The second packet overtakes the first one, which is then too late. -/
theorem heard_sublist_demo : ∃ t' tr out,
    Runs step Orderly doubled [speaks [1, 2], speaks [3]] t' tr ∧
    Delivers doubled tr [1, 0, 0] out ∧
      (heard out).Sublist ((packets tr).map AudioInput.payload) := by
  obtain ⟨t', tr, hr, hlen, -⟩ := runs_doubled
  obtain ⟨out, hd⟩ : ∃ out, Delivers doubled tr [1, 0, 0] out :=
    exists_delivers doubled [1, 0, 0] (by simp [hlen])
  refine ⟨t', tr, out, hr, hd, (heard_sublist (transmitting_connectToHost _ _ _ _ (by decide)
    (by decide)) hr hd ?_).1⟩
  rw [show [1, 0, 0] = ([] ++ [1] ++ [0]) ++ [0] from rfl, List.map_append, List.map_append,
    List.map_append, List.map_singleton, List.map_singleton, eachAfter_concat, eachAfter_concat,
    eachAfter_concat]
  have hlate : Codec.InStep (some 65534) 65533 := by decide
  exact ⟨⟨⟨eachAfter_nil, (by decide : Codec.InStep none 65534)⟩, hlate⟩, hlate⟩

/-- **A network that keeps the order** makes the decoder miss the first frame behind each gap, and
the one whose packet is numbered 0; of source 0 the first packet to arrive has to be number 1. If it
brings each packet at least once and the numbers do not run out, the decoder is handed what the
encoder has written, but for what is not in a packet yet. -/
theorem heard_of_arriving {n i : Nat} (ht : Transmitting t) (hr : Runs step Orderly t es t' tr)
    (hd : Delivers t tr js heardOut) (harr : Arriving n js i)
    (hzero : t.header.ssrc = 0 → (t.header.sequenceNumber.toNat + n) % 2 ^ 16 = 1)
    (hgaps : js.IsChain fun j k => j = k ∨
      Follows (t.header.sequenceNumber.toNat + j) (t.header.sequenceNumber.toNat + k)) :
    heard heardOut = ((List.range' n (i + 1 - n)).filter fun j =>
        Awaited t.header.sequenceNumber.toNat n js j).map (frame tr) ∧
      ((∀ j < (packets tr).length, j ∈ js) →
        t.header.sequenceNumber.toNat + (packets tr).length ≤ 2 ^ 16 →
        (heard heardOut).flatten ++ t'.rest = t.rest ++ t.encoded es) := by
  have h := streams_of_runs ht hr
  have hheard : heard heardOut = ((List.range' n (i + 1 - n)).filter fun j =>
      Awaited t.header.sequenceNumber.toNat n js j).map (frame tr) := by
    obtain ⟨r₀, hbegins, hheard⟩ := h.heard hd
    rw [hheard, ← (harr.awaited hgaps).2]
    rcases hbegins with rfl | ⟨hssrc, rfl⟩
    · rfl
    · obtain ⟨rest, rfl⟩ := harr.exists_cons
      have hone : (Reception.seq16 (t.header.sequenceNumber.toNat + n)).toNat = 1 := by
        rw [BitVec.toNat_ofNat]
        exact hzero hssrc
      rw [List.map_cons, Reception.receiveAll_begin hone]
  refine ⟨hheard, fun hall hnumbers => ?_⟩
  obtain ⟨hmem, hbounds⟩ := harr.mem
  have hi := hd.sent i hmem
  have hn : n = 0 := by
    have := (hbounds 0 (hall 0 (by omega))).1
    omega
  have hlast : i + 1 = (packets tr).length := by
    have := (hbounds _ (hall ((packets tr).length - 1) (by omega))).2
    omega
  subst hn
  have hevery : (List.range' 0 (i + 1 - 0)).filter (fun j =>
      Awaited t.header.sequenceNumber.toNat 0 js j) = List.range (packets tr).length := by
    rw [Nat.sub_zero, hlast, ← List.range_eq_range', List.filter_eq_self]
    intro j hj
    have hlt := List.mem_range.1 hj
    rcases Nat.eq_zero_or_pos j with rfl | hpos
    · exact decide_eq_true (.inl rfl)
    · exact decide_eq_true (.inr ⟨hpos, hall j hlt, hall (j - 1) (by omega), by omega⟩)
  rw [hheard, hevery, map_frame_range]
  exact h.content

/-- Each packet arrives at least once, in order. -/
theorem heard_of_arriving_demo : ∃ t' tr out,
    Runs step Orderly doubled [speaks [1, 2], speaks [3]] t' tr ∧
    Delivers doubled tr [0, 0, 1] out ∧
      (heard out).flatten = [1, 2, 3] := by
  obtain ⟨t', tr, hr, hlen, hrest, hencoded⟩ := runs_doubled
  obtain ⟨out, hd⟩ : ∃ out, Delivers doubled tr [0, 0, 1] out :=
    exists_delivers doubled [0, 0, 1] (by simp [hlen])
  have harr₀ : Arriving 0 [0, 0] 0 := Arriving.first.next (Nat.le_refl 0) (by decide)
  have harr : Arriving 0 [0, 0, 1] 1 := harr₀.next (by decide) (by decide)
  have hall : (heard out).flatten ++ t'.rest =
      doubled.rest ++ doubled.encoded [speaks [1, 2], speaks [3]] :=
    (heard_of_arriving (transmitting_connectToHost _ _ _ _ (by decide) (by decide)) hr hd harr
      (fun hzero => absurd hzero (by decide)) (by decide)).2 (by rw [hlen]; decide)
        (by rw [hlen]; decide)
  rw [hrest, hencoded, List.append_nil] at hall
  exact ⟨t', tr, out, hr, hd, hall⟩

end Sender

end NetISDN

import NetISDN.Lib.AudioInput
import NetISDN.Lib.DecodeOrder
import NetISDN.Rtp.Payload

/-!
# Frames in packets

A packet of the stream is a header of three words with a frame behind it (`RTPHeader.packet`), and
`Carries` says what a receiver can tell of it: its source, its number and where the frame begins.
What the output callback hands to the decoder of packets like that is decided by their numbers alone
(`heard_of_runs`), so that it can be read off the order in which they arrive: any order, as long as
the receiver is in step (`InStep.pairwise`), or that of a network that only loses and repeats
(`Arriving.passedOn`).
-/

namespace NetISDN

open TransitionSystem
open Reception (seq16 Follows Arriving receive receiveAll passedOn)

/-! ## Packets -/

/-- A header without contributing sources, and a frame behind it. -/
def RTPHeader.packet (h : RTPHeader) (frame : List (BitVec 8)) : List (BitVec 8) :=
  ByteMemory.wordBytes h.firstWord ++ ByteMemory.wordBytes h.timestamp ++
    ByteMemory.wordBytes h.ssrc ++ frame

/-- The datagram is packet `i` of the source `ssrc`, as every reader finds it: it has a header of
three words and a frame that is not empty. -/
structure Carries (ssrc : BitVec 32) (i : Nat) (datagram : List (BitVec 8)) : Prop where
  length_le : datagram.length ≤ 1500
  frame_ne : AudioInput.payload datagram ≠ []
  source : ∀ m : ByteMemory, (m.setBytes 0 datagram).word 8 = ssrc
  number : ∀ m : ByteMemory,
    (0xffff#32 &&& (m.setBytes 0 datagram).word 0).setWidth 16 = seq16 i
  count : ∀ m : ByteMemory, RTPHeader.countField ((m.setBytes 0 datagram).word 0) = 0

variable {ssrc : BitVec 32} {i : Nat} {datagram frame : List (BitVec 8)} {h : RTPHeader}

/-- A packet is written word by word. -/
theorem RTPHeader.setBytes_packet (m : ByteMemory) (h : RTPHeader) (frame : List (BitVec 8)) :
    (m.setWords 0 [h.firstWord, h.timestamp, h.ssrc]).setBytes 12 frame =
      m.setBytes 0 (h.packet frame) := by
  rw [RTPHeader.packet, ← ByteMemory.setBytes_append, ← ByteMemory.setBytes_append,
    ← ByteMemory.setBytes_append]
  rfl

@[simp] theorem RTPHeader.length_packet : (h.packet frame).length = 12 + frame.length :=
  List.length_append

@[simp] theorem RTPHeader.payload_packet : AudioInput.payload (h.packet frame) = frame := rfl

/-- What is written is the packet. -/
theorem RTPHeader.bytes_packet (m : ByteMemory) (h : RTPHeader) (frame : List (BitVec 8)) :
    ((m.setWords 0 [h.firstWord, h.timestamp, h.ssrc]).setBytes 12 frame).bytes 0
      (12 + frame.length) = h.packet frame := by
  rw [RTPHeader.setBytes_packet, ← RTPHeader.length_packet]
  exact ByteMemory.bytes_setBytes

/-- The words of the header are found wherever the packet is read to. -/
theorem RTPHeader.word_packet (m : ByteMemory) (h : RTPHeader) (frame : List (BitVec 8)) :
    (m.setBytes 0 (h.packet frame)).word 0 = h.firstWord ∧
      (m.setBytes 0 (h.packet frame)).word 8 = h.ssrc := by
  have hwords : (m.setWords 0 [h.firstWord, h.timestamp, h.ssrc]).words 0 3 =
      [h.firstWord, h.timestamp, h.ssrc] := ByteMemory.words_setWords
  simp only [ByteMemory.words, List.cons.injEq] at hwords
  have hframe : ByteMemory.Frame 12 frame.length (m.setWords 0 [h.firstWord, h.timestamp, h.ssrc])
      (m.setBytes 0 (h.packet frame)) := by
    rw [← RTPHeader.setBytes_packet]
    exact ByteMemory.frame_setBytes
  rw [hframe.word (.inl (by decide)), hframe.word (.inl (by decide))]
  exact ⟨hwords.1, hwords.2.2.1⟩

/-- A frame that fits in a datagram is carried by its packet. -/
theorem RTPHeader.carries_packet (hcsrcs : h.csrcs = []) (hnumber : h.sequenceNumber = seq16 i)
    (hne : frame ≠ []) (hle : 12 + frame.length ≤ 1500) : Carries h.ssrc i (h.packet frame) := by
  refine ⟨RTPHeader.length_packet.trans_le hle, by rwa [RTPHeader.payload_packet],
    fun m => (RTPHeader.word_packet m h frame).2, fun m => ?_, fun m => ?_⟩
  · rw [(RTPHeader.word_packet m h frame).1, RTPHeader.number_firstWord, hnumber]
  · have hcount : h.csrcCount = 0 := by rw [RTPHeader.csrcCount, hcsrcs, List.length_nil]
    rw [(RTPHeader.word_packet m h frame).1, RTPHeader.countField, RTPHeader.count_firstWord,
      hcount]

/-! ## What the decoder is handed -/

/-- The frames that are passed to `DecodeFrame`. -/
def AudioEvent.heard (out : List AudioEvent) : List (List (BitVec 8)) :=
  out.filterMap fun event => match event with
    | .received _ frame => if 0 < frame.length then some frame else none
    | _ => none

/-- Of what is passed on, the decoder does not hear what is empty. -/
theorem AudioEvent.heard_eq (out : List AudioEvent) :
    heard out = (passedFrames out).filter fun frame => 0 < frame.length := by
  rw [heard, passedFrames, List.filter_filterMap]
  congr 1
  funext event
  cases event with
  | received datagram frame => by_cases hpos : 0 < frame.length <;> simp [hpos, Option.filter]
  | _ => rfl

/-- The rest of a datagram, as it is found in memory. -/
theorem bytes_payload (m : ByteMemory) (hlen : 12 ≤ datagram.length) :
    (m.setBytes 0 datagram).bytes 12 (datagram.length - 12) = AudioInput.payload datagram := by
  have hall : (m.setBytes 0 datagram).bytes 0 (12 + (datagram.length - 12)) = datagram := by
    rw [Nat.add_sub_cancel' hlen]
    exact ByteMemory.bytes_setBytes
  have hdrop := congrArg (List.drop 12) hall
  rwa [ByteMemory.bytes_add, List.drop_left' ByteMemory.length_bytes, Nat.zero_add] at hdrop

/-- A packet that carries a frame is longer than the header. -/
theorem Carries.length_gt (h : Carries ssrc i datagram) : 12 < datagram.length := by
  have hpos := List.length_pos_iff.2 h.frame_ne
  rw [AudioInput.payload, List.length_drop] at hpos
  omega

/-- The frame begins behind three words. -/
theorem Carries.readBlock_snd (h : Carries ssrc i datagram) (hdr : RTPHeader) (rand : BitVec 16)
    (m : ByteMemory) :
    (hdr.readBlock rand (m.setBytes 0 datagram) 0
      (BitVec.ofNat 32 (datagram.length / 4))).2 = 3 := by
  have hle := h.length_le
  have hgt := h.length_gt
  have hcount := h.count m
  rw [RTPHeader.readBlock_few (by omega) (by rw [hcount]; decide) (by omega), hcount]

/-- A packet is read from the datagram, and its frame. -/
theorem Carries.reads (h : Carries ssrc i datagram) :
    Reads ssrc i datagram (· = AudioInput.payload datagram) := by
  have hgt := h.length_gt
  refine ⟨h.length_le, by omega, h.source, h.number, fun hdr rand m l hl => ?_⟩
  rw [h.readBlock_snd] at hl
  subst hl
  exact bytes_payload m (by omega)

/-- Which packets are passed on, one after the other. -/
theorem passedOn_cons {j : Nat} {js : List Nat} {b : Bool} {bs : List Bool} :
    passedOn (j :: js) (b :: bs) = (if b then [j] else []) ++ passedOn js bs := by
  cases b <;> rfl

/-- The frames of the packets that are passed on, if none is empty. -/
theorem PassesOn.heard {js : List Nat} {flags : List Bool} {fs : List (List (BitVec 8))}
    {g : Nat → List (BitVec 8)} (h : PassesOn (fun j f => f = g j) js flags fs)
    (hne : ∀ j ∈ js, g j ≠ []) :
    fs.filter (fun f => 0 < f.length) = (passedOn js flags).map g := by
  have hpairs : ∀ x ∈ js.zip flags, g x.1 ≠ [] := fun x hx => hne _ (List.of_mem_zip hx).1
  rw [passedOn]
  unfold PassesOn at h
  generalize js.zip flags = l at h hpairs
  induction h with
  | nil => rfl
  | @cons x f l fs hx _ ih =>
      obtain ⟨hg, hrest⟩ := List.forall_mem_cons.1 hpairs
      replace ih := ih hrest
      split at hx
      · next hflag =>
          have hpos : 0 < f.length := List.length_pos_iff.2 (hx ▸ hg)
          rw [List.filter_cons, if_pos (decide_eq_true hpos), List.filter_cons_of_pos hflag,
            List.map_cons, List.map_cons, ih, hx]
      · next hflag =>
          rw [List.filter_cons, if_neg (by simp [hx]), List.filter_cons_of_neg hflag, ih]

namespace AudioOutput

open AudioEvent

variable {a a' : AudioOutput} {js : List Nat} {first : Nat} {stream : Nat → List (BitVec 8)}

/-- What a run of the callback hands to the decoder of the packets that it receives is decided by
their numbers. -/
theorem heard_of_runs {cbs : List Callback} {tr : List AudioEvent} (hloop : a.loopback = false)
    (hsocket : a.socket = []) (hr : Runs audioOutputCallback HasOutput a cbs a' tr)
    (hstream : ∀ j ∈ js, Carries ssrc (first + j) (stream j))
    (harr : (arrivalsOf cbs).map (·.datagram) = js.map stream) :
    heard tr = (passedOn js
      (receiveAll (a.codec.reception ssrc) (js.map fun j => seq16 (first + j))).2).map
        fun j => AudioInput.payload (stream j) := by
  obtain ⟨-, hpasses⟩ :=
    frames_of_runs hloop hsocket hr (fun j hj => (hstream j hj).reads) harr
  rw [heard_eq]
  exact hpasses.heard fun j hj => (hstream j hj).frame_ne

end AudioOutput

/-! ## The order of the frames -/

section
variable {js : List Nat} {first j n : Nat} {bs : List Bool} {c : Codec}
  {frames : Nat → List (BitVec 8)}

/-- What is passed on has arrived. -/
theorem mem_of_passedOn (h : j ∈ passedOn js bs) : j ∈ js := by
  obtain ⟨⟨k, b⟩, hmem, rfl⟩ := List.mem_map.1 h
  exact (List.of_mem_zip (List.mem_filter.1 hmem).1).1

/-- Packet `j` of a stream that begins with the number `first`, and what it carries. -/
def AudioPacket.nth (first : Nat) (frames : Nat → List (BitVec 8)) (j : Nat) : AudioPacket :=
  ⟨first + j, frames j⟩

/-- The packets that the codec decodes are those that are passed on, if none is empty. -/
theorem Codec.decoded_eq_passedOn (hne : ∀ j ∈ js, frames j ≠ []) :
    c.decoded ssrc (js.map (AudioPacket.nth first frames)) = (passedOn js
      (receiveAll (c.reception ssrc) (js.map fun j => seq16 (first + j))).2).map (first + ·) := by
  induction js generalizing c with
  | nil => rfl
  | cons j js ih =>
      obtain ⟨hframe, hrest⟩ := List.forall_mem_cons.1 hne
      obtain ⟨hknown, hflag⟩ := Reception.trackSequence_spec c ssrc (seq16 (first + j))
      have hdecodes : c.Decodes ssrc (AudioPacket.nth first frames j) ↔
          (receive (c.reception ssrc) (seq16 (first + j))).2 = true := by
        rw [← hflag]
        exact and_iff_left (List.length_pos_iff.2 hframe)
      have ih := ih (c := c.afterPacket ssrc (AudioPacket.nth first frames j)) hrest
      rw [List.map_cons, List.map_cons, Codec.decoded, receiveAll, passedOn_cons,
        List.map_append, ih, Codec.afterPacket]
      congr 1
      · rw [apply_ite (List.map (first + ·))]
        exact if_congr hdecodes rfl rfl
      · rw [AudioPacket.nth, hknown]

/-- What becomes of the next packets depends on the last number alone. -/
theorem Reception.receiveAll_congr {r r' : Reception} {seqs : List (BitVec 16)}
    (hlo : r.lo = r'.lo) :
    (receiveAll (some r) seqs).2 = (receiveAll (some r') seqs).2 := by
  induction seqs generalizing r r' with
  | nil => rfl
  | cons seq seqs ih =>
      have hreceive : (receive (some r) seq).2 = (receive (some r') seq).2 ∧
          (receive (some r) seq).1.lo = (receive (some r') seq).1.lo := by
        rw [receive.eq_def, receive.eq_def]
        simp only [hlo]
        split_ifs <;> exact ⟨rfl, by first | rfl | exact hlo⟩
      rw [receiveAll, receiveAll]
      dsimp only
      rw [hreceive.1, ih hreceive.2]

/-- A receiver that has begun with number 0 goes on from the first packet, whatever number it has.
-/
theorem Reception.lo_receive_begin {seq : BitVec 16} : (receive (some ⟨0, 0⟩) seq).1.lo = seq := by
  rw [receive.eq_def]
  dsimp only
  split_ifs with hnext hsame hgt
  · rfl
  · exact hsame.symm
  · rfl
  · exact absurd (.inl ((BitVec.pos_iff_ne_zero seq).2 hsame)) hgt

/-- Of a source that is awaited, the packets are passed on as of one of which nothing is known, but
for the first one perhaps. -/
theorem AudioOutput.Begins.sublist {r₀ : Option Reception} {number : Nat → BitVec 16}
    (h : AudioOutput.Begins ssrc r₀) : (passedOn js (receiveAll r₀ (js.map number)).2).Sublist
      (passedOn js (receiveAll none (js.map number)).2) := by
  rcases h with rfl | ⟨-, rfl⟩
  · exact .refl _
  cases js with
  | nil => exact .refl _
  | cons j js =>
      have hrest : (receiveAll (receive (some ⟨0, 0⟩) (number j)).1 (js.map number)).2 =
          (receiveAll (some ⟨number j, 0⟩) (js.map number)).2 :=
        Reception.receiveAll_congr Reception.lo_receive_begin
      rw [List.map_cons, receiveAll, receiveAll]
      dsimp only
      rw [passedOn_cons, passedOn_cons, hrest]
      refine List.Sublist.append_right ?_ _
      split
      · exact .refl _
      · exact List.nil_sublist _

/-- A receiver that is in step is handed frames in their order, and none of them twice. -/
theorem AudioOutput.Begins.pairwise {r₀ : Option Reception} (h : AudioOutput.Begins ssrc r₀)
    (hne : ∀ j ∈ js, frames j ≠ [])
    (hsteps : EachAfter (fun pre p => Codec.InStep (Codec.positionAfter none pre) p.index)
      (js.map (AudioPacket.nth first frames))) :
    (passedOn js (receiveAll r₀ (js.map fun j => seq16 (first + j))).2).Pairwise (· < ·) := by
  obtain ⟨c, -, hnone⟩ : ∃ c : Codec, (c.recvSsrc ≠ ssrc ∨ c = c.initReceiver) ∧
      c.reception ssrc = none := AudioOutput.exists_reception (.inl rfl)
  have hknown : c.KnownAt ssrc none := by
    intro hssrc
    rw [Codec.reception, if_pos hssrc.symm] at hnone
    cases hnone
  have horder := (hknown.decoded hsteps).1
  rw [Codec.decoded_eq_passedOn hne, List.pairwise_map, hnone] at horder
  exact (horder.imp fun hlt => Nat.lt_of_add_lt_add_left hlt).sublist h.sublist

/-- Indices in order are some of all of them. -/
theorem sublist_range (h : js.Pairwise (· < ·)) (hlt : ∀ j ∈ js, j < n) :
    js.Sublist (List.range n) := by
  refine List.sublist_of_subperm_of_pairwise (r := (· ≤ ·)) ?_ (h.imp Nat.le_of_lt)
    List.pairwise_le_range
  exact List.subperm_of_subset (h.imp Nat.ne_of_lt) fun j hj => List.mem_range.2 (hlt j hj)

/-! ## Packets in order -/

/-- The packets that a receiver hands to the decoder when packets arrive in order, beginning with
packet `n`: that one, and each whose predecessor has arrived too, but not the one numbered 0. -/
def Awaited (first n : Nat) (js : List Nat) (j : Nat) : Prop :=
  j = n ∨ n < j ∧ j ∈ js ∧ j - 1 ∈ js ∧ (first + j) % 2 ^ 16 ≠ 0

instance (first n : Nat) (js : List Nat) (j : Nat) : Decidable (Awaited first n js j) := by
  unfold Awaited
  infer_instance

/-- The packets between the last one and the next are not awaited, nor is that one, unless it is the
one after. -/
theorem Reception.Arriving.filter_awaited {i : Nat} (h : Arriving n js i) (hlt : i < j) :
    (List.range' (i + 1) (j - i)).filter (fun k => Awaited first n (js ++ [j]) k) =
      if j = i + 1 ∧ (first + j) % 2 ^ 16 ≠ 0 then [j] else [] := by
  obtain ⟨hmem, hbounds⟩ := h.mem
  have hn := (hbounds i hmem).1
  split
  · next hnext =>
      obtain ⟨rfl, hnumber⟩ := hnext
      have hawaited : Awaited first n (js ++ [i + 1]) (i + 1) :=
        .inr ⟨by omega, by simp, by simp [hmem], hnumber⟩
      rw [Nat.add_sub_cancel_left]
      simp [hawaited]
  · next hnot =>
      refine List.filter_eq_nil_iff.2 fun k hk hawaited => hnot ?_
      obtain ⟨hik, hkj⟩ := List.mem_range'_1.1 hk
      obtain rfl | ⟨-, hkmem, hprev, hnumber⟩ := of_decide_eq_true hawaited
      · omega
      · have hkj : k = j := by
          rcases List.mem_append.1 hkmem with hmem | hlast
          · have := (hbounds k hmem).2
            omega
          · exact List.mem_singleton.1 hlast
        subst hkj
        rcases List.mem_append.1 hprev with hmem | hlast
        · have := (hbounds _ hmem).2
          exact ⟨by omega, hnumber⟩
        · have := List.mem_singleton.1 hlast
          omega

/-- What has been awaited so far does not change with the next packet. -/
theorem Reception.Arriving.awaited_snoc {i k : Nat} (h : Arriving n js i) (hle : i ≤ j)
    (hk : k ≤ i) :
    Awaited first n (js ++ [j]) k ↔ Awaited first n js k := by
  have hmem {l : Nat} (hl : l ≤ i) : l ∈ js ++ [j] ↔ l ∈ js := by
    rw [List.mem_append, List.mem_singleton]
    refine or_iff_left_of_imp ?_
    rintro rfl
    obtain rfl : l = i := Nat.le_antisymm hl hle
    exact h.mem.1
  rw [Awaited, Awaited, hmem hk, hmem (by omega)]

/-- When packets arrive in order, and no rollover is missed, the receiver has moved on to the last
of them, and has passed on those that were awaited. -/
theorem Reception.Arriving.awaited {i : Nat} (h : Arriving n js i)
    (hgaps : js.IsChain fun j k => j = k ∨ Follows (first + j) (first + k)) :
    (∃ l, (receiveAll none (js.map fun j => seq16 (first + j))).1 = some ⟨seq16 (first + i), l⟩) ∧
      passedOn js (receiveAll none (js.map fun j => seq16 (first + j))).2 =
        (List.range' n (i + 1 - n)).filter fun j => Awaited first n js j := by
  induction h with
  | first =>
      refine ⟨⟨0, rfl⟩, ?_⟩
      rw [Nat.add_sub_cancel_left]
      simp [Awaited, passedOn, receiveAll, receive]
  | @next js i j h hle hgap ih =>
      obtain ⟨hgaps, hij⟩ := h.isChain_snoc.1 hgaps
      obtain ⟨⟨l, hknown⟩, hpassed⟩ := ih hgaps
      have hlen : (receiveAll none (js.map fun j => seq16 (first + j))).2.length = js.length := by
        simp
      have hn := (h.mem.2 i h.mem.1).1
      have hrange : (List.range' n (j + 1 - n)).filter (fun k => Awaited first n (js ++ [j]) k) =
          (List.range' n (i + 1 - n)).filter (fun k => Awaited first n js k) ++
            (List.range' (i + 1) (j - i)).filter (fun k => Awaited first n (js ++ [j]) k) := by
        rw [show j + 1 - n = (i + 1 - n) + (j - i) by omega, ← List.range'_append_1,
          List.filter_append, show n + (i + 1 - n) = i + 1 by omega]
        congr 1
        refine List.filter_congr fun k hk => decide_eq_decide.2 (h.awaited_snoc hle ?_)
        have := List.mem_range'_1.1 hk
        omega
      rw [List.map_append, List.map_singleton, Reception.receiveAll_snoc, hknown,
        Reception.passedOn_snoc hlen, hpassed, hrange]
      rcases Nat.eq_or_lt_of_le hle with rfl | hlt
      · rw [Reception.receive_same, Nat.sub_self]
        exact ⟨⟨l, rfl⟩, rfl⟩
      · rw [h.filter_awaited hlt]
        by_cases hnext : j = i + 1 ∧ (first + j) % 2 ^ 16 ≠ 0
        · rw [if_pos hnext]
          obtain ⟨rfl, hnumber⟩ := hnext
          rw [← Nat.add_assoc, Reception.receive_next (by omega)]
          exact ⟨⟨l, rfl⟩, rfl⟩
        · have hfollows : Follows (first + i) (first + j) := hij.resolve_left (Nat.ne_of_lt hlt)
          rw [if_neg hnext, Reception.receive_gap (by omega) (by omega) (by omega), if_pos hfollows]
          exact ⟨⟨l + 1, rfl⟩, rfl⟩

end

end NetISDN

import NetISDN.Lib.Reception

/-!
# Frames in the ring buffer

The output callback hands whole frames to the ring buffer and takes whole blocks of frames from it.
The ring buffer holds one byte less than its size, which is even: it takes part of a frame when it
fills up, and the callback does not look at how much it has taken. So what is played begins at a
frame as long as the decoded audio never gets a megabyte ahead of what is played, and no longer
(`frameAligned_iff`).
-/

namespace NetISDN

open Fifo (Transfer)
open TransitionSystem

/-- The PCM is at most what `inter_buf` holds, and ends with a frame of `channels` samples. -/
def Arrival.WholeFrames (channels : Nat) (arrival : Arrival) : Prop :=
  ∃ frames, frames ≤ 4096 / channels ∧ arrival.pcm.length = 2 * frames * channels

namespace AudioEvent

/-- What an event transfers into or out of the ring buffer. -/
def transfer : AudioEvent → Option (Transfer (BitVec 8))
  | .resampled pcm taken => some (.enter (pcm.take taken))
  | .played block => some (.leave block)
  | .received _ _ | .addValue _ | .muted | .silence | .echoed _ => none

/-- What has entered the ring buffer. -/
def entered (tr : List AudioEvent) : List (BitVec 8) := Fifo.entered (tr.filterMap transfer)

/-- What has been played. -/
def output (tr : List AudioEvent) : List (BitVec 8) := Fifo.left (tr.filterMap transfer)

/-- How many bytes of PCM have been decoded, whatever became of them. -/
def decoded (tr : List AudioEvent) : Nat :=
  (tr.map fun event => match event with
    | .resampled pcm _ => pcm.length
    | _ => 0).sum

variable {tr : List AudioEvent} {event : AudioEvent} {pcm block : List (BitVec 8)} {taken : Nat}

/-- An event that moves no samples enters none. -/
theorem entered_idle (h : event.transfer = none) : entered (tr ++ [event]) = entered tr := by
  rw [entered, List.filterMap_append, List.filterMap_cons_none h, List.filterMap_nil,
    List.append_nil, entered]

/-- An event that moves no samples puts none out. -/
theorem output_idle (h : event.transfer = none) : output (tr ++ [event]) = output tr := by
  rw [output, List.filterMap_append, List.filterMap_cons_none h, List.filterMap_nil,
    List.append_nil, output]

@[simp] theorem entered_resampled :
    entered (tr ++ [.resampled pcm taken]) = entered tr ++ pcm.take taken := by
  rw [entered, List.filterMap_append]
  exact Fifo.entered_append_singleton

@[simp] theorem entered_played : entered (tr ++ [.played block]) = entered tr := by
  rw [entered, List.filterMap_append]
  exact Fifo.entered_append_singleton

@[simp] theorem output_resampled : output (tr ++ [.resampled pcm taken]) = output tr := by
  rw [output, List.filterMap_append]
  exact Fifo.left_append_singleton

@[simp] theorem output_played : output (tr ++ [.played block]) = output tr ++ block := by
  rw [output, List.filterMap_append]
  exact Fifo.left_append_singleton

@[simp] theorem decoded_resampled :
    decoded (tr ++ [.resampled pcm taken]) = decoded tr + pcm.length := by
  simp [decoded]

@[simp] theorem decoded_played : decoded (tr ++ [.played block]) = decoded tr := by
  simp [decoded]

/-- An event that moves no samples decodes none. -/
theorem decoded_idle (h : event.transfer = none) : decoded (tr ++ [event]) = decoded tr := by
  cases event with
  | resampled pcm taken => cases h
  | received | addValue | played | muted | silence | echoed => simp [decoded]

/-- All that has been played, and the beginning of a frame that the ring buffer has taken behind
it: the next block begins with this frame. -/
def BeginsFrame (channels : Nat) (tr : List AudioEvent) : Prop :=
  ∃ pre pcm taken post frame, tr = pre ++ .resampled pcm taken :: post ∧
    2 * channels * frame < taken ∧ output tr = entered pre ++ pcm.take (2 * channels * frame)

/-- The decoded audio never gets a megabyte ahead of what is played. -/
def KeepsUp (tr : List AudioEvent) : Prop :=
  EachAfter (fun pre event => match event with
    | .resampled pcm _ => decoded pre + pcm.length < (output pre).length + 2 ^ 20
    | _ => True) tr

/-- Every block that is played begins with a frame. -/
def BlocksAligned (channels : Nat) (tr : List AudioEvent) : Prop :=
  EachAfter (fun pre event => match event with
    | .played block => block ≠ [] → BeginsFrame channels pre
    | _ => True) tr

/-- All PCM has been taken, and is whole frames. -/
def TakenWhole (channels : Nat) (tr : List AudioEvent) : Prop :=
  EachAfter (fun _ event => match event with
    | .resampled pcm taken => taken = pcm.length ∧ 2 * channels ∣ pcm.length
    | _ => True) tr

/-- An event that transfers nothing tells nothing about the frames. -/
theorem keepsUp_idle (h : event.transfer = none) : KeepsUp (tr ++ [event]) ↔ KeepsUp tr := by
  rw [KeepsUp, eachAfter_concat]
  cases event with
  | resampled pcm taken => cases h
  | received | addValue | played | muted | silence | echoed => exact and_iff_left trivial

/-- Where all PCM has been taken, a frame begins at every multiple of the size of a frame. -/
theorem TakenWhole.frames {channels : Nat} (h : TakenWhole channels tr) :
    2 * channels ∣ (entered tr).length ∧ ∀ p, 2 * channels ∣ p → p < (entered tr).length →
      ∃ pre pcm taken post frame, tr = pre ++ .resampled pcm taken :: post ∧
        2 * channels * frame < taken ∧
        (entered tr).take p = entered pre ++ pcm.take (2 * channels * frame) := by
  induction tr using List.reverseRecOn with
  | nil => exact ⟨⟨0, rfl⟩, fun p _ hp => absurd hp (Nat.not_lt_zero p)⟩
  | append_singleton tr event ih =>
      obtain ⟨h, hevent⟩ := eachAfter_concat.1 h
      obtain ⟨hdvd, hframes⟩ := ih h
      -- what begins in the shorter history begins here
      have hmore : ∀ p, 2 * channels ∣ p → p < (entered tr).length →
          ∃ pre pcm taken post frame, tr ++ [event] = pre ++ .resampled pcm taken :: post ∧
            2 * channels * frame < taken ∧
            (entered tr).take p = entered pre ++ pcm.take (2 * channels * frame) := by
        intro p hp hlt
        obtain ⟨pre, pcm, taken, post, frame, rfl, hframe, htake⟩ := hframes p hp hlt
        exact ⟨pre, pcm, taken, post ++ [event], frame, by simp, hframe, htake⟩
      cases event with
      | resampled pcm taken =>
          obtain ⟨rfl, hpcm⟩ : taken = pcm.length ∧ 2 * channels ∣ pcm.length := hevent
          rw [entered_resampled, List.take_length, List.length_append]
          refine ⟨Nat.dvd_add hdvd hpcm, fun p hp hlt => ?_⟩
          rcases Nat.lt_or_ge p (entered tr).length with hlt' | hge
          · rw [List.take_append_of_le_length hlt'.le]
            exact hmore p hp hlt'
          · obtain ⟨frame, hframe⟩ := Nat.dvd_sub hp hdvd
            refine ⟨tr, pcm, pcm.length, [], frame, rfl, by omega, ?_⟩
            rw [List.take_append, List.take_of_length_le hge, hframe]
      | played block =>
          rw [entered_played]
          exact ⟨hdvd, hmore⟩
      | received | addValue | muted | silence | echoed =>
          rw [entered_idle rfl]
          exact ⟨hdvd, hmore⟩

end AudioEvent

namespace AudioOutput

open AudioEvent

variable {a a' : AudioOutput} {cb : Callback} {rand : BitVec 16} {buf : ByteMemory} {n c : Nat}
  {arrival : Arrival} {arrivals : List Arrival} {out tr : List AudioEvent} {event : AudioEvent}
  {ring : RingBuffer} {taken : BitVec 64} {pcm block : List (BitVec 8)}

/-! ## What a run keeps -/

/-- The ring buffer holds what has entered and has not been played. -/
structure Queued (c : Nat) (tr : List AudioEvent) (a : AudioOutput) : Prop where
  ring : a.ring.WellFormed
  size : a.ring.size.toNat = 2 ^ 20
  history : entered tr = output tr ++ a.ring.contents
  channels : a.channels.toNat = c
  frame : c = 1 ∨ c = 2
  socket : ∀ arrival ∈ a.socket, arrival.WholeFrames c

/-- Whole frames are in the ring buffer, and whole frames have been played. -/
structure Aligned (c : Nat) (tr : List AudioEvent) (a : AudioOutput) : Prop where
  used : 2 * c ∣ a.ring.used
  output : 2 * c ∣ (output tr).length
  decoded : decoded tr = (entered tr).length
  taken : TakenWhole c tr
  blocks : BlocksAligned c tr
  keepsUp : KeepsUp tr

/-- The ring buffer has been full. -/
structure Overrun (tr : List AudioEvent) (a : AudioOutput) : Prop where
  odd : a.ring.used % 2 = 1
  full : ¬ KeepsUp tr

/-- What every run keeps: it is aligned until the ring buffer is full for the first time. -/
def Playing (c : Nat) (tr : List AudioEvent) (a : AudioOutput) : Prop :=
  Queued c tr a ∧ (Aligned c tr a ∨ Overrun tr a)

/-- Only the ring buffer, the channels and the socket matter. -/
theorem Playing.congr (h : Playing c tr a) (hring : a'.ring = a.ring)
    (hchannels : a'.channels = a.channels)
    (hsocket : ∀ arrival ∈ a'.socket, arrival.WholeFrames c) : Playing c tr a' := by
  obtain ⟨hq, h⟩ := h
  refine ⟨⟨hring ▸ hq.ring, hring ▸ hq.size, hring ▸ hq.history, hchannels ▸ hq.channels, hq.frame,
    hsocket⟩, ?_⟩
  rcases h with h | h
  · exact .inl ⟨hring ▸ h.used, h.output, h.decoded, h.taken, h.blocks, h.keepsUp⟩
  · exact .inr ⟨hring ▸ h.odd, h.full⟩

/-- An event that transfers nothing. -/
theorem Playing.idle (h : Playing c tr a) (hevent : event.transfer = none) :
    Playing c (tr ++ [event]) a := by
  obtain ⟨hq, h⟩ := h
  refine ⟨⟨hq.ring, hq.size, ?_, hq.channels, hq.frame, hq.socket⟩, ?_⟩
  · rw [entered_idle hevent, output_idle hevent]
    exact hq.history
  · rcases h with h | h
    · refine .inl ⟨h.used, ?_, ?_, ?_, ?_, (keepsUp_idle hevent).2 h.keepsUp⟩
      · rw [output_idle hevent]
        exact h.output
      · rw [decoded_idle hevent, entered_idle hevent]
        exact h.decoded
      · refine eachAfter_concat.2 ⟨h.taken, ?_⟩
        cases event with
        | resampled pcm taken => cases hevent
        | received | addValue | played | muted | silence | echoed => trivial
      · refine eachAfter_concat.2 ⟨h.blocks, ?_⟩
        cases event with
        | played block => cases hevent
        | received | addValue | resampled | muted | silence | echoed => trivial
    · exact .inr ⟨h.odd, fun hk => h.full ((keepsUp_idle hevent).1 hk)⟩

/-- PCM is handed to the ring buffer: it takes all of it, or it fills up. -/
theorem Playing.write (h : Playing c tr a) (hpcm : arrival.WholeFrames c)
    (hwrite : a.ring.write arrival.pcm (BitVec.ofNat 64 arrival.pcm.length) = some (ring, taken)) :
    Playing c (tr ++ [.resampled arrival.pcm taken.toNat]) { a with ring := ring } := by
  obtain ⟨hq, h⟩ := h
  obtain ⟨frames, hframes, hlen⟩ := hpcm
  obtain ⟨rb, n, hwrite', hn, hring, hsize, hcontents⟩ :=
    hq.ring.write_spec (toNat_length_le arrival.pcm)
  obtain ⟨rfl, rfl⟩ := Prod.mk.inj (Option.some.inj (hwrite'.symm.trans hwrite))
  have hdvd : 2 * c ∣ arrival.pcm.length := ⟨frames, by rw [hlen, Nat.mul_right_comm]⟩
  have hsmall : arrival.pcm.length ≤ 8192 := by
    rw [hlen]
    rcases hq.frame with rfl | rfl <;> omega
  have hused := congrArg List.length hcontents
  rw [BitVec.toNat_ofNat, hq.size, Nat.mod_eq_of_lt (by omega)] at hn
  rw [List.length_append, RingBuffer.length_contents, RingBuffer.length_contents, List.length_take,
    hn] at hused
  have hlt := hq.ring.used_lt
  rw [hq.size] at hlt
  refine ⟨⟨hring, by rw [hsize, hq.size], ?_, hq.channels, hq.frame, hq.socket⟩, ?_⟩
  · rw [entered_resampled, output_resampled, hcontents, hq.history, List.append_assoc]
  · rcases h with h | h
    · have hbalance := congrArg List.length hq.history
      rw [List.length_append, RingBuffer.length_contents, ← h.decoded] at hbalance
      rcases Nat.lt_or_ge (a.ring.used + arrival.pcm.length) (2 ^ 20) with hfits | hfull
      · have hall : n.toNat = arrival.pcm.length := by omega
        have hmore : rb.used = a.ring.used + arrival.pcm.length := by omega
        refine .inl ⟨?_, ?_, ?_, ?_, ?_, ?_⟩
        · show 2 * c ∣ rb.used
          rw [hmore]
          exact Nat.dvd_add h.used hdvd
        · rw [output_resampled]
          exact h.output
        · rw [decoded_resampled, entered_resampled, List.length_append, h.decoded, hall,
            List.take_length]
        · exact eachAfter_concat.2 ⟨h.taken, hall, hdvd⟩
        · exact eachAfter_concat.2 ⟨h.blocks, trivial⟩
        · refine eachAfter_concat.2 ⟨h.keepsUp, ?_⟩
          show decoded tr + arrival.pcm.length < (AudioEvent.output tr).length + 2 ^ 20
          omega
      · refine .inr ⟨?_, fun hk => ?_⟩
        · show rb.used % 2 = 1
          omega
        · have hlt : decoded tr + arrival.pcm.length < (AudioEvent.output tr).length + 2 ^ 20 :=
            (eachAfter_concat.1 hk).2
          omega
    · refine .inr ⟨?_, fun hk => h.full (eachAfter_concat.1 hk).1⟩
      have hodd := h.odd
      have heven : 2 ∣ arrival.pcm.length := (Nat.dvd_mul_right 2 c).trans hdvd
      show rb.used % 2 = 1
      omega

/-- A block is played from the ring buffer. -/
theorem Playing.play (h : Playing c tr a) {cnt : BitVec 64} (hcnt : 2 * c ∣ cnt.toNat)
    (hspace : cnt ≤ a.ring.readSpace) {n : BitVec 64}
    (hread : a.ring.read cnt = some (ring, n, block)) :
    Playing c (tr ++ [.played block]) { a with ring := ring } := by
  obtain ⟨hq, h⟩ := h
  obtain ⟨rb, m, hread', hm, hring, hsize, hcontents⟩ := hq.ring.read_spec cnt
  obtain ⟨rfl, hread'⟩ := Prod.mk.inj (Option.some.inj (hread'.symm.trans hread))
  obtain ⟨rfl, rfl⟩ := Prod.mk.inj hread'
  have hle : cnt.toNat ≤ a.ring.used := by
    rw [← hq.ring.toNat_readSpace]
    exact hspace
  obtain hm : m.toNat = cnt.toNat := by omega
  have hused := congrArg List.length hcontents
  rw [List.length_drop, RingBuffer.length_contents, RingBuffer.length_contents, hm] at hused
  have hblock : (a.ring.contents.take m.toNat).length = cnt.toNat := by
    rw [List.length_take, RingBuffer.length_contents]
    omega
  refine ⟨⟨hring, by rw [hsize, hq.size], ?_, hq.channels, hq.frame, hq.socket⟩, ?_⟩
  · rw [entered_played, output_played, hcontents, hq.history, List.append_assoc,
      List.take_append_drop]
  · rcases h with h | h
    · refine .inl ⟨?_, ?_, ?_, ?_, ?_, ?_⟩
      · show 2 * c ∣ rb.used
        rw [hused]
        exact Nat.dvd_sub h.used hcnt
      · rw [output_played, List.length_append, hblock]
        exact Nat.dvd_add h.output hcnt
      · rw [decoded_played, entered_played]
        exact h.decoded
      · exact eachAfter_concat.2 ⟨h.taken, trivial⟩
      · refine eachAfter_concat.2 ⟨h.blocks, fun hne => ?_⟩
        have hpos := List.length_pos_of_ne_nil hne
        have hlength := congrArg List.length hq.history
        rw [List.length_append, RingBuffer.length_contents] at hlength
        obtain ⟨pre, pcm, taken, post, frame, htr, hframe, htake⟩ :=
          h.taken.frames.2 _ h.output (by omega)
        rw [hq.history, List.take_left' rfl] at htake
        exact ⟨pre, pcm, taken, post, frame, htr, hframe, htake⟩
      · exact eachAfter_concat.2 ⟨h.keepsUp, trivial⟩
    · refine .inr ⟨?_, fun hk => h.full (eachAfter_concat.1 hk).1⟩
      have hodd := h.odd
      have heven : 2 ∣ cnt.toNat := (Nat.dvd_mul_right 2 c).trans hcnt
      show rb.used % 2 = 1
      omega

/-! ## The callback -/

/-- A frame that is decoded keeps the player in step. -/
theorem Playing.processFrame (h : Playing c tr a) (hpcm : arrival.WholeFrames c)
    {frame : List (BitVec 8)} (hs : a.processFrame arrival frame = some (a', out)) :
    Playing c (tr ++ out) a' := by
  rw [AudioOutput.processFrame] at hs
  split at hs
  · simp only [Option.bind_eq_bind, Option.bind_eq_some_iff, Prod.exists, Option.pure_def,
      Option.some.injEq, Prod.mk.injEq] at hs
    obtain ⟨ring, taken, hwrite, rfl, rfl⟩ := hs
    have hreceived : Playing c (tr ++ [.received arrival.datagram frame]) _ := h.idle rfl
    have h' := hreceived.write hpcm hwrite
    rwa [List.append_assoc] at h'
  · obtain ⟨rfl, rfl⟩ := Prod.mk.inj (Option.some.inj hs)
    exact h.idle rfl

/-- A packet that is received keeps the player in step. -/
theorem Playing.receivePacket (h : Playing c tr a) (hpcm : arrival.WholeFrames c)
    (hs : a.receivePacket rand buf n arrival = some (a', out)) : Playing c (tr ++ out) a' := by
  rw [AudioOutput.receivePacket] at hs
  split at hs
  · refine Playing.processFrame ?_ hpcm hs
    exact h.congr rfl rfl h.1.socket
  · obtain ⟨rfl, rfl⟩ := Prod.mk.inj (Option.some.inj hs)
    rwa [List.append_nil]

/-- The loop that fills the ring buffer, by induction on what is in the socket. -/
theorem Playing.fillRing (h : Playing c tr a) (harr : ∀ arrival ∈ arrivals, arrival.WholeFrames c)
    (hs : a.fillRing rand buf arrivals = some (a', out)) : Playing c (tr ++ out) a' := by
  induction arrivals generalizing a buf tr out with
  | nil =>
      obtain ⟨rfl, rfl⟩ := Prod.mk.inj (Option.some.inj hs)
      rw [List.append_nil]
      exact h.congr rfl rfl (List.forall_mem_nil _)
  | cons arrival rest ih =>
      obtain ⟨hfirst, hrest⟩ := List.forall_mem_cons.1 harr
      rw [AudioOutput.fillRing] at hs
      split at hs
      · obtain ⟨rfl, rfl⟩ := Prod.mk.inj (Option.some.inj hs)
        rw [List.append_nil]
        exact h.congr rfl rfl hrest
      · simp only [Option.bind_eq_bind, Option.bind_eq_some_iff, Prod.exists, Option.pure_def,
          Option.some.injEq, Prod.mk.injEq] at hs
        obtain ⟨a₁, out₁, hpacket, a₂, out₂, hfill, rfl, rfl⟩ := hs
        rw [← List.append_assoc]
        exact ih (h.receivePacket hfirst hpacket) hrest hfill

/-- A block is whole frames. -/
theorem Queued.dvd_blockSize (h : Queued c tr a) (frameCount : BitVec 64) :
    2 * c ∣ (a.blockSize frameCount).toNat := by
  have hchannels := h.channels
  have htwo : (2 : BitVec 64).toNat = 2 := rfl
  rw [blockSize, BitVec.toNat_mul, BitVec.toNat_mul, BitVec.toNat_setWidth, hchannels, htwo]
  rcases h.frame with rfl | rfl <;> omega

/-- What is played out keeps the player in step. -/
theorem Playing.playOut (h : Playing c tr a) {frameCount : BitVec 64}
    (hs : a.playOut frameCount = some (a', out)) : Playing c (tr ++ out) a' := by
  rw [AudioOutput.playOut] at hs
  dsimp only at hs
  generalize (if a.ring.readSpace < a.blockSize frameCount * a.bufferSetpoint.setWidth 64
    then (400 : Int) else -400) = value at hs
  split at hs
  · obtain ⟨rfl, rfl⟩ := Prod.mk.inj (Option.some.inj hs)
    exact h.idle rfl
  · have h' : Playing c (tr ++ [.addValue value]) a := h.idle rfl
    split at hs
    · next hspace =>
        simp only [Option.bind_eq_bind, Option.bind_eq_some_iff, Prod.exists, Option.pure_def,
          Option.some.injEq, Prod.mk.injEq] at hs
        obtain ⟨ring, n, block, hread, rfl, rfl⟩ := hs
        have hplay := h'.play (h.1.dvd_blockSize frameCount) hspace hread
        rw [List.append_assoc] at hplay
        exact hplay.congr rfl rfl hplay.1.socket
    · obtain ⟨rfl, rfl⟩ := Prod.mk.inj (Option.some.inj hs)
      have hsilent : Playing c (tr ++ [.addValue value] ++ [.silence]) a := h'.idle rfl
      rw [List.append_assoc] at hsilent
      exact hsilent.congr rfl rfl hsilent.1.socket

/-- The loopback leaves the ring buffer alone. -/
theorem Playing.loopBack (h : Playing c tr a)
    (harr : ∀ arrival ∈ arrivals, arrival.WholeFrames c) :
    Playing c (tr ++ (a.loopBack arrivals).2) (a.loopBack arrivals).1 := by
  induction arrivals generalizing a tr with
  | nil =>
      rw [AudioOutput.loopBack, List.append_nil]
      exact h.congr rfl rfl (List.forall_mem_nil _)
  | cons arrival rest ih =>
      obtain ⟨-, hrest⟩ := List.forall_mem_cons.1 harr
      rw [AudioOutput.loopBack]
      split
      · rw [List.append_nil]
        exact h.congr rfl rfl hrest
      · have h₁ : Playing c (tr ++ [.echoed (arrival.datagram.take 1500)] ++ [.silence]) a :=
          Playing.idle (h.idle rfl) rfl
        have h₂ := ih (a := { a with codec := { a.codec with locked := false } })
          (h₁.congr rfl rfl h.1.socket) hrest
        simpa using h₂

/-- The PCM of everything that arrives is whole frames. -/
def WholeFrames (a : AudioOutput) (cb : Callback) : Prop :=
  ∀ arrival ∈ cb.arrivals, arrival.WholeFrames a.channels.toNat

/-- The step lemma: a call of the callback. -/
theorem Playing.audioOutputCallback (h : Playing c tr a) (hcb : WholeFrames a cb)
    (hs : a.audioOutputCallback cb = some (a', out)) : Playing c (tr ++ out) a' := by
  have hsocket : ∀ arrival ∈ a.socket ++ cb.arrivals, arrival.WholeFrames c := by
    intro arrival harrival
    rcases List.mem_append.1 harrival with harrival | harrival
    · exact h.1.socket arrival harrival
    · rw [← h.1.channels]
      exact hcb arrival harrival
  have h₁ : Playing c tr { a with socket := a.socket ++ cb.arrivals } := h.congr rfl rfl hsocket
  cases hloop : a.loopback with
  | true =>
      rw [AudioOutput.audioOutputCallback] at hs
      simp only [hloop, if_true, Option.some.injEq] at hs
      have h₂ := h₁.loopBack hsocket
      simp only [hloop, hs] at h₂
      exact h₂
  | false =>
      cases hout : cb.hasOutput with
      | true =>
          obtain ⟨a₁, filled, played, hfill, hplay, rfl⟩ :=
            (audioOutputCallback_eq_some_iff hloop hout).1 hs
          rw [← List.append_assoc]
          exact (h₁.fillRing hsocket hfill).playOut hplay
      | false =>
          rw [AudioOutput.audioOutputCallback] at hs
          simp only [hloop, hout, Bool.false_eq_true, if_false, if_true, Option.some.injEq,
            Prod.mk.injEq] at hs
          obtain ⟨rfl, rfl⟩ := hs
          rw [List.append_nil]
          exact h₁.congr rfl rfl hsocket

/-! ## Runs -/

/-- A receiver with one or two channels whose ring buffer is as the constructor makes it. -/
structure Fresh (a : AudioOutput) : Prop where
  ring : ∃ mem, RingBuffer.new 1048576 mem = some a.ring
  channels : a.channels = 1 ∨ a.channels = 2
  socket : a.socket = []

/-- A player that is fresh is in step. -/
theorem Fresh.playing (h : Fresh a) : Playing a.channels.toNat [] a := by
  obtain ⟨mem, hnew⟩ := h.ring
  obtain ⟨rb, hnew', hring, -, hempty⟩ := RingBuffer.new_spec mem
    (show 1048576 ≤ 2 ^ 30 by decide)
  obtain rfl := Option.some.inj (hnew.symm.trans hnew')
  have hsize : a.ring.size.toNat = 2 ^ 20 := by
    have hsize : (RingBuffer.new 1048576 mem).map (·.size) = some 1048576 := rfl
    rw [hnew] at hsize
    rw [show a.ring.size = 1048576 from Option.some.inj hsize]
    rfl
  have hused : a.ring.used = 0 := by rw [← RingBuffer.length_contents, hempty, List.length_nil]
  refine ⟨⟨hring, hsize, hempty.symm, rfl, ?_, ?_⟩, .inl ⟨?_, ?_, rfl, ?_, ?_, ?_⟩⟩
  · rcases h.channels with hc | hc
    · exact .inl (congrArg BitVec.toNat hc)
    · exact .inr (congrArg BitVec.toNat hc)
  · rw [h.socket]
    exact List.forall_mem_nil _
  · rw [hused]
    exact Nat.dvd_zero _
  · exact Nat.dvd_zero _
  · exact eachAfter_nil
  · exact eachAfter_nil
  · exact eachAfter_nil

/-- A player that starts fresh stays in step. -/
theorem playing_of_runs {cbs : List Callback} (h : Fresh a)
    (hr : Runs audioOutputCallback WholeFrames a cbs a' tr) : Playing a.channels.toNat tr a' := by
  refine hr.invariant_history (I := fun _ a' tr => Playing a.channels.toNat tr a') h.playing ?_
  intro cbs a₁ tr cb a₂ out _ hplaying hcb hs
  exact hplaying.audioOutputCallback hcb hs

/-- The ring buffer holds whole frames, and every block that has been played begins with one. -/
structure FrameAligned (channels : Nat) (a : AudioOutput) (tr : List AudioEvent) : Prop where
  used : 2 * channels ∣ a.ring.readSpace.toNat
  blocks : BlocksAligned channels tr

/-- **Received audio stays aligned if and only if what is decoded never gets a megabyte ahead of
what is played.** -/
theorem frameAligned_iff {cbs : List Callback} (h : Fresh a)
    (hr : Runs audioOutputCallback WholeFrames a cbs a' tr) :
    FrameAligned a.channels.toNat a' tr ↔ KeepsUp tr := by
  obtain ⟨hq, hplaying⟩ := playing_of_runs h hr
  have hspace := hq.ring.toNat_readSpace
  rcases hplaying with hal | hover
  · exact ⟨fun _ => hal.keepsUp, fun _ => ⟨by rw [hspace]; exact hal.used, hal.blocks⟩⟩
  · refine ⟨fun haligned => ?_, fun hk => absurd hk hover.full⟩
    have hdvd := (Nat.dvd_mul_right 2 a.channels.toNat).trans haligned.used
    have hodd := hover.odd
    omega

/-! ## A ring buffer that fills up -/

/-- A receiver of the source 1 with one channel that nothing has reached. -/
theorem exists_fresh : ∃ a : AudioOutput, Fresh a ∧ a.channels = 1 ∧ a.loopback = false ∧
    a.codec = {} := by
  obtain ⟨ring, hnew, -⟩ := RingBuffer.new_spec (fun _ => 0) (show 1048576 ≤ 2 ^ 30 by decide)
  exact ⟨⟨{}, ring, 1, 8, false, []⟩, ⟨⟨_, hnew⟩, .inl rfl, rfl⟩, rfl, rfl, rfl⟩

/-- A call before which packet `k` has arrived, whose PCM is 4096 frames, when more is to be played
than the ring buffer can hold. -/
def flood (k : Nat) : Callback where
  arrivals := [⟨(Packet.plain 1 k).datagram, List.replicate 8192 0⟩]
  frameCount := 1048576

/-- What is decoded of a frame that is passed on. -/
theorem decoded_processFrame {frame : List (BitVec 8)}
    (hs : a.processFrame arrival frame = some (a', out)) (hpassed : passed out = [true])
    (tr : List AudioEvent) :
    decoded (tr ++ out) = decoded tr + arrival.pcm.length ∧ output (tr ++ out) = output tr := by
  rw [processFrame] at hs
  split at hs
  · simp only [Option.bind_eq_bind, Option.bind_eq_some_iff, Prod.exists, Option.pure_def,
      Option.some.injEq, Prod.mk.injEq] at hs
    obtain ⟨ring, taken, -, rfl, rfl⟩ := hs
    rw [List.append_cons, decoded_resampled, output_resampled, decoded_idle rfl, output_idle rfl]
    exact ⟨rfl, rfl⟩
  · next hempty =>
      obtain ⟨rfl, rfl⟩ := Prod.mk.inj (Option.some.inj hs)
      exact absurd (of_decide_eq_true (List.singleton_inj.1 hpassed)) hempty

/-- A packet that is passed on is decoded once. -/
theorem decoded_receivePacket (hs : a.receivePacket rand buf n arrival = some (a', out))
    (hpassed : passed out = [true]) (tr : List AudioEvent) :
    decoded (tr ++ out) = decoded tr + arrival.pcm.length ∧ output (tr ++ out) = output tr := by
  rw [receivePacket] at hs
  split at hs
  · exact decoded_processFrame hs hpassed tr
  · obtain ⟨rfl, rfl⟩ := Prod.mk.inj (Option.some.inj hs)
    cases hpassed

/-- A packet that is passed on while the ring is filled is decoded once. -/
theorem decoded_fillRing (hs : a.fillRing rand buf [arrival] = some (a', out))
    (hpassed : passed out = [true]) (tr : List AudioEvent) :
    decoded (tr ++ out) = decoded tr + arrival.pcm.length ∧ output (tr ++ out) = output tr := by
  rw [fillRing] at hs
  split at hs
  · obtain ⟨rfl, rfl⟩ := Prod.mk.inj (Option.some.inj hs)
    cases hpassed
  · simp only [fillRing, Option.bind_eq_bind, Option.bind_eq_some_iff, Prod.exists,
      Option.pure_def, Option.some.injEq, Prod.mk.injEq] at hs
    obtain ⟨a₁, out₁, hpacket, a₂, out₂, ⟨rfl, rfl⟩, rfl, rfl⟩ := hs
    rw [List.append_nil] at hpassed ⊢
    exact decoded_receivePacket hpacket hpassed tr

/-- Nothing is played while a block is not there. -/
theorem playOut_short {frameCount : BitVec 64} (hs : a.playOut frameCount = some (a', out))
    (hshort : a.ring.readSpace < a.blockSize frameCount) (tr : List AudioEvent) :
    decoded (tr ++ out) = decoded tr ∧ output (tr ++ out) = output tr := by
  rw [playOut] at hs
  dsimp only at hs
  rw [if_neg (BitVec.not_le.2 hshort)] at hs
  split at hs
  · obtain ⟨rfl, rfl⟩ := Prod.mk.inj (Option.some.inj hs)
    exact ⟨decoded_idle rfl, output_idle rfl⟩
  · obtain ⟨rfl, rfl⟩ := Prod.mk.inj (Option.some.inj hs)
    rw [List.append_cons, decoded_idle rfl, output_idle rfl, decoded_idle rfl, output_idle rfl]
    exact ⟨rfl, rfl⟩

/-- What the receiver knows of the source once the packets before `k` have arrived. -/
def floodKnown : Nat → Option Reception
  | 0 => none
  | k + 1 => some ⟨Reception.seq16 k, 0⟩

/-- A packet of the flood is the next one for the receiver that has taken those before it. -/
theorem receive_floodKnown {k : Nat} (hk : k < 128) :
    Reception.receive (floodKnown k) (Reception.seq16 k) = (⟨Reception.seq16 k, 0⟩, true) := by
  cases k with
  | zero => rfl
  | succ k => exact Reception.receive_next (by omega)

/-- Each packet of the flood is passed on. -/
theorem receiveAll_floodKnown {k : Nat} (hk : k < 128) :
    Reception.receiveAll (floodKnown k) ([k].map Reception.seq16) =
      (floodKnown (k + 1), [true]) := by
  simp only [List.map_cons, List.map_nil, Reception.receiveAll, receive_floodKnown hk]
  rfl

/-- The flood asks for blocks of two megabytes, and the ring buffer holds less than one. -/
theorem Queued.flood_short {k : Nat} (hq : Queued 1 tr a) :
    a.ring.readSpace < a.blockSize (flood k).frameCount := by
  have hused := hq.ring.used_lt
  have hsize : (a.blockSize (flood k).frameCount).toNat = 2 ^ 21 := by
    have htwo : (2 * (flood k).frameCount).toNat = 2 ^ 21 := by
      show (2 * 2 ^ 20 : BitVec 64).toNat = 2 ^ 21
      decide
    rw [blockSize, BitVec.toNat_mul, BitVec.toNat_setWidth, hq.channels, htwo]
    decide
  rw [BitVec.lt_def, hq.ring.toNat_readSpace, hsize]
  rw [hq.size] at hused
  omega

/-- Every packet of the flood is decoded, and nothing is played. -/
theorem exists_flood (hfresh : Fresh a) (hchannels : a.channels = 1) (hloop : a.loopback = false)
    (hcodec : a.codec = {}) {k : Nat} (hk : k ≤ 128) : ∃ a' tr,
      Runs audioOutputCallback WholeFrames a ((List.range k).map flood) a' tr ∧
      a'.loopback = false ∧ a'.socket = [] ∧ a'.codec.reception 1 = floodKnown k ∧
      decoded tr = 8192 * k ∧ output tr = [] := by
  induction k with
  | zero => exact ⟨a, [], .nil, hloop, hfresh.socket, by rw [hcodec]; rfl, rfl, rfl⟩
  | succ k ih =>
      obtain ⟨a₁, tr, hr, hloop₁, hsocket₁, hknown₁, hdecoded, houtput⟩ := ih (by omega)
      obtain ⟨hq, -⟩ := playing_of_runs hfresh hr
      obtain ⟨a₂, out, hs, -⟩ := exists_audioOutputCallback hq.ring hloop₁
        (show (flood k).hasOutput = true from rfl)
      have hone : a₁.channels.toNat = 1 := by rw [hq.channels, hchannels]; rfl
      have hwhole : WholeFrames a₁ (flood k) := by
        intro arrival harrival
        obtain rfl := List.mem_singleton.1 harrival
        rw [hone]
        exact ⟨4096, by decide, List.length_replicate⟩
      obtain ⟨a₃, filled, played, hfill, hplay, rfl⟩ :=
        (audioOutputCallback_eq_some_iff hloop₁ rfl).1 hs
      have harr : ((a₁.socket ++ (flood k).arrivals).map (·.datagram)) =
          [k].map fun i => (Packet.plain 1 i).datagram := by
        rw [hsocket₁]
        rfl
      obtain ⟨hknown₃, hloop₃, hsocket₃, hpassed₃⟩ := fillRing_spec harr hfill
      rw [hknown₁, receiveAll_floodKnown (by omega)] at hknown₃ hpassed₃
      have hsocket : ∀ arrival ∈ a₁.socket ++ (flood k).arrivals,
          arrival.WholeFrames a.channels.toNat := by
        rw [hsocket₁, List.nil_append, ← hq.channels]
        exact hwhole
      have hplaying : Playing a.channels.toNat tr
          { a₁ with socket := a₁.socket ++ (flood k).arrivals } :=
        (playing_of_runs hfresh hr).congr rfl rfl hsocket
      obtain ⟨hq₃, -⟩ := hplaying.fillRing hsocket hfill
      rw [hchannels] at hq₃
      have hshort : a₃.ring.readSpace < a₃.blockSize (flood k).frameCount := hq₃.flood_short
      obtain ⟨hknown₂, hloop₂, hsocket₂, -⟩ := playOut_spec 1 hplay
      rw [hsocket₁] at hfill
      obtain ⟨hdecoded₃, houtput₃⟩ := decoded_fillRing hfill hpassed₃ tr
      obtain ⟨hdecoded₂, houtput₂⟩ := playOut_short hplay hshort (tr ++ filled)
      have hlen : (List.replicate 8192 (0 : BitVec 8)).length = 8192 := List.length_replicate
      refine ⟨a₂, tr ++ (filled ++ played), ?_, ?_, ?_, ?_, ?_, ?_⟩
      · rw [List.range_succ, List.map_append]
        exact hr.snoc hwhole hs
      · rw [hloop₂, hloop₃, hloop₁]
      · rw [hsocket₂, hsocket₃]
      · rw [hknown₂, hknown₃]
      · rw [← List.append_assoc, hdecoded₂, hdecoded₃, hdecoded, hlen, Nat.mul_succ]
      · rw [← List.append_assoc, houtput₂, houtput₃, houtput]

/-- 128 packets of 4096 frames each do not fit. -/
theorem frameAligned_fails : ¬ ∀ (a a' : AudioOutput) (cbs : List Callback) (tr : List AudioEvent),
    Fresh a → Runs audioOutputCallback WholeFrames a cbs a' tr →
      FrameAligned a.channels.toNat a' tr := by
  intro hall
  obtain ⟨a, hfresh, hchannels, hloop, hcodec⟩ := exists_fresh
  obtain ⟨a', tr, hr, -, -, -, hdecoded, houtput⟩ :=
    exists_flood hfresh hchannels hloop hcodec (Nat.le_refl 128)
  obtain ⟨hq, hplaying⟩ := playing_of_runs hfresh hr
  have hdvd := (Nat.dvd_mul_right 2 _).trans (hall a a' _ tr hfresh hr).used
  have hlt := hq.ring.used_lt
  rw [hq.ring.toNat_readSpace] at hdvd
  rw [hq.size] at hlt
  rcases hplaying with h | h
  · have hbalance := congrArg List.length hq.history
    rw [← h.decoded, hdecoded, houtput, List.nil_append, RingBuffer.length_contents] at hbalance
    omega
  · have hodd := h.odd
    omega

/-- What has been decoded in all does not fill the ring buffer. -/
theorem keepsUp_of_decoded (h : decoded tr < 2 ^ 20) : KeepsUp tr := by
  rintro pre event post rfl
  cases event with
  | resampled pcm taken =>
      show decoded pre + pcm.length < _
      simp only [decoded, List.map_append, List.map_cons, List.sum_append, List.sum_cons] at h ⊢
      omega
  | received | addValue | played | muted | silence | echoed => trivial

/-- The first two packets fit. -/
theorem frameAligned_iff_demo : ∃ a a' tr, Fresh a ∧
    Runs audioOutputCallback WholeFrames a ((List.range 2).map flood) a' tr ∧
    decoded tr = 16384 ∧ FrameAligned a.channels.toNat a' tr := by
  obtain ⟨a, hfresh, hchannels, hloop, hcodec⟩ := exists_fresh
  obtain ⟨a', tr, hr, -, -, -, hdecoded, -⟩ :=
    exists_flood hfresh hchannels hloop hcodec (show 2 ≤ 128 by decide)
  refine ⟨a, a', tr, hfresh, hr, hdecoded, (frameAligned_iff hfresh hr).2 ?_⟩
  exact keepsUp_of_decoded (by rw [hdecoded]; decide)

end AudioOutput

end NetISDN

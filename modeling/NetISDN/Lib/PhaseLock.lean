import NetISDN.Lib.AudioOutput
import NetISDN.Lib.AudioSettings
import NetISDN.Lib.MeterAverage

/-!
# The phase-locked loop

The output callback sets `codec_pll_offset` to the average of its phase detector before it decodes a
frame, and resamples the frame by a ratio that the offset shifts (`codec.cpp:225`). What the
callback does to the average is in its trace, so that the loop follows `audioOutputCallback` event
by event.
-/

namespace NetISDN

open SlidingWindow TransitionSystem

/-- `codec_pll_average` and `codec_pll_offset`. -/
structure PhaseLockedLoop where
  average : MeterAverage
  offset : ℚ

namespace PhaseLockedLoop

/-- The loop as the constructor of `Codec` makes it (`codec.cpp:398`). -/
def new : PhaseLockedLoop where
  average := MeterAverage.new 500
  offset := 0

/-- The loop in `InitAudioInterface` (`codec.cpp:1728`), which returns early unless `src_new` makes
a resampler. -/
def init (p : PhaseLockedLoop) (srcNew : Bool) : PhaseLockedLoop :=
  { p with
    average := if srcNew then p.average.preset 0 else p.average
    offset := 0 }

/-- What an event of the callback does to the loop, and the offset that a frame is resampled
with. -/
def note (p : PhaseLockedLoop) : AudioEvent → Option (PhaseLockedLoop × List ℚ)
  | .resampled _ _ => some ({ p with offset := p.average.average }, [p.average.average])
  | .addValue step => do
      let average ← p.average.addValue step
      return ({ p with average := average }, [])
  | .received _ _ | .played _ | .muted | .silence | .echoed _ => some (p, [])

/-- What the events of a call do to the loop. -/
def noteAll (p : PhaseLockedLoop) : List AudioEvent → Option (PhaseLockedLoop × List ℚ)
  | [] => some (p, [])
  | event :: events => do
      let (p, offsets) ← p.note event
      let (p, more) ← p.noteAll events
      return (p, offsets ++ more)

end PhaseLockedLoop

/-- `src_ratio` (`codec.cpp:239`). -/
def AudioSettings.srcRatio (s : AudioSettings) (offset : ℚ) : ℚ :=
  (s.sampleRate.toNat + offset) / s.sampleRate.toNat

/-- What the output callback works on, with the phase-locked loop. -/
structure Receiver where
  output : AudioOutput
  pll : PhaseLockedLoop

namespace Receiver

/-- The audio interface is initialised, before which everything but the loop may have changed, or
PortAudio calls the callback. -/
inductive Event where
  | initAudioInterface (srcNew : Bool) (output : AudioOutput)
  | callback (cb : Callback)

/-- A step puts out the offsets that frames are resampled with. -/
def step (r : Receiver) : Event → Option (Receiver × List ℚ)
  | .initAudioInterface srcNew output => some ({ output := output, pll := r.pll.init srcNew }, [])
  | .callback cb => do
      let (output, events) ← r.output.audioOutputCallback cb
      let (pll, offsets) ← r.pll.noteAll events
      return ({ output := output, pll := pll }, offsets)

end Receiver

/-! ## The phase detector -/

/-- An event that adds to the average adds 400 or -400. -/
def AudioEvent.Detected : AudioEvent → Prop
  | .addValue step => step = 400 ∨ step = -400
  | .received _ _ | .resampled _ _ | .played _ | .muted | .silence | .echoed _ => True

namespace AudioOutput

variable {a a' : AudioOutput} {cb : Callback} {rand : BitVec 16} {buf : ByteMemory} {n : Nat}
  {arrival : Arrival} {arrivals : List Arrival} {out : List AudioEvent}

/-- What a frame logs lies within the ring. -/
theorem detected_processFrame {frame : List (BitVec 8)}
    (hs : a.processFrame arrival frame = some (a', out)) : ∀ event ∈ out, event.Detected := by
  rw [processFrame] at hs
  split at hs
  · simp only [Option.bind_eq_bind, Option.bind_eq_some_iff, Prod.exists, Option.pure_def,
      Option.some.injEq, Prod.mk.injEq] at hs
    obtain ⟨ring, taken, -, -, rfl⟩ := hs
    exact List.forall_mem_cons.2 ⟨trivial, List.forall_mem_singleton.2 trivial⟩
  · obtain ⟨-, rfl⟩ := Prod.mk.inj (Option.some.inj hs)
    exact List.forall_mem_singleton.2 trivial

/-- What a packet logs lies within the ring. -/
theorem detected_receivePacket (hs : a.receivePacket rand buf n arrival = some (a', out)) :
    ∀ event ∈ out, event.Detected := by
  rw [receivePacket] at hs
  split at hs
  · exact detected_processFrame hs
  · obtain ⟨-, rfl⟩ := Prod.mk.inj (Option.some.inj hs)
    exact List.forall_mem_nil _

/-- What filling the ring logs lies within it. -/
theorem detected_fillRing (hs : a.fillRing rand buf arrivals = some (a', out)) :
    ∀ event ∈ out, event.Detected := by
  induction arrivals generalizing a buf out with
  | nil =>
      obtain ⟨-, rfl⟩ := Prod.mk.inj (Option.some.inj hs)
      exact List.forall_mem_nil _
  | cons arrival rest ih =>
      rw [fillRing] at hs
      split at hs
      · obtain ⟨-, rfl⟩ := Prod.mk.inj (Option.some.inj hs)
        exact List.forall_mem_nil _
      · simp only [Option.bind_eq_bind, Option.bind_eq_some_iff, Prod.exists, Option.pure_def,
          Option.some.injEq, Prod.mk.injEq] at hs
        obtain ⟨a₁, out₁, hpacket, a₂, out₂, hfill, rfl, rfl⟩ := hs
        exact List.forall_mem_append.2 ⟨detected_receivePacket hpacket, ih hfill⟩

/-- What playing out logs lies within the ring. -/
theorem detected_playOut {frameCount : BitVec 64} (hs : a.playOut frameCount = some (a', out)) :
    ∀ event ∈ out, event.Detected := by
  have hpll : (AudioEvent.addValue (if a.ring.readSpace <
      a.blockSize frameCount * a.bufferSetpoint.setWidth 64 then 400 else -400)).Detected := by
    split
    · exact .inl rfl
    · exact .inr rfl
  simp only [playOut] at hs
  split at hs
  · obtain ⟨-, rfl⟩ := Prod.mk.inj (Option.some.inj hs)
    exact List.forall_mem_singleton.2 trivial
  · split at hs
    · simp only [Option.bind_eq_bind, Option.bind_eq_some_iff, Prod.exists, Option.pure_def,
        Option.some.injEq, Prod.mk.injEq] at hs
      obtain ⟨ring, cnt, block, -, -, rfl⟩ := hs
      exact List.forall_mem_cons.2 ⟨hpll, List.forall_mem_singleton.2 trivial⟩
    · obtain ⟨-, rfl⟩ := Prod.mk.inj (Option.some.inj hs)
      exact List.forall_mem_cons.2 ⟨hpll, List.forall_mem_singleton.2 trivial⟩

/-- What the loop back logs lies within the ring. -/
theorem detected_loopBack : ∀ event ∈ (a.loopBack arrivals).2, event.Detected := by
  induction arrivals generalizing a with
  | nil => exact List.forall_mem_nil _
  | cons arrival rest ih =>
      rw [loopBack]
      split
      · exact List.forall_mem_nil _
      · exact List.forall_mem_cons.2 ⟨trivial, List.forall_mem_cons.2 ⟨trivial, ih⟩⟩

/-- The phase detector adds nothing but 400 and -400. -/
theorem detected_audioOutputCallback (hs : a.audioOutputCallback cb = some (a', out)) :
    ∀ event ∈ out, event.Detected := by
  rw [audioOutputCallback] at hs
  dsimp only at hs
  split at hs
  · obtain ⟨-, rfl⟩ := Prod.mk.inj (Option.some.inj hs)
    exact detected_loopBack
  · split at hs
    · obtain ⟨-, rfl⟩ := Prod.mk.inj (Option.some.inj hs)
      exact List.forall_mem_nil _
    · simp only [Option.bind_eq_bind, Option.bind_eq_some_iff, Prod.exists, Option.pure_def,
        Option.some.injEq, Prod.mk.injEq] at hs
      obtain ⟨a₁, filled, hfill, a₂, played, hplay, rfl, rfl⟩ := hs
      exact List.forall_mem_append.2 ⟨detected_fillRing hfill, detected_playOut hplay⟩

end AudioOutput

/-! ## The offset -/

namespace PhaseLockedLoop

variable {p p' : PhaseLockedLoop} {event : AudioEvent} {events : List AudioEvent}
  {offsets : List ℚ}

/-- The average is over values of at most 400, and so is the offset. -/
structure Bounded (p : PhaseLockedLoop) : Prop where
  average : ∃ vs, p.average.Follows 500 vs ∧ ∀ v ∈ vs, v ∈ Set.Icc (-400) 400
  offset : p.offset ∈ Set.Icc (-400) 400

/-- No offset at all is in the bounds. -/
theorem zero_mem_Icc : (0 : ℚ) ∈ Set.Icc (-400) 400 := by
  constructor <;> norm_num

/-- A new meter is bounded. -/
theorem bounded_new : Bounded new :=
  ⟨⟨[], MeterAverage.follows_new 500, List.forall_mem_nil _⟩, zero_mem_Icc⟩

/-- A meter that is started is bounded. -/
theorem Bounded.init (h : p.Bounded) (srcNew : Bool) : (p.init srcNew).Bounded := by
  obtain ⟨vs, hvs, hbound⟩ := h.average
  refine ⟨?_, zero_mem_Icc⟩
  cases srcNew with
  | true =>
      refine ⟨_, hvs.preset 0, List.forall_mem_append.2 ⟨hbound, ?_⟩⟩
      intro v hv
      rw [List.eq_of_mem_replicate hv]
      exact zero_mem_Icc
  | false => exact ⟨vs, hvs, hbound⟩

/-- The average of a bounded meter is in the bounds. -/
theorem Bounded.average_mem (h : p.Bounded) : p.average.average ∈ Set.Icc (-400) 400 := by
  obtain ⟨vs, hvs, hbound⟩ := h.average
  rw [hvs.average]
  exact mean_mem_Icc (fun v hv => hbound v (List.drop_subset _ _ hv)) zero_mem_Icc

/-- The step lemma: an event of the callback. -/
theorem Bounded.note (h : p.Bounded) (hevent : event.Detected)
    (hs : p.note event = some (p', offsets)) :
    p'.Bounded ∧ ∀ offset ∈ offsets, offset ∈ Set.Icc (-400) 400 := by
  cases event with
  | resampled pcm taken =>
      obtain ⟨rfl, rfl⟩ := Prod.mk.inj (Option.some.inj hs)
      exact ⟨⟨h.average, h.average_mem⟩, List.forall_mem_singleton.2 h.average_mem⟩
  | addValue step =>
      obtain ⟨vs, hvs, hbound⟩ := h.average
      obtain ⟨m, hadd, hm⟩ := hvs.addValue step
      rw [PhaseLockedLoop.note, hadd] at hs
      obtain ⟨rfl, rfl⟩ := Prod.mk.inj (Option.some.inj hs)
      have hstep : (step : ℚ) ∈ Set.Icc (-400) 400 := by
        rcases hevent with rfl | rfl
        · constructor <;> norm_num
        · constructor <;> norm_num
      exact ⟨⟨⟨_, hm, List.forall_mem_append.2 ⟨hbound, List.forall_mem_singleton.2 hstep⟩⟩,
        h.offset⟩, List.forall_mem_nil _⟩
  | received | played | muted | silence | echoed =>
      obtain ⟨rfl, rfl⟩ := Prod.mk.inj (Option.some.inj hs)
      exact ⟨h, List.forall_mem_nil _⟩

/-- Offsets from within the ring keep the meter bounded and are corrected within the bounds. -/
theorem Bounded.noteAll (h : p.Bounded) (hevents : ∀ event ∈ events, event.Detected)
    (hs : p.noteAll events = some (p', offsets)) :
    p'.Bounded ∧ ∀ offset ∈ offsets, offset ∈ Set.Icc (-400) 400 := by
  induction events generalizing p offsets with
  | nil =>
      obtain ⟨rfl, rfl⟩ := Prod.mk.inj (Option.some.inj hs)
      exact ⟨h, List.forall_mem_nil _⟩
  | cons event events ih =>
      obtain ⟨hevent, hevents⟩ := List.forall_mem_cons.1 hevents
      simp only [PhaseLockedLoop.noteAll, Option.bind_eq_bind, Option.bind_eq_some_iff, Prod.exists,
        Option.pure_def, Option.some.injEq, Prod.mk.injEq] at hs
      obtain ⟨p₁, offsets₁, hnote, p₂, offsets₂, hmore, rfl, rfl⟩ := hs
      obtain ⟨h₁, hoffsets₁⟩ := h.note hevent hnote
      obtain ⟨h₂, hoffsets₂⟩ := ih h₁ hevents hmore
      exact ⟨h₂, List.forall_mem_append.2 ⟨hoffsets₁, hoffsets₂⟩⟩

/-- The loop follows what the callback does: its queue is never found empty. -/
theorem Bounded.exists_noteAll (h : p.Bounded) (hevents : ∀ event ∈ events, event.Detected) :
    ∃ p' offsets, p.noteAll events = some (p', offsets) := by
  induction events generalizing p with
  | nil => exact ⟨p, [], rfl⟩
  | cons event events ih =>
      obtain ⟨hevent, hevents⟩ := List.forall_mem_cons.1 hevents
      have hnote : ∃ p₁ offsets₁, p.note event = some (p₁, offsets₁) := by
        cases event with
        | addValue step =>
            obtain ⟨vs, hvs, -⟩ := h.average
            obtain ⟨m, hadd, -⟩ := hvs.addValue step
            exact ⟨_, _, by rw [PhaseLockedLoop.note, hadd]; rfl⟩
        | resampled | received | played | muted | silence | echoed => exact ⟨_, _, rfl⟩
      obtain ⟨p₁, offsets₁, hnote⟩ := hnote
      obtain ⟨p₂, offsets₂, hmore⟩ := ih (h.note hevent hnote).1 hevents
      exact ⟨p₂, offsets₁ ++ offsets₂, by simp [PhaseLockedLoop.noteAll, hnote, hmore]⟩

end PhaseLockedLoop

/-- With an offset of at most 400 the resampling ratio is positive at every sample rate above 400.
-/
theorem AudioSettings.srcRatio_pos {s : AudioSettings} {offset : ℚ}
    (hoffset : offset ∈ Set.Icc (-400) 400) (hrate : 400 < s.sampleRate.toNat) :
    0 < s.srcRatio offset := by
  have hrate' : (400 : ℚ) < s.sampleRate.toNat := by exact_mod_cast hrate
  exact div_pos (by linarith [hoffset.1]) (by linarith)

namespace Receiver

/-- The callback of a receiver with a well formed ring buffer makes a step. -/
theorem exists_callback {r : Receiver} {cb : Callback} (hpll : r.pll.Bounded)
    (hring : r.output.ring.WellFormed) (hloop : r.output.loopback = false)
    (hout : cb.hasOutput = true) : ∃ r' out, r.step (.callback cb) = some (r', out) := by
  obtain ⟨output, events, hcall, -⟩ :=
    AudioOutput.exists_audioOutputCallback hring hloop hout
  obtain ⟨pll, offsets, hnote⟩ :=
    hpll.exists_noteAll (AudioOutput.detected_audioOutputCallback hcall)
  exact ⟨⟨output, pll⟩, offsets, by simp [step, hcall, hnote]⟩

variable {r r' : Receiver} {event : Event} {events : List Event} {tr out : List ℚ}

/-- The step lemma. -/
theorem bounded_step (h : r.pll.Bounded) (hs : r.step event = some (r', out)) :
    r'.pll.Bounded ∧ ∀ offset ∈ out, offset ∈ Set.Icc (-400) 400 := by
  cases event with
  | initAudioInterface srcNew output =>
      obtain ⟨rfl, rfl⟩ := Prod.mk.inj (Option.some.inj hs)
      exact ⟨h.init srcNew, List.forall_mem_nil _⟩
  | callback cb =>
      simp only [step, Option.bind_eq_bind, Option.bind_eq_some_iff, Prod.exists, Option.pure_def,
        Option.some.injEq, Prod.mk.injEq] at hs
      obtain ⟨output, noted, hcall, pll, offsets, hnote, rfl, rfl⟩ := hs
      exact h.noteAll (AudioOutput.detected_audioOutputCallback hcall) hnote

/-- The run lemma. -/
theorem bounded_runs (h : r.pll.Bounded) (hr : Runs step Always r events r' tr) :
    r'.pll.Bounded ∧ ∀ offset ∈ tr, offset ∈ Set.Icc (-400) 400 := by
  refine hr.invariant_history
    (I := fun _ r' tr => r'.pll.Bounded ∧ ∀ offset ∈ tr, offset ∈ Set.Icc (-400) 400)
    ⟨h, List.forall_mem_nil _⟩ ?_
  intro events r₁ tr event r₂ out _ ⟨h₁, htr⟩ _ hs
  obtain ⟨h₂, hout⟩ := bounded_step h₁ hs
  exact ⟨h₂, List.forall_mem_append.2 ⟨htr, hout⟩⟩

end Receiver

/-- **A meter average is the mean of a sliding window**, and the phase-locked loop, which averages
steps of 400 either way, never turns the resampling ratio to zero. -/
theorem meterAverage_window :
    (∀ (n : Nat) (calls : List MeterAverage.Call), ∃ m,
      calls.foldlM MeterAverage.apply (MeterAverage.new n) = some m ∧
      m.average = mean ((calls.flatMap (MeterAverage.Call.values n)).rtake n) ∧
      m.values.length ≤ n) ∧
    ∀ (output : AudioOutput) (events : List Receiver.Event) (r : Receiver) (offsets : List ℚ),
      Runs Receiver.step Always ⟨output, PhaseLockedLoop.new⟩ events r offsets →
      r.pll.offset ∈ Set.Icc (-400) 400 ∧
      ∀ offset ∈ offsets, offset ∈ Set.Icc (-400) 400 ∧
        ∀ s : AudioSettings, 400 < s.sampleRate.toNat → 0 < s.srcRatio offset := by
  constructor
  · intro n calls
    obtain ⟨m, hm, hfollows⟩ := (MeterAverage.follows_new n).applyAll calls
    exact ⟨m, hm, hfollows.average, hfollows.length_le⟩
  · intro output events r offsets hr
    obtain ⟨hbounded, hoffsets⟩ := Receiver.bounded_runs PhaseLockedLoop.bounded_new hr
    refine ⟨hbounded.offset, fun offset hoffset => ⟨hoffsets offset hoffset, ?_⟩⟩
    intro s hrate
    exact AudioSettings.srcRatio_pos (hoffsets offset hoffset) hrate

/-- A receiver whose audio interface is initialised, and which then plays a block. -/
theorem meterAverage_window_demo :
    (∃ m, [MeterAverage.Call.addValue 1, .addValue 2, .addValue 4].foldlM MeterAverage.apply
      (MeterAverage.new 2) = some m ∧ m.average = mean [2, 4]) ∧
    ∃ (output : AudioOutput) (cb : Callback) (r : Receiver) (offsets : List ℚ),
      Runs Receiver.step Always ⟨output, PhaseLockedLoop.new⟩
        [.initAudioInterface true output, .callback cb] r offsets ∧
      r.pll.offset ∈ Set.Icc (-400) 400 := by
  constructor
  · obtain ⟨m, hm, haverage, -⟩ :=
      meterAverage_window.1 2 [MeterAverage.Call.addValue 1, .addValue 2, .addValue 4]
    exact ⟨m, hm, haverage⟩
  · obtain ⟨ring, -, hring, -, -⟩ :=
      RingBuffer.new_spec (fun _ => 0) (show 1048576 ≤ 2 ^ 30 by decide)
    let output : AudioOutput := ⟨{}, ring, 1, 8, false, []⟩
    let cb : Callback := { arrivals := [⟨List.replicate 20 0, [1, 2]⟩], frameCount := 480 }
    have hinit : Runs Receiver.step Always ⟨output, PhaseLockedLoop.new⟩
        [.initAudioInterface true output] ⟨output, PhaseLockedLoop.new.init true⟩ [] :=
      Runs.single trivial rfl
    obtain ⟨r, offsets, hcall⟩ := @Receiver.exists_callback
      ⟨output, PhaseLockedLoop.new.init true⟩ cb (PhaseLockedLoop.bounded_new.init true) hring rfl
        rfl
    have hr := hinit.snoc trivial hcall
    exact ⟨output, cb, r, _, hr, (meterAverage_window.2 output _ r _ hr).1⟩

end NetISDN

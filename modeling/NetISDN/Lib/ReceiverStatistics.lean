import Mathlib.Data.List.Induction
import NetISDN.Lib.AudioOutput

/-!
# The receiver's statistics

The output callback numbers the packets that arrive and counts the ones that it misses,
`rtcpTransmitData` publishes the counts and reports them to the far end. The counters are reset in
three places; a change of the source leaves the upper half of the sequence number alone
(`restartsCleanly_iff`). A loss counts in the interval of a report whether or not it moves the
sequence number on, so that the fraction reported can exceed one (`FractionInRange`).
-/

namespace NetISDN

open TransitionSystem

/-- What reaches the receiver's statistics: the header of a packet, the timer of
`rtcpTransmitData`, a sender report of the far end. -/
inductive ReceiverEvent where
  | packet (ssrc : BitVec 32) (seq : BitVec 16)
  | transmit (ntp : BitVec 64)
  | report (sr : RTPSenderReport)

/-- The packets of the event are from the source. -/
def ReceiverEvent.IsOf (ssrc : BitVec 32) : ReceiverEvent → Prop
  | .packet source _ => source = ssrc
  | .transmit _ | .report _ => True

/-- What `rtcpTransmitData` publishes, and the extended highest sequence number, the fraction and
the cumulative loss that it writes into each reception block. -/
structure Publication where
  packetsReceived : BitVec 32
  packetsLost : BitVec 32
  blocks : List (BitVec 32 × ℚ × BitVec 32)

namespace Codec

variable {c : Codec} {ssrc : BitVec 32} {seq : BitVec 16}

/-- The counters as `InitAudioInterface` sets them (`codec.cpp:1718`). -/
def initReceiver (c : Codec) : Codec :=
  { c with
    recvTotalPacketsLost := 0
    recvIntervalPacketsLost := 0
    recvSequenceLoNumber := 0
    recvSequenceHiNumber := 0
    recvLastSequenceNumber := 0
    recvSsrc := 0
    recvNtpTimestamp := 0
    recvStartSequenceNumber := 0
    recvStartPacketCount := 0 }

/-- The packets received, as `rtcpTransmitData` works them out (`codec.cpp:789`). -/
def packetsReceived (c : Codec) : BitVec 32 :=
  ((c.recvSequenceHiNumber.setWidth 32 <<< 16) ||| c.recvLastSequenceNumber.setWidth 32) -
    (c.recvStartSequenceNumber + c.recvTotalPacketsLost)

/-- What `rtcpTransmitData` publishes (`codec.cpp:778`). -/
def publication (c : Codec) (ntp : BitVec 64) : Publication where
  packetsReceived := c.packetsReceived
  packetsLost := c.recvTotalPacketsLost
  blocks := (c.senderReport ntp).receptionBlocks.map fun b =>
    (b.highestSequenceNumber, b.fractionPacketsLost, b.cumulativePacketsLost)

/-- What an event does to the counters. -/
def receiverStep (c : Codec) : ReceiverEvent → Codec × List Publication
  | .packet ssrc seq => ((c.trackSequence ssrc seq).1, [])
  | .transmit ntp => (c.reported, [c.publication ntp])
  | .report sr => (c.readSenderReport sr, [])

/-- The events one after the other. -/
def statistics (c : Codec) : List ReceiverEvent → Codec × List Publication
  | [] => (c, [])
  | e :: es =>
      let (c, out) := c.receiverStep e
      let (c, more) := c.statistics es
      (c, out ++ more)

/-! ## A packet of the source that is followed -/

/-- What a packet with the number `seq` can do to a codec that follows its source, and whether it is
passed on. -/
inductive Tracked (c : Codec) (seq : BitVec 16) : Codec × Bool → Prop
  /-- It is the next one. -/
  | next (hnext : seq.toNat = c.recvSequenceLoNumber.toNat + 1) :
      Tracked c seq ({ c with recvSequenceLoNumber := seq }, true)
  /-- It has the number of the last one. -/
  | again (hagain : seq = c.recvSequenceLoNumber) : Tracked c seq (c, false)
  /-- Its number is higher. -/
  | ahead (hahead : c.recvSequenceLoNumber.toNat + 1 < seq.toNat) :
      Tracked c seq ({ c with
        recvTotalPacketsLost := c.recvTotalPacketsLost + 1
        recvIntervalPacketsLost := c.recvIntervalPacketsLost + 1
        recvSequenceLoNumber := seq }, false)
  /-- It is taken for the first one after a rollover. -/
  | rollover (hhigh : 0xff00 < c.recvSequenceLoNumber.toNat)
      (hlow : seq.toNat < c.recvSequenceLoNumber.toNat - 0xff00) :
      Tracked c seq ({ c with
        recvTotalPacketsLost := c.recvTotalPacketsLost + 1
        recvIntervalPacketsLost := c.recvIntervalPacketsLost + 1
        recvSequenceLoNumber := seq
        recvSequenceHiNumber := c.recvSequenceHiNumber + 1
        recvLastSequenceNumber := 0 }, false)
  /-- It is late. -/
  | late (hlate : seq.toNat < c.recvSequenceLoNumber.toNat)
      (hroll : ¬ (0xff00 < c.recvSequenceLoNumber.toNat ∧
        seq.toNat < c.recvSequenceLoNumber.toNat - 0xff00)) :
      Tracked c seq ({ c with
        recvTotalPacketsLost := c.recvTotalPacketsLost + 1
        recvIntervalPacketsLost := c.recvIntervalPacketsLost + 1 }, false)

/-- **What becomes of a packet of the source that is followed.** -/
theorem trackSequence_tracked (c : Codec) (seq : BitVec 16) :
    Tracked c seq (c.trackSequence c.recvSsrc seq) := by
  rw [trackSequence, if_pos rfl]
  rcases Nat.lt_trichotomy seq.toNat c.recvSequenceLoNumber.toNat with hlt | heq | hgt
  · have hne : seq.toNat ≠ c.recvSequenceLoNumber.toNat + 1 := by omega
    have hne' : seq ≠ c.recvSequenceLoNumber := fun heq => by
      rw [heq] at hlt
      exact absurd hlt (Nat.lt_irrefl _)
    have hle : ¬ c.recvSequenceLoNumber < seq := by
      rw [BitVec.lt_def]
      omega
    rw [if_pos hne, if_pos hne']
    simp only [gt_iff_lt, hle, if_false]
    split
    · next hroll => exact .rollover hroll.1 hroll.2
    · next hroll => exact .late hlt hroll
  · have hsame : seq = c.recvSequenceLoNumber := BitVec.eq_of_toNat_eq heq
    have hroll : ¬ (0xff00 < c.recvSequenceLoNumber.toNat ∧
        c.recvSequenceLoNumber.toNat < c.recvSequenceLoNumber.toNat - 0xff00) := by omega
    subst hsame
    simp only [ne_eq, Nat.left_eq_add, one_ne_zero, not_false_eq_true, if_true, not_true, if_false,
      gt_iff_lt, BitVec.lt_irrefl, hroll]
    exact .again rfl
  · have hlt : c.recvSequenceLoNumber < seq := by
      rw [BitVec.lt_def]
      exact hgt
    have hne : seq ≠ c.recvSequenceLoNumber := fun heq => by
      rw [heq] at hgt
      exact absurd hgt (Nat.lt_irrefl _)
    rcases eq_or_ne seq.toNat (c.recvSequenceLoNumber.toNat + 1) with hnext | hgap
    · rw [if_neg (not_not.2 hnext)]
      simp only [gt_iff_lt, hlt, if_true]
      exact .next hnext
    · rw [if_pos hgap, if_pos hne]
      simp only [gt_iff_lt, hlt, if_true]
      exact .ahead (by omega)

/-! ## A new source -/

/-- After a packet of another source the statistics go on as they would in a receiver that has been
initialised and sees the same packets and reports. -/
def RestartsCleanly (c : Codec) (ssrc : BitVec 32) (seq : BitVec 16) : Prop :=
  ∀ later : List ReceiverEvent, (∀ e ∈ later, e.IsOf ssrc) →
    ((c.trackSequence ssrc seq).1.statistics later).2 =
      ((c.initReceiver.trackSequence ssrc seq).1.statistics later).2

/-- What a packet of another source leaves of the counters. -/
def restarted (c : Codec) (ssrc : BitVec 32) (seq : BitVec 16) : Codec :=
  { c with
    recvSsrc := ssrc
    recvTotalPacketsLost := 0
    recvIntervalPacketsLost := 0
    recvSequenceLoNumber := seq
    recvLastSequenceNumber := seq
    recvStartSequenceNumber := seq.setWidth 32
    recvNtpTimestamp := 0
    recvStartPacketCount := 0 }

/-- A packet of another source restarts the numbers. -/
theorem trackSequence_other (hnew : ssrc ≠ c.recvSsrc) :
    c.trackSequence ssrc seq = (c.restarted ssrc seq, true) := if_neg hnew

/-- A receiver that has been initialised follows source 0, so that a first packet from there which
has number 0 changes nothing. -/
theorem trackSequence_initReceiver (h : ssrc = 0 → seq = 0) :
    (c.initReceiver.trackSequence ssrc seq).1 = c.initReceiver.restarted ssrc seq := by
  rcases eq_or_ne ssrc 0 with rfl | hne
  · rw [h rfl]
    rfl
  · rw [trackSequence_other hne]

/-- If the sequence number has not been extended, nothing is left of the source before. -/
theorem restarted_eq (hhi : c.recvSequenceHiNumber = 0) :
    c.restarted ssrc seq = c.initReceiver.restarted ssrc seq := by
  rw [restarted, restarted, initReceiver, hhi]

/-- The packets that are published as received, right after the change. -/
theorem packetsReceived_restarted : (c.restarted ssrc seq).packetsReceived.toNat =
    c.recvSequenceHiNumber.toNat * 2 ^ 16 := by
  have hhi := c.recvSequenceHiNumber.isLt
  have hseq := seq.isLt
  have hupper : (c.recvSequenceHiNumber.setWidth 32 <<< 16).toNat =
      c.recvSequenceHiNumber.toNat * 2 ^ 16 := by
    rw [BitVec.toNat_shiftLeft, BitVec.toNat_setWidth, Nat.shiftLeft_eq]
    omega
  have hlower : (seq.setWidth 32).toNat = seq.toNat := by
    rw [BitVec.toNat_setWidth]
    omega
  have hor := BitFields.toNat_or (x := c.recvSequenceHiNumber.setWidth 32 <<< 16)
    (y := seq.setWidth 32) (k := 16) (by omega) (by omega)
  have hzero : seq.setWidth 32 + (0 : BitVec 32) = seq.setWidth 32 := BitVec.add_zero _
  rw [packetsReceived]
  simp only [restarted, hzero]
  rw [BitVec.toNat_sub, hor]
  omega

/-- A block is written if the sequence number has moved on since the last report. -/
theorem blocks_publication (c : Codec) (ntp : BitVec 64) : (c.publication ntp).blocks = [] ↔
    ¬ c.recvSequenceLoNumber > c.recvLastSequenceNumber := by
  rw [publication, senderReport]
  split
  · next hgt => simp [RTPSenderReport.addReceptionBlock, RTPSenderReport.new, hgt]
  · next hle => simp [RTPSenderReport.new, hle]

/-- From source 0 an initialised receiver takes any number but 0 for one that is higher. -/
theorem initReceiver_zero (c : Codec) (hne : seq ≠ 0) :
    (c.initReceiver.trackSequence 0 seq).1.recvSequenceLoNumber = seq ∧
      (c.initReceiver.trackSequence 0 seq).1.recvLastSequenceNumber = 0 := by
  have htracked : Tracked c.initReceiver seq (c.initReceiver.trackSequence 0 seq) :=
    c.initReceiver.trackSequence_tracked seq
  have hlo : c.initReceiver.recvSequenceLoNumber.toNat = 0 := rfl
  generalize c.initReceiver.trackSequence 0 seq = r at *
  cases htracked with
  | next hnext => exact ⟨rfl, rfl⟩
  | again hagain => exact absurd hagain hne
  | ahead hahead => exact ⟨rfl, rfl⟩
  | rollover hhigh hlow => omega
  | late hlate hroll => omega

/-- **The statistics restart cleanly if and only if** the sequence number of the source before has
not been extended, and a packet of source 0 has number 0. -/
theorem restartsCleanly_iff (c : Codec) (ssrc : BitVec 32) (seq : BitVec 16)
    (hnew : ssrc ≠ c.recvSsrc) :
    c.RestartsCleanly ssrc seq ↔ c.recvSequenceHiNumber = 0 ∧ (ssrc = 0 → seq = 0) := by
  rw [RestartsCleanly, trackSequence_other hnew]
  constructor
  · intro hclean
    have hpub := hclean [.transmit 0] (by simp [ReceiverEvent.IsOf])
    have hpub : (c.restarted ssrc seq).publication 0 =
        (c.initReceiver.trackSequence ssrc seq).1.publication 0 := List.singleton_inj.1 hpub
    have hfirst : ssrc = 0 → seq = 0 := by
      rintro rfl
      by_contra hne
      have hnone : ((c.restarted 0 seq).publication 0).blocks = [] :=
        (blocks_publication _ 0).2 (BitVec.lt_irrefl seq)
      obtain ⟨hlo, hlast⟩ := initReceiver_zero c hne
      rw [hpub, blocks_publication, hlo, hlast, gt_iff_lt, BitVec.lt_def] at hnone
      exact hne (BitVec.eq_of_toNat_eq (Nat.eq_zero_of_not_pos hnone))
    refine ⟨?_, hfirst⟩
    rw [trackSequence_initReceiver hfirst] at hpub
    have hreceived : (c.restarted ssrc seq).packetsReceived.toNat =
        (c.initReceiver.restarted ssrc seq).packetsReceived.toNat :=
      congrArg (fun p => p.packetsReceived.toNat) hpub
    rw [packetsReceived_restarted, packetsReceived_restarted] at hreceived
    have hzero : c.initReceiver.recvSequenceHiNumber.toNat = 0 := rfl
    exact BitVec.eq_of_toNat_eq (show c.recvSequenceHiNumber.toNat = 0 by omega)
  · rintro ⟨hhi, hfirst⟩ later -
    rw [trackSequence_initReceiver hfirst, restarted_eq hhi]

/-- A receiver that has followed source 1 without a rollover. -/
theorem restartsCleanly_demo : RestartsCleanly { recvSsrc := 1, recvSequenceLoNumber := 9 } 2 7 :=
  (restartsCleanly_iff { recvSsrc := 1, recvSequenceLoNumber := 9 } 2 7 (by decide)).2
    ⟨rfl, fun hzero => absurd hzero (by decide)⟩

/-- A rollover of source 1 counts among the packets of source 2. -/
theorem restartsCleanly_fails : ¬ ∀ (c : Codec) (earlier : List ReceiverEvent) (ssrc : BitVec 32)
    (seq : BitVec 16), ssrc ≠ (c.initReceiver.statistics earlier).1.recvSsrc →
      (c.initReceiver.statistics earlier).1.RestartsCleanly ssrc seq := by
  intro hall
  have hclean := hall {} [.packet 1 0xffff, .packet 1 0] 2 7 (by decide)
  have hpub := hclean [.transmit 0] (by simp [ReceiverEvent.IsOf])
  have hreceived := congrArg (fun ps => ps.map Publication.packetsReceived) hpub
  exact absurd hreceived (by decide)

/-! ## The fraction of the packets lost -/

/-- The fraction that `GenerateRtcpPacket` works out is one. -/
structure FractionInRange (c : Codec) : Prop where
  divisor : 0 < (c.recvSequenceLoNumber.toNat : Int) - c.recvLastSequenceNumber.toNat
  lost : (c.recvIntervalPacketsLost.toNat : Int) ≤
    (c.recvSequenceLoNumber.toNat : Int) - c.recvLastSequenceNumber.toNat
  fraction : 0 ≤ c.receptionBlock.fractionPacketsLost ∧ c.receptionBlock.fractionPacketsLost ≤ 1

/-- There is room for one more loss in the interval: for a packet that is taken for the first one
after a rollover, among the numbers up to its own; for a late packet, among the numbers since the
last report. -/
def StepFits (c : Codec) : ReceiverEvent → Prop
  | .packet ssrc seq => ssrc = c.recvSsrc →
      if 0xff00 < c.recvSequenceLoNumber.toNat ∧
          seq.toNat < c.recvSequenceLoNumber.toNat - 0xff00 then
        c.recvIntervalPacketsLost.toNat < max 1 seq.toNat
      else seq.toNat < c.recvSequenceLoNumber.toNat → c.recvIntervalPacketsLost.toNat <
        max 1 (c.recvSequenceLoNumber.toNat - c.recvLastSequenceNumber.toNat)
  | .transmit _ | .report _ => True

instance (c : Codec) (e : ReceiverEvent) : Decidable (c.StepFits e) := by
  cases e <;> unfold StepFits <;> infer_instance

/-- The losses of the interval are no more than the numbers that it has gone on by, unless it has
not gone on and one packet is lost. -/
structure IntervalFits (c : Codec) : Prop where
  last_le : c.recvLastSequenceNumber.toNat ≤ c.recvSequenceLoNumber.toNat
  lost_le : c.recvIntervalPacketsLost.toNat ≤
    max 1 (c.recvSequenceLoNumber.toNat - c.recvLastSequenceNumber.toNat)

/-- The last event comes last. -/
theorem statistics_concat (c : Codec) (es : List ReceiverEvent) (e : ReceiverEvent) :
    (c.statistics (es ++ [e])).1 = ((c.statistics es).1.receiverStep e).1 := by
  induction es generalizing c with
  | nil => rfl
  | cons e' es ih => exact ih (c.receiverStep e').1

/-- A packet of the source that is followed keeps to the room that there is. -/
theorem IntervalFits.tracked {r : Codec × Bool} (h : c.IntervalFits)
    (htracked : Tracked c seq r) (hfits : c.StepFits (.packet c.recvSsrc seq)) :
    r.1.IntervalFits := by
  have hlast := h.last_le
  have hlost := h.lost_le
  have hlo := c.recvSequenceLoNumber.isLt
  have hseq := seq.isLt
  have hcount : c.recvIntervalPacketsLost.toNat < 2 ^ 16 := by omega
  have hone : (c.recvIntervalPacketsLost + 1).toNat = c.recvIntervalPacketsLost.toNat + 1 := by
    rw [BitVec.toNat_add]
    exact Nat.mod_eq_of_lt (by show _ + 1 < _; omega)
  have hfits := hfits rfl
  cases htracked with
  | next hnext =>
      refine ⟨?_, ?_⟩
      · show c.recvLastSequenceNumber.toNat ≤ seq.toNat
        omega
      · show c.recvIntervalPacketsLost.toNat ≤ max 1 (seq.toNat - c.recvLastSequenceNumber.toNat)
        omega
  | again hagain => exact h
  | ahead hahead =>
      refine ⟨?_, ?_⟩
      · show c.recvLastSequenceNumber.toNat ≤ seq.toNat
        omega
      · show (c.recvIntervalPacketsLost + 1).toNat ≤
          max 1 (seq.toNat - c.recvLastSequenceNumber.toNat)
        omega
  | rollover hhigh hlow =>
      rw [if_pos ⟨hhigh, hlow⟩] at hfits
      refine ⟨Nat.zero_le _, ?_⟩
      show (c.recvIntervalPacketsLost + 1).toNat ≤ max 1 (seq.toNat - 0)
      omega
  | late hlate hroll =>
      rw [if_neg hroll] at hfits
      refine ⟨hlast, ?_⟩
      have hroom := hfits hlate
      show (c.recvIntervalPacketsLost + 1).toNat ≤
        max 1 (c.recvSequenceLoNumber.toNat - c.recvLastSequenceNumber.toNat)
      omega

/-- Every step that fits leaves an interval that fits. -/
theorem IntervalFits.step {e : ReceiverEvent} (h : c.IntervalFits) (hfits : c.StepFits e) :
    (c.receiverStep e).1.IntervalFits := by
  cases e with
  | packet ssrc seq =>
      rcases eq_or_ne ssrc c.recvSsrc with rfl | hnew
      · exact h.tracked (c.trackSequence_tracked seq) hfits
      · show (c.trackSequence ssrc seq).1.IntervalFits
        rw [trackSequence_other hnew]
        exact ⟨Nat.le_refl _, Nat.zero_le _⟩
  | transmit ntp =>
      show c.reported.IntervalFits
      rw [reported]
      split
      · exact ⟨Nat.le_refl _, Nat.zero_le _⟩
      · exact h
  | report sr =>
      show (c.readSenderReport sr).IntervalFits
      have hcounters : (c.readSenderReport sr).recvLastSequenceNumber = c.recvLastSequenceNumber ∧
          (c.readSenderReport sr).recvSequenceLoNumber = c.recvSequenceLoNumber ∧
          (c.readSenderReport sr).recvIntervalPacketsLost = c.recvIntervalPacketsLost := by
        rw [readSenderReport]
        dsimp only
        split <;> split <;> exact ⟨rfl, rfl, rfl⟩
      obtain ⟨hlast, hlo, hlost⟩ := hcounters
      exact ⟨by rw [hlast, hlo]; exact h.last_le, by rw [hlast, hlo, hlost]; exact h.lost_le⟩

/-- In an interval that fits and has gone on, the fraction is one. -/
theorem IntervalFits.fractionInRange (h : c.IntervalFits)
    (hgt : c.recvSequenceLoNumber > c.recvLastSequenceNumber) : c.FractionInRange := by
  have hlost := h.lost_le
  rw [gt_iff_lt, BitVec.lt_def] at hgt
  have hpos : 0 < c.recvSequenceLoNumber.toNat - c.recvLastSequenceNumber.toNat := by omega
  refine ⟨by omega, by omega, ?_, ?_⟩
  · exact div_nonneg (Nat.cast_nonneg _) (Nat.cast_nonneg _)
  · show (c.recvIntervalPacketsLost.toNat : ℚ) / _ ≤ 1
    rw [div_le_one (Nat.cast_pos.2 hpos)]
    exact Nat.cast_le.2 (by omega)

/-- **The fraction of the packets lost is a fraction** whenever it is reported, as long as every
late packet and every rollover finds room for its loss. -/
theorem fractionInRange_of_fits (c : Codec) (es : List ReceiverEvent)
    (hfits : EachAfter (fun pre e => (c.initReceiver.statistics pre).1.StepFits e) es)
    (hgt : (c.initReceiver.statistics es).1.recvSequenceLoNumber >
      (c.initReceiver.statistics es).1.recvLastSequenceNumber) :
    (c.initReceiver.statistics es).1.FractionInRange := by
  refine IntervalFits.fractionInRange ?_ hgt
  clear hgt
  induction es using List.reverseRecOn with
  | nil => exact ⟨Nat.le_refl _, Nat.zero_le _⟩
  | append_singleton es e ih =>
      obtain ⟨hbefore, hlast⟩ := eachAfter_concat.1 hfits
      rw [statistics_concat]
      exact (ih hbefore).step hlast

/-- A gap of one packet, and then the packet that was missing. -/
theorem fractionInRange_demo :
    ((initReceiver {}).statistics [.packet 1 10, .packet 1 12, .packet 1 11]).1.FractionInRange :=
  fractionInRange_of_fits {} [.packet 1 10, .packet 1 12, .packet 1 11]
    (by
      rw [show [ReceiverEvent.packet 1 10, .packet 1 12, .packet 1 11] =
        (([] ++ [.packet 1 10]) ++ [.packet 1 12]) ++ [.packet 1 11] from rfl,
        eachAfter_concat, eachAfter_concat, eachAfter_concat]
      exact ⟨⟨⟨eachAfter_nil, by decide⟩, by decide⟩, by decide⟩)
    (by decide)

/-- A packet that is late and comes twice counts as two losses. -/
theorem fractionInRange_fails : ¬ ∀ (c : Codec) (ssrc : BitVec 32) (es : List ReceiverEvent),
    (∀ e ∈ es, e.IsOf ssrc) →
    (c.initReceiver.statistics es).1.recvSequenceLoNumber >
      (c.initReceiver.statistics es).1.recvLastSequenceNumber →
    (c.initReceiver.statistics es).1.FractionInRange := by
  intro hall
  have hrange := hall {} 1 [.packet 1 10, .packet 1 12, .packet 1 11, .packet 1 11]
    (by simp [ReceiverEvent.IsOf]) (by decide)
  exact absurd hrange.lost (by decide)

end Codec

end NetISDN

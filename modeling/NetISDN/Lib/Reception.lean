import Mathlib.Data.List.Forall2
import Mathlib.Order.Interval.Finset.Nat
import NetISDN.Lib.ReceiverStatistics

/-!
# Packets of one source

The packets of a source are numbered; packet `i` carries `i` modulo 2^16. What the output callback
knows of the source it follows is the last number and the count of the packets lost (`Reception`).
The count is right as long as the next packet that arrives is the next one, but not across the end
of the numbers, or the one after the next (`countsLosses_iff`), and after a burst of losses the
receiver goes on only if it recognises the rollover in it (`recovers_iff`).
-/

namespace NetISDN

open TransitionSystem

/-- What a receiver knows of the source that it follows. -/
structure Reception where
  lo : BitVec 16
  lost : BitVec 32
  deriving DecidableEq

/-- What the codec knows of the source `ssrc`: nothing, while it follows another one. -/
def Codec.reception (c : Codec) (ssrc : BitVec 32) : Option Reception :=
  if c.recvSsrc = ssrc then some ⟨c.recvSequenceLoNumber, c.recvTotalPacketsLost⟩ else none

namespace Reception

/-- What becomes of it at a packet with the number `seq`; also whether the packet is passed on. -/
def receive : Option Reception → BitVec 16 → Reception × Bool
  | none, seq => (⟨seq, 0⟩, true)
  | some r, seq =>
      if seq.toNat = r.lo.toNat + 1 then (⟨seq, r.lost⟩, true)
      else if seq = r.lo then (r, false)
      else if seq > r.lo ∨ 0xff00 < r.lo.toNat ∧ seq.toNat < r.lo.toNat - 0xff00 then
        (⟨seq, r.lost + 1⟩, false)
      else (⟨r.lo, r.lost + 1⟩, false)

/-- The same for packets one after the other. -/
def receiveAll (r : Option Reception) : List (BitVec 16) → Option Reception × List Bool
  | [] => (r, [])
  | seq :: seqs =>
      let (r₁, passed) := receive r seq
      let (r₂, more) := receiveAll (some r₁) seqs
      (r₂, passed :: more)

variable {r : Option Reception} {seq : BitVec 16} {seqs seqs' : List (BitVec 16)}

/-- Packets that arrive after others. -/
theorem receiveAll_append : receiveAll r (seqs ++ seqs') =
    ((receiveAll (receiveAll r seqs).1 seqs').1,
      (receiveAll r seqs).2 ++ (receiveAll (receiveAll r seqs).1 seqs').2) := by
  induction seqs generalizing r with
  | nil => rfl
  | cons seq seqs ih =>
      simp only [List.cons_append, receiveAll, ih]

/-- The last packet. -/
theorem receiveAll_snoc : receiveAll r (seqs ++ [seq]) =
    (some (receive (receiveAll r seqs).1 seq).1,
      (receiveAll r seqs).2 ++ [(receive (receiveAll r seqs).1 seq).2]) := receiveAll_append

/-- A packet leaves something to know. -/
theorem exists_receiveAll (hne : seqs ≠ []) : ∃ s, (receiveAll r seqs).1 = some s := by
  rcases List.eq_nil_or_concat' seqs with rfl | ⟨init, last, rfl⟩
  · exact absurd rfl hne
  · exact ⟨_, congrArg Prod.fst receiveAll_snoc⟩

@[simp] theorem length_receiveAll : (receiveAll r seqs).2.length = seqs.length := by
  induction seqs generalizing r with
  | nil => rfl
  | cons seq seqs ih => exact congrArg (· + 1) ih

/-- Only the number after the last one is passed on. -/
theorem toNat_eq_of_passed {r : Reception} (h : (receive (some r) seq).2 = true) :
    seq.toNat = r.lo.toNat + 1 := by
  rw [receive] at h
  split at h
  · next hnext => exact hnext
  · split at h
    · cases h
    · split at h <;> cases h

/-- `trackSequence` does with the codec what `receive` does with what it knows of the source. -/
theorem trackSequence_spec (c : Codec) (ssrc : BitVec 32) (seq : BitVec 16) :
    (c.trackSequence ssrc seq).1.reception ssrc = some (receive (c.reception ssrc) seq).1 ∧
      (c.trackSequence ssrc seq).2 = (receive (c.reception ssrc) seq).2 := by
  by_cases hssrc : c.recvSsrc = ssrc
  · have hrec : c.reception ssrc = some ⟨c.recvSequenceLoNumber, c.recvTotalPacketsLost⟩ :=
      if_pos hssrc
    rw [Codec.trackSequence, if_pos hssrc.symm, hrec, receive]
    by_cases hnext : seq.toNat = c.recvSequenceLoNumber.toNat + 1
    · have hgt : seq > c.recvSequenceLoNumber := by
        rw [gt_iff_lt, BitVec.lt_def]
        omega
      simp [hnext, hgt, hssrc, Codec.reception]
    · by_cases hsame : seq = c.recvSequenceLoNumber
      · have hroll : ¬ c.recvSequenceLoNumber.toNat < c.recvSequenceLoNumber.toNat - 0xff00 := by
          omega
        simp [hsame, hssrc, hroll, Codec.reception]
      · by_cases hgt : seq > c.recvSequenceLoNumber
        · simp [hnext, hsame, hssrc, hgt, Codec.reception]
        · by_cases hroll : 0xff00 < c.recvSequenceLoNumber.toNat ∧
              seq.toNat < c.recvSequenceLoNumber.toNat - 0xff00
          · simp [hnext, hsame, hssrc, hgt, hroll, Codec.reception]
          · simp [hnext, hsame, hssrc, hgt, hroll, Codec.reception]
  · have hrec : c.reception ssrc = none := if_neg hssrc
    rw [Codec.trackSequence, if_neg fun heq => hssrc heq.symm, hrec, receive]
    simp [Codec.reception]

/-! ## Packets by their numbers -/

variable {i j k n : Nat} {l : BitVec 32} {ns : List Nat}

/-- The number that packet `i` carries. -/
abbrev seq16 (i : Nat) : BitVec 16 := BitVec.ofNat 16 i

/-- A rollover from packet `i` to packet `j` is recognised, if there is one. -/
def Follows (i j : Nat) : Prop :=
  i % 2 ^ 16 < j % 2 ^ 16 ∨ 0xff00 < i % 2 ^ 16 ∧ j % 2 ^ 16 < i % 2 ^ 16 - 0xff00

instance (i j : Nat) : Decidable (Follows i j) := by
  unfold Follows
  infer_instance

/-- A packet that repeats the last one is not passed on. -/
theorem receive_same : receive (some ⟨seq16 i, l⟩) (seq16 i) = (⟨seq16 i, l⟩, false) := by
  rw [receive, if_neg (Nat.ne_of_lt (Nat.lt_succ_self _)), if_pos rfl]

/-- The next packet is passed on, but not across the end of the numbers. -/
theorem receive_next (h : i % 2 ^ 16 ≠ 2 ^ 16 - 1) :
    receive (some ⟨seq16 i, l⟩) (seq16 (i + 1)) = (⟨seq16 (i + 1), l⟩, true) := by
  rw [receive, if_pos]
  rw [BitVec.toNat_ofNat, BitVec.toNat_ofNat]
  omega

/-- Any other packet ahead is not passed on and counts as one lost, whatever the gap. -/
theorem receive_gap (hlt : i < j) (hle : j ≤ i + 2 ^ 15)
    (hnext : j = i + 1 → i % 2 ^ 16 = 2 ^ 16 - 1) : receive (some ⟨seq16 i, l⟩) (seq16 j) =
      (⟨if Follows i j then seq16 j else seq16 i, l + 1⟩, false) := by
  have hne : seq16 j ≠ seq16 i := by
    intro heq
    have heq := congrArg BitVec.toNat heq
    rw [BitVec.toNat_ofNat, BitVec.toNat_ofNat] at heq
    omega
  rw [receive, if_neg (by rw [BitVec.toNat_ofNat, BitVec.toNat_ofNat]; omega), if_neg hne]
  simp only [gt_iff_lt, BitVec.lt_def, BitVec.toNat_ofNat, Follows]
  exact (apply_ite (fun lo => (Reception.mk lo (l + 1), false)) _ _ _).symm

/-- A gap of one packet is recognised across the end of the numbers. -/
theorem follows_add_two (i : Nat) : Follows i (i + 2) := by
  rw [Follows]
  omega

/-! ## The count of the packets lost -/

/-- Packets that arrive in order, beginning with packet `n`, each of them any number of times in a
row; packet `i` is the last. Every gap is shorter than 2^15. -/
inductive Arriving (n : Nat) : List Nat → Nat → Prop
  | first : Arriving n [n] n
  | next {ns : List Nat} {i j : Nat} :
      Arriving n ns i → i ≤ j → j ≤ i + 2 ^ 15 → Arriving n (ns ++ [j]) j

/-- The packets that are missing between the first and the last. -/
def missing (n : Nat) (ns : List Nat) (i : Nat) : Finset Nat := Finset.Icc n i \ ns.toFinset

/-- The numbers of the packets that are passed on. -/
def passedOn (ns : List Nat) (passed : List Bool) : List Nat :=
  ((ns.zip passed).filter (·.2)).map (·.1)

/-- The receiver counts right from packet `i` to packet `j`: it is the same, or the next one but not
across the end of the numbers, or the one after the next. -/
def Counted (i j : Nat) : Prop := j = i ∨ j = i + 1 ∧ i % 2 ^ 16 ≠ 2 ^ 16 - 1 ∨ j = i + 2

instance (i j : Nat) : Decidable (Counted i j) := by
  unfold Counted
  infer_instance

/-- The last number to arrive is the highest. -/
theorem Arriving.mem (h : Arriving n ns i) : i ∈ ns ∧ ∀ k ∈ ns, n ≤ k ∧ k ≤ i := by
  induction h with
  | first => simp
  | next _ hle _ ih =>
      refine ⟨by simp, fun k hk => ?_⟩
      rcases List.mem_append.1 hk with hk | hk
      · have := ih.2 k hk
        omega
      · obtain rfl := List.mem_singleton.1 hk
        have := ih.2 _ ih.1
        omega

/-- Packet `n` is the first. -/
theorem Arriving.exists_cons (h : Arriving n ns i) : ∃ rest, ns = n :: rest := by
  induction h with
  | first => exact ⟨[], rfl⟩
  | next _ _ _ ih =>
      obtain ⟨rest, rfl⟩ := ih
      exact ⟨_, rfl⟩

/-- And it is the last in the list. -/
theorem Arriving.getLast? (h : Arriving n ns i) : ns.getLast? = some i := by
  cases h with
  | first => rfl
  | next _ _ _ => simp

/-- What is missing after one more packet: also what it has skipped. -/
theorem Arriving.missing_snoc (h : Arriving n ns i) (hle : i ≤ j) :
    missing n (ns ++ [j]) j = missing n ns i ∪ Finset.Ioo i j := by
  obtain ⟨hmem, hbounds⟩ := h.mem
  ext k
  simp only [missing, Finset.mem_sdiff, Finset.mem_Icc, List.mem_toFinset, List.mem_append,
    List.mem_singleton, Finset.mem_union, Finset.mem_Ioo, not_or]
  constructor
  · rintro ⟨⟨hn, hj⟩, hk, hne⟩
    rcases Nat.lt_or_ge i k with hlt | hge
    · exact .inr ⟨hlt, by omega⟩
    · exact .inl ⟨⟨hn, hge⟩, hk⟩
  · rintro (⟨⟨hn, hi⟩, hk⟩ | ⟨hi, hj⟩)
    · refine ⟨⟨hn, by omega⟩, hk, fun heq => ?_⟩
      obtain rfl : k = i := by omega
      exact hk hmem
    · have := hbounds i hmem
      exact ⟨⟨by omega, by omega⟩, fun hk => absurd (hbounds k hk).2 (by omega), by omega⟩

/-- The numbers that a gap leaves out are missing. -/
theorem Arriving.card_missing_snoc (h : Arriving n ns i) (hle : i ≤ j) :
    (missing n (ns ++ [j]) j).card = (missing n ns i).card + (j - i - 1) := by
  rw [h.missing_snoc hle, Finset.card_union_of_disjoint, Nat.card_Ioo]
  rw [Finset.disjoint_left]
  intro k hk hk'
  have hle := (Finset.mem_Icc.1 (Finset.mem_sdiff.1 hk).1).2
  have hlt := (Finset.mem_Ioo.1 hk').1
  omega

/-- A property of neighbours, with a number more. -/
theorem Arriving.isChain_snoc (h : Arriving n ns i) {R : Nat → Nat → Prop} :
    (ns ++ [j]).IsChain R ↔ ns.IsChain R ∧ R i j := by
  rw [List.isChain_append, h.getLast?]
  simp

/-- What is passed on of a packet more. -/
theorem passedOn_snoc {passed : List Bool} {b : Bool} (h : passed.length = ns.length) :
    passedOn (ns ++ [j]) (passed ++ [b]) = passedOn ns passed ++ if b then [j] else [] := by
  rw [passedOn, List.zip_append h.symm, List.filter_append, List.map_append, passedOn]
  cases b <;> rfl

/-- One more packet is counted right exactly if it is `Counted` and the counter does not
overflow. -/
theorem lost_receive_iff {m : Nat} (hle : i ≤ j) (hgap : j ≤ i + 2 ^ 15) (hm : m < 2 ^ 32) :
    (receive (some ⟨seq16 i, BitVec.ofNat 32 m⟩) (seq16 j)).1.lost.toNat = m + (j - i - 1) ↔
      Counted i j ∧ m + (j - i - 1) < 2 ^ 32 := by
  rcases Nat.eq_or_lt_of_le hle with rfl | hlt
  · rw [receive_same, BitVec.toNat_ofNat]
    rw [Counted]
    omega
  · by_cases hnext : j = i + 1 ∧ i % 2 ^ 16 ≠ 2 ^ 16 - 1
    · obtain ⟨rfl, hend⟩ := hnext
      rw [receive_next hend, BitVec.toNat_ofNat]
      rw [Counted]
      omega
    · rw [receive_gap hlt hgap (by omega), BitVec.toNat_add, BitVec.toNat_ofNat]
      simp only [Counted, show (1 : BitVec 32).toNat = 1 from rfl]
      omega

/-- While every packet is `Counted`, the receiver knows the last packet and how many are missing;
and while none is missing, each packet is passed on once. -/
theorem Arriving.receiveAll_counted (h : Arriving n ns i) (hc : ns.IsChain Counted) :
    (receiveAll none (ns.map seq16)).1 =
        some ⟨seq16 i, BitVec.ofNat 32 (missing n ns i).card⟩ ∧
      (missing n ns i = ∅ →
        passedOn ns (receiveAll none (ns.map seq16)).2 = List.range' n (i + 1 - n)) := by
  induction h with
  | first =>
      have hnone : missing n [n] n = ∅ := by simp [missing]
      refine ⟨?_, fun _ => ?_⟩
      · rw [hnone]
        rfl
      · rw [Nat.add_sub_cancel_left]
        rfl
  | @next ns i j h hle hgap ih =>
      obtain ⟨hc, hij⟩ := h.isChain_snoc.1 hc
      obtain ⟨hknown, honce⟩ := ih hc
      have hcard := h.card_missing_snoc hle
      have hlen : (receiveAll none (ns.map seq16)).2.length = ns.length := by simp
      have hempty : missing n (ns ++ [j]) j = ∅ → missing n ns i = ∅ ∧ j - i - 1 = 0 := by
        rw [← Finset.card_eq_zero, ← Finset.card_eq_zero, hcard]
        omega
      have hn := (h.mem.2 i h.mem.1).1
      rw [List.map_append, List.map_singleton, receiveAll_snoc, hknown, hcard, passedOn_snoc hlen]
      rcases hij with rfl | ⟨rfl, hend⟩ | rfl
      · rw [receive_same]
        refine ⟨by simp, fun hnone => ?_⟩
        simpa using honce (hempty hnone).1
      · rw [receive_next hend]
        refine ⟨by simp, fun hnone => ?_⟩
        rw [honce (hempty hnone).1, show i + 1 + 1 - n = i + 1 - n + 1 by omega, List.range'_concat]
        simp
        omega
      · rw [receive_gap (by omega) hgap (by omega), if_pos (follows_add_two i)]
        refine ⟨?_, fun hnone => absurd (hempty hnone).2 (by omega)⟩
        rw [show i + 2 - i - 1 = 1 by omega, BitVec.ofNat_add]
        rfl

/-- To a receiver that has begun with number 0, packet 1 is like the first one of a new source. -/
theorem receiveAll_begin (hseq : seq.toNat = 1) :
    receiveAll (some ⟨0, 0⟩) (seq :: seqs) = receiveAll none (seq :: seqs) := by
  have hfirst : receive (some ⟨0, 0⟩) seq = receive none seq := if_pos hseq
  simp only [receiveAll, hfirst]

/-! ## Packets that are passed on -/

/-- The fate of a packet in the middle. -/
theorem getElem?_receiveAll {t : Nat} (ht : t = seqs.length) :
    (receiveAll r (seqs ++ seq :: seqs')).2[t]? = some (receive (receiveAll r seqs).1 seq).2 := by
  rw [receiveAll_append, List.getElem?_append_right (by simp [ht])]
  simp [ht, receiveAll]

/-- Number 0 is never passed on: it is not the one after any other. -/
theorem passed_zero {t : Nat} {s : Reception} (ht : t = seqs.length) :
    (receiveAll (some s) (seqs ++ 0 :: seqs')).2[t]? = some false := by
  obtain ⟨s', hs'⟩ : ∃ s', (receiveAll (some s) seqs).1 = some s' := by
    rcases eq_or_ne seqs [] with rfl | hne
    · exact ⟨s, rfl⟩
    · exact exists_receiveAll hne
  rw [getElem?_receiveAll ht, hs']
  cases hpassed : (receive (some s') 0).2 with
  | false => rfl
  | true => exact absurd (toNat_eq_of_passed hpassed) (Nat.succ_ne_zero _).symm

/-- Packets that follow on each other are passed on up to the end of the numbers. -/
theorem receiveAll_range' {count : Nat} (h : i % 2 ^ 16 + count ≤ 2 ^ 16 - 1) :
    (receiveAll (some ⟨seq16 i, l⟩) ((List.range' (i + 1) count).map seq16)).2 =
      List.replicate count true := by
  induction count generalizing i with
  | zero => rfl
  | succ count ih =>
      rw [List.range'_succ, List.map_cons, receiveAll, receive_next (by omega), List.replicate_succ]
      exact congrArg (true :: ·) (ih (by omega))

end Reception

/-! ## Packets in the callback -/

/-- Packet `i` of the source `ssrc`: a datagram with its header and at least one more byte,
whatever the buffer holds behind it. -/
structure Packet (ssrc : BitVec 32) (i : Nat) where
  datagram : List (BitVec 8)
  length_le : datagram.length ≤ 1500
  length_ge : 12 ≤ datagram.length
  source : ∀ m : ByteMemory, (m.setBytes 0 datagram).word 8 = ssrc
  number : ∀ m : ByteMemory,
    (0xffff#32 &&& (m.setBytes 0 datagram).word 0).setWidth 16 = BitVec.ofNat 16 i
  payload : ∀ (h : RTPHeader) (rand : BitVec 16) (m : ByteMemory),
    4 * (h.readBlock rand (m.setBytes 0 datagram) 0 (BitVec.ofNat 32 (datagram.length / 4))).2 <
      datagram.length

/-- The header of three words of a packet, in memory. -/
def plainHeader (ssrc : BitVec 32) (i : Nat) : ByteMemory :=
  ByteMemory.setWords (fun _ => 0) 0 [0x8000#16 ++ BitVec.ofNat 16 i, 0, ssrc]

/-- The words of the header. -/
theorem words_plainHeader (ssrc : BitVec 32) (i : Nat) :
    (plainHeader ssrc i).word 0 = 0x8000#16 ++ BitVec.ofNat 16 i ∧
      (plainHeader ssrc i).word 8 = ssrc := by
  have hwords : (plainHeader ssrc i).words 0 3 = [0x8000#16 ++ BitVec.ofNat 16 i, 0, ssrc] :=
    ByteMemory.words_setWords
  simp only [ByteMemory.words, List.cons.injEq] at hwords
  exact ⟨hwords.1, hwords.2.2.1⟩

/-- A packet with a header of three words and one byte of payload. -/
def Packet.plain (ssrc : BitVec 32) (i : Nat) : Packet ssrc i where
  datagram := (plainHeader ssrc i).bytes 0 13
  length_le := by rw [ByteMemory.length_bytes]; decide
  length_ge := by rw [ByteMemory.length_bytes]; decide
  source := fun m => by
    have hagree : ByteMemory.Agree 0 13 (plainHeader ssrc i)
        (m.setBytes 0 ((plainHeader ssrc i).bytes 0 13)) := ByteMemory.agree_setBytes
    rw [hagree.word (Nat.zero_le _) (by decide), (words_plainHeader ssrc i).2]
  number := fun m => by
    have hagree : ByteMemory.Agree 0 13 (plainHeader ssrc i)
        (m.setBytes 0 ((plainHeader ssrc i).bytes 0 13)) := ByteMemory.agree_setBytes
    rw [hagree.word (Nat.zero_le _) (by decide), (words_plainHeader ssrc i).1]
    refine BitVec.eq_of_toNat_eq ?_
    rw [BitVec.toNat_setWidth, show 0xffff#32 = BitFields.mask 16 from rfl,
      BitFields.toNat_mask_and (by decide), BitVec.toNat_append,
      ← Nat.shiftLeft_add_eq_or_of_lt (BitVec.isLt _), Nat.shiftLeft_eq]
    omega
  payload := fun h rand m => by
    have hle := h.readBlock_snd_le rand (m.setBytes 0 ((plainHeader ssrc i).bytes 0 13)) 0
      (l := 3) (by decide)
    have hthree : (3 : BitVec 32).toInt = 3 := by decide
    rw [ByteMemory.length_bytes]
    show 4 * (h.readBlock rand _ 0 3).2 < 13
    omega

/-- What of the datagrams received is passed to `DecodeFrame`: nothing of some. -/
def AudioEvent.passedFrames (out : List AudioEvent) : List (List (BitVec 8)) :=
  out.filterMap fun event => match event with
    | .received _ frame => some frame
    | _ => none

/-- Which of the datagrams received are passed on to the decoder. -/
def AudioEvent.passed (out : List AudioEvent) : List Bool :=
  out.filterMap fun event => match event with
    | .received _ frame => some (decide (0 < frame.length))
    | _ => none

/-- A datagram is passed on if something of it is. -/
theorem AudioEvent.passed_eq (out : List AudioEvent) :
    passed out = (passedFrames out).map fun frame => decide (0 < frame.length) := by
  rw [passed, passedFrames, List.map_filterMap]
  congr 1
  funext event
  cases event <;> rfl

/-- What has arrived before the calls of the callback. -/
def arrivalsOf (cbs : List Callback) : List Arrival := cbs.flatMap (·.arrivals)

/-- Packet `i` of the source `ssrc` is read from the datagram, whatever the buffer holds behind it,
and a frame as in `Q`. -/
structure Reads (ssrc : BitVec 32) (i : Nat) (datagram : List (BitVec 8))
    (Q : List (BitVec 8) → Prop) : Prop where
  length_le : datagram.length ≤ 1500
  length_ge : 12 ≤ datagram.length
  source : ∀ m : ByteMemory, (m.setBytes 0 datagram).word 8 = ssrc
  number : ∀ m : ByteMemory,
    (0xffff#32 &&& (m.setBytes 0 datagram).word 0).setWidth 16 = BitVec.ofNat 16 i
  frame : ∀ (h : RTPHeader) (rand : BitVec 16) (m : ByteMemory) (l : Nat),
    l = 4 * (h.readBlock rand (m.setBytes 0 datagram) 0 (BitVec.ofNat 32 (datagram.length / 4))).2 →
      Q ((m.setBytes 0 datagram).bytes l (datagram.length - l))

/-- A packet is read as the one of its number. -/
theorem Packet.reads {ssrc : BitVec 32} {i : Nat} (p : Packet ssrc i) :
    Reads ssrc i p.datagram fun frame => 0 < frame.length := by
  refine ⟨p.length_le, p.length_ge, p.source, p.number, fun h rand m l hl => ?_⟩
  have hpayload := p.payload h rand m
  rw [ByteMemory.length_bytes]
  omega

/-- Of the packets `js`, those flagged are passed on with a frame as in `Q`, and nothing of the
others. -/
def PassesOn (Q : Nat → List (BitVec 8) → Prop) (js : List Nat) (flags : List Bool)
    (fs : List (List (BitVec 8))) : Prop :=
  List.Forall₂ (fun x f => if x.2 then Q x.1 f else f = []) (js.zip flags) fs

section
variable {Q : Nat → List (BitVec 8) → Prop} {js js' : List Nat} {flags flags' : List Bool}
  {fs fs' : List (List (BitVec 8))}

/-- What is passed on of two lists. -/
theorem PassesOn.append (h : PassesOn Q js flags fs) (h' : PassesOn Q js' flags' fs')
    (hlen : flags.length = js.length) : PassesOn Q (js ++ js') (flags ++ flags') (fs ++ fs') := by
  rw [PassesOn, List.zip_append hlen.symm]
  exact List.rel_append h h'

/-- If no frame is empty, the flags tell of which packets something is passed on. -/
theorem PassesOn.passed (h : PassesOn (fun _ f => 0 < f.length) js flags fs)
    (hlen : flags.length = js.length) : fs.map (fun f => decide (0 < f.length)) = flags := by
  have hflags : (js.zip flags).map Prod.snd = flags := List.map_snd_zip hlen.le
  rw [← hflags]
  unfold PassesOn at h
  generalize js.zip flags = l at h
  clear hflags
  induction h with
  | nil => rfl
  | @cons x f l fs hx _ ih =>
      rw [List.map_cons, List.map_cons, ih]
      congr 1
      split at hx
      · next hflag => rw [hflag, decide_eq_true hx]
      · next hflag => rw [hx, Bool.eq_false_of_not_eq_true hflag]; rfl

end

namespace AudioOutput

open Reception AudioEvent

variable {ssrc : BitVec 32} {i : Nat} {js ns : List Nat} {a a' : AudioOutput} {rand : BitVec 16}
  {buf : ByteMemory} {arrival : Arrival} {out : List AudioEvent} {arrivals : List Arrival}
  {datagram : List (BitVec 8)} {Q : List (BitVec 8) → Prop}

/-- What the codec knows of a source survives `processFrame`, which reports its frame. -/
theorem frames_processFrame {frame : List (BitVec 8)}
    (h : a.processFrame arrival frame = some (a', out)) :
    a'.codec = a.codec ∧ a'.loopback = a.loopback ∧ passedFrames out = [frame] := by
  rw [processFrame] at h
  split at h
  · simp only [Option.bind_eq_bind, Option.bind_eq_some_iff, Prod.exists, Option.pure_def,
      Option.some.injEq, Prod.mk.injEq] at h
    obtain ⟨ring, taken, -, rfl, rfl⟩ := h
    exact ⟨rfl, rfl, rfl⟩
  · simp only [Option.some.injEq, Prod.mk.injEq] at h
    obtain ⟨rfl, rfl⟩ := h
    exact ⟨rfl, rfl, rfl⟩

/-- A packet is received. -/
theorem frames_receivePacket (p : Reads ssrc i datagram Q)
    (h : a.receivePacket rand (buf.setBytes 0 datagram) datagram.length arrival = some (a', out)) :
    a'.codec.reception ssrc = some (receive (a.codec.reception ssrc) (seq16 i)).1 ∧
      a'.loopback = a.loopback ∧ ∃ f, passedFrames out = [f] ∧
        if (receive (a.codec.reception ssrc) (seq16 i)).2 then Q f else f = [] := by
  have hge := p.length_ge
  obtain ⟨hssrc, hseq⟩ := (mpaHeader rand).readBlock_fields rand (buf.setBytes 0 datagram) 0
    (BitVec.ofNat 32 (datagram.length / 4))
  have hframe := p.frame (mpaHeader rand) rand buf _ rfl
  rw [receivePacket, if_pos (by omega)] at h
  dsimp only at h
  rw [hssrc, hseq, Nat.zero_add, p.source, p.number] at h
  obtain ⟨hcodec, hloop, hframes⟩ := frames_processFrame h
  obtain ⟨hknown, hflag⟩ := trackSequence_spec a.codec ssrc (seq16 i)
  refine ⟨by rw [hcodec, ← hknown], hloop, _, hframes, ?_⟩
  rw [hflag]
  cases (receive (a.codec.reception ssrc) (seq16 i)).2 with
  | false => rfl
  | true => exact hframe

/-- The packets in the socket are received one after the other. -/
theorem frames_fillRing {number : Nat → Nat} {stream : Nat → List (BitVec 8)}
    {Q : Nat → List (BitVec 8) → Prop} (hstream : ∀ j ∈ js, Reads ssrc (number j) (stream j) (Q j))
    (harr : arrivals.map (·.datagram) = js.map stream)
    (h : a.fillRing rand buf arrivals = some (a', out)) :
    a'.codec.reception ssrc =
        (receiveAll (a.codec.reception ssrc) (js.map fun j => seq16 (number j))).1 ∧
      a'.loopback = a.loopback ∧ a'.socket = [] ∧
      PassesOn Q js (receiveAll (a.codec.reception ssrc) (js.map fun j => seq16 (number j))).2
        (passedFrames out) := by
  induction js generalizing a buf arrivals out with
  | nil =>
      obtain rfl : arrivals = [] := by simpa using harr
      obtain ⟨rfl, rfl⟩ := Prod.mk.inj (Option.some.inj h)
      exact ⟨rfl, rfl, rfl, .nil⟩
  | cons j js ih =>
      cases arrivals with
      | nil => simp at harr
      | cons arrival rest =>
          obtain ⟨hdatagram, hrest⟩ : arrival.datagram = stream j ∧
              rest.map (·.datagram) = js.map stream := by simpa using harr
          have hreads := hstream j (List.mem_cons_self ..)
          have hge := hreads.length_ge
          have htake : arrival.datagram.take 1500 = stream j := by
            rw [hdatagram, List.take_of_length_le hreads.length_le]
          rw [fillRing] at h
          simp only [htake] at h
          rw [if_neg (by omega)] at h
          simp only [Option.bind_eq_bind, Option.bind_eq_some_iff, Prod.exists, Option.pure_def,
            Option.some.injEq, Prod.mk.injEq] at h
          obtain ⟨a₁, out₁, hpacket, a₂, out₂, hfill, rfl, rfl⟩ := h
          obtain ⟨hknown, hloop, f, hframe, hf⟩ := frames_receivePacket hreads hpacket
          obtain ⟨hknown', hloop', hsocket, hpasses⟩ :=
            ih (fun j hj => hstream j (List.mem_cons_of_mem _ hj)) hrest hfill
          rw [hknown] at hknown' hpasses
          refine ⟨hknown', hloop'.trans hloop, hsocket, ?_⟩
          rw [passedFrames, List.filterMap_append, ← passedFrames, ← passedFrames, hframe]
          exact .cons hf hpasses

/-- The packets of a source in the socket are received one after the other. -/
theorem fillRing_spec {stream : ∀ i, Packet ssrc i}
    (harr : arrivals.map (·.datagram) = ns.map fun i => (stream i).datagram)
    (h : a.fillRing rand buf arrivals = some (a', out)) :
    a'.codec.reception ssrc = (receiveAll (a.codec.reception ssrc) (ns.map seq16)).1 ∧
      a'.loopback = a.loopback ∧ a'.socket = [] ∧
      passed out = (receiveAll (a.codec.reception ssrc) (ns.map seq16)).2 := by
  obtain ⟨hknown, hloop, hsocket, hpasses⟩ :=
    frames_fillRing (fun i _ => (stream i).reads) harr h
  exact ⟨hknown, hloop, hsocket, by rw [passed_eq]; exact hpasses.passed (by simp)⟩

/-- Playing changes nothing of what is known of a source. -/
theorem playOut_spec (ssrc : BitVec 32) {frameCount : BitVec 64}
    (h : a.playOut frameCount = some (a', out)) :
    a'.codec.reception ssrc = a.codec.reception ssrc ∧ a'.loopback = a.loopback ∧
      a'.socket = a.socket ∧ passedFrames out = [] := by
  rw [playOut] at h
  dsimp only at h
  generalize (if a.ring.readSpace < a.blockSize frameCount * a.bufferSetpoint.setWidth 64
    then (400 : Int) else -400) = value at h
  split at h
  · obtain ⟨rfl, rfl⟩ := Prod.mk.inj (Option.some.inj h)
    exact ⟨rfl, rfl, rfl, rfl⟩
  · split at h
    · simp only [Option.bind_eq_bind, Option.bind_eq_some_iff, Prod.exists, Option.pure_def,
        Option.some.injEq, Prod.mk.injEq] at h
      obtain ⟨ring, n, block, -, rfl, rfl⟩ := h
      exact ⟨rfl, rfl, rfl, rfl⟩
    · obtain ⟨rfl, rfl⟩ := Prod.mk.inj (Option.some.inj h)
      exact ⟨rfl, rfl, rfl, rfl⟩

/-- A call of the callback with an output. -/
abbrev HasOutput : AudioOutput → Callback → Prop := fun _ cb => cb.hasOutput = true

/-- A run of the callback that receives the packets `js` of a source: what it knows of the source
then, and what it has passed on of them. -/
theorem frames_of_runs {number : Nat → Nat} {stream : Nat → List (BitVec 8)}
    {Q : Nat → List (BitVec 8) → Prop} {cbs : List Callback} {tr : List AudioEvent}
    (hloop : a.loopback = false) (hsocket : a.socket = [])
    (hr : Runs audioOutputCallback HasOutput a cbs a' tr)
    (hstream : ∀ j ∈ js, Reads ssrc (number j) (stream j) (Q j))
    (harr : (arrivalsOf cbs).map (·.datagram) = js.map stream) :
    a'.codec.reception ssrc =
        (receiveAll (a.codec.reception ssrc) (js.map fun j => seq16 (number j))).1 ∧
      PassesOn Q js (receiveAll (a.codec.reception ssrc) (js.map fun j => seq16 (number j))).2
        (passedFrames tr) := by
  suffices h : a'.loopback = false ∧ a'.socket = [] ∧ a'.codec.reception ssrc =
        (receiveAll (a.codec.reception ssrc) (js.map fun j => seq16 (number j))).1 ∧
      PassesOn Q js (receiveAll (a.codec.reception ssrc) (js.map fun j => seq16 (number j))).2
        (passedFrames tr) from h.2.2
  induction hr generalizing js with
  | nil =>
      obtain rfl : js = [] := by simpa [arrivalsOf] using harr.symm
      exact ⟨hloop, hsocket, rfl, .nil⟩
  | @snoc cbs a₁ a₂ tr out cb hr hout hs ih =>
      rw [arrivalsOf, List.flatMap_append, List.map_append, List.flatMap_singleton] at harr
      obtain ⟨js₁, js₂, rfl, harr₁, harr₂⟩ := List.map_eq_append_iff.1 harr.symm
      obtain ⟨hstream₁, hstream₂⟩ := List.forall_mem_append.1 hstream
      obtain ⟨hloop₁, hsocket₁, hknown₁, hpasses₁⟩ := ih hstream₁ harr₁.symm
      obtain ⟨a₃, filled, played, hfill, hplay, rfl⟩ :=
        (audioOutputCallback_eq_some_iff hloop₁ hout).1 hs
      rw [hsocket₁, List.nil_append] at hfill
      obtain ⟨hknown₂, hloop₂, hsocket₂, hpasses₂⟩ := frames_fillRing hstream₂ harr₂.symm hfill
      obtain ⟨hknown₃, hloop₃, hsocket₃, hframes₃⟩ := playOut_spec ssrc hplay
      rw [hknown₁] at hpasses₂
      rw [List.map_append, receiveAll_append, ← hknown₁]
      refine ⟨hloop₃.trans (hloop₂.trans hloop₁), hsocket₃.trans hsocket₂,
        hknown₃.trans hknown₂, ?_⟩
      rw [passedFrames, List.filterMap_append, List.filterMap_append, ← passedFrames,
        ← passedFrames, ← passedFrames, hframes₃, List.append_nil, hknown₁]
      exact hpasses₁.append hpasses₂ (by simp)

/-- A run of the callback that receives the packets `ns` of a source: what it knows of the source
then, and which of them it has passed on. -/
theorem reception_of_runs {stream : ∀ i, Packet ssrc i} {cbs : List Callback}
    {tr : List AudioEvent} (hloop : a.loopback = false) (hsocket : a.socket = [])
    (hr : Runs audioOutputCallback HasOutput a cbs a' tr)
    (harr : (arrivalsOf cbs).map (·.datagram) = ns.map fun i => (stream i).datagram) :
    a'.codec.reception ssrc = (receiveAll (a.codec.reception ssrc) (ns.map seq16)).1 ∧
      passed tr = (receiveAll (a.codec.reception ssrc) (ns.map seq16)).2 := by
  obtain ⟨hknown, hpasses⟩ :=
    frames_of_runs hloop hsocket hr (fun i _ => (stream i).reads) harr
  exact ⟨hknown, by rw [passed_eq]; exact hpasses.passed (by simp)⟩

/-- A run of one call. -/
theorem exists_run (h : a.ring.WellFormed) (hloop : a.loopback = false) (arrivals : List Arrival) :
    ∃ a' tr, Runs audioOutputCallback HasOutput a [⟨arrivals, 0, true, fun _ => 0, 0⟩] a' tr := by
  obtain ⟨a', tr, hs, -⟩ := exists_audioOutputCallback h hloop
    (show Callback.hasOutput ⟨arrivals, 0, true, fun _ => 0, 0⟩ = true from rfl)
  exact ⟨a', tr, Runs.single rfl hs⟩

/-- A receiver with the counters of `c` and an empty ring buffer. -/
theorem exists_receiver (c : Codec) : ∃ a : AudioOutput, a.ring.WellFormed ∧ a.loopback = false ∧
    a.socket = [] ∧ a.codec = c := by
  obtain ⟨ring, -, hring, -⟩ := RingBuffer.new_spec (fun _ => 0) (show 1048576 ≤ 2 ^ 30 by decide)
  exact ⟨⟨c, ring, 1, 8, false, []⟩, hring, rfl, rfl, rfl⟩

/-- A run that receives packets of a source, from a codec with the counters of `c`. -/
theorem exists_receives (c : Codec) (stream : ∀ i, Packet ssrc i) (ns : List Nat) :
    ∃ a cbs a' tr, a.codec = c ∧ a.loopback = false ∧ a.socket = [] ∧
      Runs audioOutputCallback HasOutput a cbs a' tr ∧
      (arrivalsOf cbs).map (·.datagram) = ns.map fun i => (stream i).datagram := by
  obtain ⟨a, hring, hloop, hsocket, hcodec⟩ := exists_receiver c
  obtain ⟨a', tr, hr⟩ := exists_run hring hloop (ns.map fun i => ⟨(stream i).datagram, []⟩)
  refine ⟨a, _, a', tr, hcodec, hloop, hsocket, hr, ?_⟩
  simp [arrivalsOf]

/-! ## Lost packets in runs -/

/-- A receiver that follows another source so far, or has just been initialised and follows source
0. -/
structure Awaits (ssrc : BitVec 32) (a : AudioOutput) : Prop where
  source : a.codec.recvSsrc ≠ ssrc ∨ a.codec = a.codec.initReceiver
  live : a.loopback = false
  socket : a.socket = []

/-- What a receiver that awaits the source knows of it: nothing, or of source 0 that it has begun
with number 0. -/
def Begins (ssrc : BitVec 32) (r : Option Reception) : Prop := r = none ∨ ssrc = 0 ∧ r = some ⟨0, 0⟩

/-- What is known of a source that the codec follows only because it has been initialised. -/
theorem begins_reception {c : Codec} (h : c.recvSsrc ≠ ssrc ∨ c = c.initReceiver) :
    Begins ssrc (c.reception ssrc) := by
  by_cases hssrc : c.recvSsrc = ssrc
  · right
    have hinit := h.resolve_left (not_not.2 hssrc)
    have hzero : ssrc = 0 := hssrc.symm.trans (congrArg Codec.recvSsrc hinit)
    refine ⟨hzero, ?_⟩
    rw [hinit, hzero]
    rfl
  · exact .inl (if_neg hssrc)

/-- There are such codecs. -/
theorem exists_reception {r₀ : Option Reception} (h : Begins ssrc r₀) :
    ∃ c : Codec, (c.recvSsrc ≠ ssrc ∨ c = c.initReceiver) ∧ c.reception ssrc = r₀ := by
  rcases h with rfl | ⟨rfl, rfl⟩
  · have hne : ssrc + 1 ≠ ssrc := by
      intro heq
      have := congrArg BitVec.toNat heq
      rw [BitVec.toNat_add, show (1 : BitVec 32).toNat = 1 from rfl] at this
      omega
    exact ⟨{ recvSsrc := ssrc + 1 }, .inl hne, if_neg hne⟩
  · exact ⟨{}, .inr rfl, rfl⟩

/-- Every run that receives the packets `ns`, from packet `n` to packet `i`, counts as lost the
packets that are missing; and if none is, it passes each packet on once. -/
def CountsLosses (stream : ∀ i, Packet ssrc i) (n : Nat) (ns : List Nat) (i : Nat) : Prop :=
  ∀ a cbs a' tr, Awaits ssrc a → Runs audioOutputCallback HasOutput a cbs a' tr →
    (arrivalsOf cbs).map (·.datagram) = ns.map (fun i => (stream i).datagram) →
      a'.codec.recvTotalPacketsLost.toNat = (missing n ns i).card ∧
        (missing n ns i = ∅ → passedOn ns (passed tr) = List.range' n (i + 1 - n))

/-- The same, from what the receiver knows in the beginning. -/
def CountsFrom (r₀ : Option Reception) (n : Nat) (ns : List Nat) (i : Nat) : Prop :=
  ∀ r, (receiveAll r₀ (ns.map seq16)).1 = some r → r.lost.toNat = (missing n ns i).card ∧
    (missing n ns i = ∅ → passedOn ns (receiveAll r₀ (ns.map seq16)).2 = List.range' n (i + 1 - n))

variable {stream : ∀ i, Packet ssrc i} {n : Nat} {r : Reception}

/-- What a receiver that awaits the source counts in the end. -/
theorem countsLosses_iff_countsFrom (hne : ns ≠ []) : CountsLosses stream n ns i ↔
    ∀ r₀, Begins ssrc r₀ → CountsFrom r₀ n ns i := by
  -- what a run that receives the packets counts
  have hlost {c c' : Codec} {r₀ : Option Reception} (h : c.reception ssrc = r₀)
      (hknown : c'.reception ssrc = (receiveAll (c.reception ssrc) (ns.map seq16)).1) :
      (receiveAll r₀ (ns.map seq16)).1 =
        some ⟨c'.recvSequenceLoNumber, c'.recvTotalPacketsLost⟩ := by
    rw [h] at hknown
    obtain ⟨r, hr⟩ : ∃ r, (receiveAll r₀ (ns.map seq16)).1 = some r :=
      exists_receiveAll (by simpa using hne)
    rw [hr, Codec.reception] at hknown
    split at hknown
    · rw [hr, hknown]
    · cases hknown
  constructor
  · intro hcounts r₀ hr₀ r hr
    obtain ⟨c, hc, hbegins⟩ := exists_reception hr₀
    obtain ⟨a, cbs, a', tr, rfl, hloop, hsocket, hrun, harr⟩ := exists_receives c stream ns
    obtain ⟨hknown, hpassed⟩ := reception_of_runs hloop hsocket hrun harr
    have hcount := hcounts a cbs a' tr ⟨hc, hloop, hsocket⟩ hrun harr
    obtain rfl := Option.some.inj (hr.symm.trans (hlost hbegins hknown))
    rwa [hpassed, hbegins] at hcount
  · intro hcounts a cbs a' tr hawaits hrun harr
    obtain ⟨hknown, hpassed⟩ := reception_of_runs hawaits.live hawaits.socket hrun harr
    rw [hpassed]
    exact hcounts _ (begins_reception hawaits.source) _ (hlost rfl hknown)

/-- Counted packets are counted right, if nothing is known of the source before. -/
theorem countsFrom_none_of_counted (h : Arriving n ns i) (hc : ns.IsChain Counted)
    (hlt : (missing n ns i).card < 2 ^ 32) : CountsFrom none n ns i := by
  obtain ⟨hknown, honce⟩ := h.receiveAll_counted hc
  intro r hr
  obtain rfl := Option.some.inj (hknown.symm.trans hr)
  exact ⟨by rw [BitVec.toNat_ofNat, Nat.mod_eq_of_lt hlt], honce⟩

/-- If nothing is known of the source before, the packets are counted right up to each of them
exactly if each is `Counted`. -/
theorem countsFrom_none_iff (h : Arriving n ns i) :
    (∀ ns' i', ns' <+: ns → Arriving n ns' i' → CountsFrom none n ns' i') ↔
      ns.IsChain Counted ∧ (missing n ns i).card < 2 ^ 32 := by
  -- a prefix of the packets is shorter, or all of them
  have hlast : ∀ {ns i i'}, Arriving n ns i → Arriving n ns i' → i = i' := fun h h' =>
    Option.some.inj (h.getLast?.symm.trans h'.getLast?)
  induction h with
  | first =>
      have hcard : (missing n [n] n).card = 0 := by simp [missing]
      refine ⟨fun _ => ⟨List.isChain_singleton n, by rw [hcard]; decide⟩, ?_⟩
      rintro ⟨hc, hlt⟩ ns' i' hpre h'
      rcases List.prefix_concat_iff.1 (show ns' <+: [] ++ [n] from hpre) with rfl | hnil
      · obtain rfl := hlast h' .first
        exact countsFrom_none_of_counted h' hc hlt
      · rw [List.prefix_nil.1 hnil] at h'
        cases h'.mem.1
  | @next ns i j h hle hgap ih =>
      have h₁ : Arriving n (ns ++ [j]) j := .next h hle hgap
      have hcard := h.card_missing_snoc hle
      rw [h.isChain_snoc, and_assoc]
      constructor
      · intro hall
        obtain ⟨hc, hlt⟩ := ih.1 fun ns' i' hpre =>
          hall ns' i' (hpre.trans (List.prefix_append ns [j]))
        obtain ⟨hknown, -⟩ := h.receiveAll_counted hc
        have hknown₁ : (receiveAll none ((ns ++ [j]).map seq16)).1 =
            some (receive (some ⟨seq16 i, BitVec.ofNat 32 (missing n ns i).card⟩) (seq16 j)).1 := by
          rw [List.map_append, List.map_singleton, receiveAll_snoc, hknown]
        have hcounts := (hall _ j (List.prefix_refl _) h₁ _ hknown₁).1
        rw [hcard] at hcounts ⊢
        exact ⟨hc, (lost_receive_iff hle hgap hlt).1 hcounts⟩
      · rintro ⟨hc, hij, hlt⟩ ns' i' hpre h'
        rcases List.prefix_concat_iff.1 hpre with rfl | hpre
        · obtain rfl := hlast h' h₁
          exact countsFrom_none_of_counted h' (h.isChain_snoc.2 ⟨hc, hij⟩) hlt
        · exact ih.2 ⟨hc, by omega⟩ ns' i' hpre h'

/-- Of source 0 only packet 1 is counted right and passed on, if it is the first. -/
theorem countsFrom_begin (h : CountsFrom (some ⟨0, 0⟩) n [n] n) : n % 2 ^ 16 = 1 := by
  have hcard : missing n [n] n = ∅ := by simp [missing]
  obtain ⟨hlost, honce⟩ := h (receive (some ⟨0, 0⟩) (seq16 n)).1 rfl
  replace honce := honce hcard
  rw [hcard, Finset.card_empty] at hlost
  rw [Nat.add_sub_cancel_left] at honce
  by_contra hne
  have hone : (seq16 n).toNat ≠ (0 : BitVec 16).toNat + 1 := by
    rw [BitVec.toNat_ofNat]
    exact hne
  by_cases hzero : seq16 n = 0
  · -- the number that the receiver has already
    rw [List.map_singleton, receiveAll, hzero] at honce
    cases honce
  · have hgt : seq16 n > 0 := (BitVec.pos_iff_ne_zero _).2 hzero
    have hlate : (receive (some ⟨0, 0⟩) (seq16 n)).1.lost = 1 := by
      rw [receive.eq_def]
      simp only [hone, hzero, hgt, if_false, true_or, if_true]
      rfl
    rw [hlate] at hlost
    cases hlost

/-- **Lost packets are counted right up to every packet if and only if every packet that arrives is
the one before again, the next one but not across the end of the numbers, or the one after the
next** (and the counter does not overflow), and the first one of source 0 has number 1. -/
theorem countsLosses_iff (stream : ∀ i, Packet ssrc i) (h : Arriving n ns i) :
    (∀ ns' i', ns' <+: ns → Arriving n ns' i' → CountsLosses stream n ns' i') ↔
      ns.IsChain Counted ∧ (missing n ns i).card < 2 ^ 32 ∧ (ssrc = 0 → n % 2 ^ 16 = 1) := by
  have hne {ns' : List Nat} {i' : Nat} (h' : Arriving n ns' i') : ns' ≠ [] :=
    List.ne_nil_of_mem h'.mem.1
  rw [← and_assoc, ← countsFrom_none_iff h]
  constructor
  · intro hall
    refine ⟨fun ns' i' hpre h' => ?_, fun hzero => ?_⟩
    · exact (countsLosses_iff_countsFrom (hne h')).1 (hall ns' i' hpre h') none (.inl rfl)
    · have hfirst : [n] <+: ns := by
        obtain ⟨rest, rfl⟩ := h.exists_cons
        exact List.prefix_append [n] rest
      exact countsFrom_begin ((countsLosses_iff_countsFrom (hne .first)).1
        (hall [n] n hfirst .first) _ (.inr ⟨hzero, rfl⟩))
  · rintro ⟨hcounts, hzero⟩ ns' i' hpre h'
    refine (countsLosses_iff_countsFrom (hne h')).2 fun r₀ hr₀ => ?_
    rcases hr₀ with rfl | ⟨hssrc, rfl⟩
    · exact hcounts ns' i' hpre h'
    · have hone : (seq16 n).toNat = 1 := by
        rw [BitVec.toNat_ofNat]
        exact hzero hssrc
      have hsame : receiveAll (some ⟨0, 0⟩) (ns'.map seq16) = receiveAll none (ns'.map seq16) := by
        obtain ⟨rest, rfl⟩ := h'.exists_cons
        exact receiveAll_begin hone
      rw [CountsFrom, hsame]
      exact hcounts ns' i' hpre h'

/-- Four packets from packet 5 on, the first twice in a row, one missing. -/
theorem countsLosses_iff_demo : CountsLosses (Packet.plain 1) 5 [5, 5, 6, 8] 8 := by
  have h₁ : Arriving 5 [5, 5] 5 := Arriving.first.next (Nat.le_refl 5) (by decide)
  have h₂ : Arriving 5 [5, 5, 6] 6 := h₁.next (by decide) (by decide)
  have h : Arriving 5 [5, 5, 6, 8] 8 := h₂.next (by decide) (by decide)
  exact (countsLosses_iff (Packet.plain 1) h).2
    ⟨by decide, by decide, fun hzero => absurd hzero (by decide)⟩ _ _ (List.prefix_refl _) h

/-- Of a gap of two packets, one is counted. -/
theorem countsLosses_fails : ¬ ∀ (ssrc : BitVec 32) (stream : ∀ i, Packet ssrc i) (n : Nat)
    (ns : List Nat) (i : Nat), Arriving n ns i → CountsLosses stream n ns i := by
  intro hall
  have h : Arriving 0 [0, 3] 3 := Arriving.first.next (Nat.zero_le 3) (by decide)
  have hknown : (receiveAll none ([0, 3].map seq16)).1 = some ⟨seq16 3, 1⟩ := by decide
  obtain ⟨hlost, -⟩ := (countsLosses_iff_countsFrom (List.cons_ne_nil _ _)).1
    (hall 1 (Packet.plain 1) 0 [0, 3] 3 h) none (.inl rfl) _ hknown
  exact absurd hlost (by decide)

/-! ## Recovery after a burst of losses -/

/-- In every run that receives `count` packets from the one behind a burst of `k` losses on, all but
the first are passed on, if packet `lo` was the last one before it. -/
def Recovers (stream : ∀ i, Packet ssrc i) (lo k count : Nat) : Prop :=
  ∀ a cbs a' tr, a.codec.recvSsrc = ssrc → a.codec.recvSequenceLoNumber = seq16 lo →
    a.loopback = false → a.socket = [] → Runs audioOutputCallback HasOutput a cbs a' tr →
    (arrivalsOf cbs).map (·.datagram) =
        (List.range' (lo + k + 1) count).map (fun i => (stream i).datagram) →
      ∀ t, 1 ≤ t → t < count → (passed tr)[t]? = some true

/-- A burst is recovered from if the counter passes all packets behind it. -/
theorem recovers_iff_receiveAll {lo k count : Nat} : Recovers stream lo k count ↔
    ∀ l t, 1 ≤ t → t < count → (receiveAll (some ⟨seq16 lo, l⟩)
      ((List.range' (lo + k + 1) count).map seq16)).2[t]? = some true := by
  constructor
  · intro hrec l
    obtain ⟨a, cbs, a', tr, hcodec, hloop, hsocket, hrun, harr⟩ := exists_receives
      { recvSsrc := ssrc, recvSequenceLoNumber := seq16 lo, recvTotalPacketsLost := l } stream
      (List.range' (lo + k + 1) count)
    obtain ⟨-, hpassed⟩ := reception_of_runs hloop hsocket hrun harr
    have hknown : a.codec.reception ssrc = some ⟨seq16 lo, l⟩ := by
      rw [hcodec]
      exact if_pos rfl
    rw [← hknown, ← hpassed]
    exact hrec a cbs a' tr (by rw [hcodec]) (by rw [hcodec]) hloop hsocket hrun harr
  · intro hall a cbs a' tr hssrc hlo hloop hsocket hrun harr
    obtain ⟨-, hpassed⟩ := reception_of_runs hloop hsocket hrun harr
    have hknown : a.codec.reception ssrc = some ⟨seq16 lo, a.codec.recvTotalPacketsLost⟩ := by
      rw [← hlo]
      exact if_pos hssrc
    rw [hpassed, hknown]
    exact hall _

/-- **After a burst of losses all packets but the first are passed on if and only if the burst does
not run across the end of the numbers, or the receiver recognises that it does, and the packets
behind it do not.** -/
theorem recovers_iff (stream : ∀ i, Packet ssrc i) {lo k : Nat} (hlo : lo < 2 ^ 16) (hk : 1 ≤ k)
    (hk' : k < 2 ^ 15) (count : Nat) : Recovers stream lo k count ↔
      count ≤ 1 ∨ (lo + k + 1 < 2 ^ 16 ∨ 0xff00 < lo ∧ k < 255) ∧
        (lo + k + 1) % 2 ^ 16 + count ≤ 2 ^ 16 := by
  have hfollows : Follows lo (lo + k + 1) ↔ lo + k + 1 < 2 ^ 16 ∨ 0xff00 < lo ∧ k < 255 := by
    rw [Follows]
    omega
  rw [recovers_iff_receiveAll, ← hfollows]
  rcases Nat.lt_or_ge 1 count with hcount | hcount
  · obtain ⟨m, rfl⟩ : ∃ m, count = m + 2 := ⟨count - 2, by omega⟩
    -- the first packet behind the burst is not passed on
    have hfirst : ∀ l, (receiveAll (some ⟨seq16 lo, l⟩)
        ((List.range' (lo + k + 1) (m + 2)).map seq16)).2 =
          false :: (receiveAll (some
            ⟨if Follows lo (lo + k + 1) then seq16 (lo + k + 1) else seq16 lo, l + 1⟩)
            ((List.range' (lo + k + 1 + 1) (m + 1)).map seq16)).2 := by
      intro l
      rw [List.range'_succ, List.map_cons, receiveAll, receive_gap (by omega) (by omega) (by omega)]
    constructor
    · intro hall
      refine .inr ⟨?_, ?_⟩
      · by_contra hlost
        have hsecond := hall 0 1 (Nat.le_refl 1) (by omega)
        rw [hfirst, if_neg hlost, List.range'_succ, List.map_cons, receiveAll,
          List.getElem?_cons_succ, List.getElem?_cons_zero] at hsecond
        have hnext := toNat_eq_of_passed (Option.some.inj hsecond)
        rw [BitVec.toNat_ofNat, BitVec.toNat_ofNat] at hnext
        omega
      · by_contra hwrap
        obtain ⟨t, ht⟩ : ∃ t, t = 2 ^ 16 - (lo + k + 1) % 2 ^ 16 := ⟨_, rfl⟩
        have hzero : seq16 (lo + k + 1 + t) = 0 := by
          refine BitVec.eq_of_toNat_eq ?_
          rw [BitVec.toNat_ofNat, show (0 : BitVec 16).toNat = 0 from rfl]
          omega
        have hsplit : (List.range' (lo + k + 1) (m + 2)).map seq16 =
            (List.range' (lo + k + 1) t).map seq16 ++
              0 :: (List.range' (lo + k + 1 + t + 1) (m + 1 - t)).map seq16 := by
          rw [← hzero, ← List.map_cons, ← List.map_append, ← List.range'_succ,
            List.range'_append_1, show t + (m + 1 - t + 1) = m + 2 by omega]
        have hpassed := hall 0 t (by omega) (by omega)
        rw [hsplit, passed_zero (by simp)] at hpassed
        cases hpassed
    · rintro (hle | ⟨hknown, hend⟩) l t ht ht'
      · omega
      · obtain ⟨t, rfl⟩ : ∃ t', t = t' + 1 := ⟨t - 1, by omega⟩
        rw [hfirst, if_pos hknown, receiveAll_range' (by omega), List.getElem?_cons_succ,
          List.getElem?_replicate, if_pos (by omega)]
  · refine ⟨fun _ => .inl hcount, fun _ l t ht ht' => ?_⟩
    omega

/-- Three packets are lost across the end of the numbers, and the receiver goes on. -/
theorem recovers_iff_demo : Recovers (Packet.plain 1) 65534 3 10 :=
  (recovers_iff (Packet.plain 1) (by decide) (by decide) (by decide) 10).2
    (.inr ⟨.inr ⟨by decide, by decide⟩, by decide⟩)

/-- When 300 packets are lost across the end of the numbers, it does not. -/
theorem recovers_fails : ¬ ∀ (ssrc : BitVec 32) (stream : ∀ i, Packet ssrc i) (lo k count : Nat),
    lo < 2 ^ 16 → 1 ≤ k → k < 2 ^ 15 → Recovers stream lo k count := by
  intro hall
  have hrec := recovers_iff_receiveAll.1 (hall 1 (Packet.plain 1) 65400 300 2 (by decide)
    (by decide) (by decide)) 0 1 (by decide) (by decide)
  exact absurd hrec (by decide)

end AudioOutput

end NetISDN

import NetISDN.Lib.ReceiverStatistics
import NetISDN.Lib.Reception

/-!
# The order of the packets decoded

The extended number of the receiver only grows, and grows by one with each packet that is decoded.
But a number above the last one counts as ahead of it whatever the packet: a late packet from before
a rollover takes the receiver back, and what it then decodes, it may have decoded already. As long
as no late packet looks as if it were ahead (`InStep`), packets are decoded in their order and none
is decoded twice (`decodesInOrder_of_inStep`).
-/

namespace NetISDN

open TransitionSystem
open Reception (seq16 Follows)

/-- A packet of a source: the how manieth it is, and what it carries. -/
structure AudioPacket where
  index : Nat
  payload : List (BitVec 8)

namespace Codec

variable {c c' : Codec} {ssrc : BitVec 32} {p : AudioPacket} {ps pre post : List AudioPacket}
  {e j : Nat} {o : Option Nat}

/-! ## Arrivals -/

/-- The extended sequence number. -/
def extendedNumber (c : Codec) : Nat :=
  c.recvSequenceHiNumber.toNat * 65536 + c.recvSequenceLoNumber.toNat

/-- The codec after a packet. -/
def afterPacket (c : Codec) (ssrc : BitVec 32) (p : AudioPacket) : Codec :=
  (c.trackSequence ssrc (seq16 p.index)).1

/-- The codec after the packets. -/
def afterPackets (c : Codec) (ssrc : BitVec 32) (ps : List AudioPacket) : Codec :=
  ps.foldl (fun c p => c.afterPacket ssrc p) c

/-- The packet is passed to `DecodeFrame` (`codec.cpp:224`). -/
def Decodes (c : Codec) (ssrc : BitVec 32) (p : AudioPacket) : Prop :=
  (c.trackSequence ssrc (seq16 p.index)).2 = true ∧ 0 < p.payload.length

instance : Decidable (c.Decodes ssrc p) := by
  unfold Decodes
  infer_instance

/-- The packets that are passed to `DecodeFrame`. -/
def decoded (c : Codec) (ssrc : BitVec 32) : List AudioPacket → List Nat
  | [] => []
  | p :: ps =>
      (if c.Decodes ssrc p then [p.index] else []) ++ (c.afterPacket ssrc p).decoded ssrc ps

/-- The packet is taken for the first one after a rollover (`codec.cpp:197`). -/
def RollsOver (c : Codec) (ssrc : BitVec 32) (p : AudioPacket) : Prop :=
  ssrc = c.recvSsrc ∧ 0xff00 < c.recvSequenceLoNumber.toNat ∧
    (seq16 p.index).toNat < c.recvSequenceLoNumber.toNat - 0xff00

instance : Decidable (c.RollsOver ssrc p) := by
  unfold RollsOver
  infer_instance

/-- The rollovers that are counted. -/
def rollovers (c : Codec) (ssrc : BitVec 32) : List AudioPacket → Nat
  | [] => 0
  | p :: ps => (if c.RollsOver ssrc p then 1 else 0) + (c.afterPacket ssrc p).rollovers ssrc ps

/-- From the second packet on, or from the first one if the receiver follows the source already, the
extended number never decreases, and a packet that is decoded has the next one, to which it is
raised; and the packets are decoded in their order, each of them once. -/
structure DecodesInOrder (c : Codec) (ssrc : BitVec 32) (ps : List AudioPacket) : Prop where
  monotone : EachAfter (fun pre p => pre ≠ [] ∨ c.recvSsrc = ssrc →
    (c.afterPackets ssrc pre).extendedNumber ≤ (c.afterPackets ssrc (pre ++ [p])).extendedNumber) ps
  next : EachAfter (fun pre p => pre ≠ [] ∨ c.recvSsrc = ssrc →
    (c.afterPackets ssrc pre).Decodes ssrc p →
      seq16 p.index = BitVec.ofNat 16 ((c.afterPackets ssrc pre).extendedNumber + 1) ∧
      (c.afterPackets ssrc (pre ++ [p])).extendedNumber =
        (c.afterPackets ssrc pre).extendedNumber + 1) ps
  once : (c.decoded ssrc ps).Pairwise (· < ·)

/-- The last packet comes last. -/
theorem afterPackets_concat : c.afterPackets ssrc (pre ++ [p]) =
    (c.afterPackets ssrc pre).afterPacket ssrc p := by
  rw [afterPackets, List.foldl_append]
  rfl

/-- After a packet the receiver follows its source. -/
theorem recvSsrc_afterPacket : (c.afterPacket ssrc p).recvSsrc = ssrc := by
  rcases eq_or_ne ssrc c.recvSsrc with rfl | hnew
  · have htracked := c.trackSequence_tracked (seq16 p.index)
    rw [afterPacket]
    generalize c.trackSequence c.recvSsrc (seq16 p.index) = r at *
    cases htracked <;> rfl
  · rw [afterPacket, trackSequence_other hnew]
    rfl

/-- The receiver follows the source whose packets it takes. -/
theorem recvSsrc_afterPackets (h : pre ≠ [] ∨ c.recvSsrc = ssrc) :
    (c.afterPackets ssrc pre).recvSsrc = ssrc := by
  rcases List.eq_nil_or_concat' pre with rfl | ⟨init, last, rfl⟩
  · exact h.resolve_left (not_not.2 rfl)
  · rw [afterPackets_concat]
    exact recvSsrc_afterPacket

/-! ## The extended number -/

/-- Each rollover is counted, as long as the count has room. -/
theorem hi_afterPacket (hfew : c.recvSequenceHiNumber.toNat +
      (if c.RollsOver ssrc p then 1 else 0) < 2 ^ 16) :
    (c.afterPacket ssrc p).recvSequenceHiNumber.toNat =
      c.recvSequenceHiNumber.toNat + if c.RollsOver ssrc p then 1 else 0 := by
  rcases eq_or_ne ssrc c.recvSsrc with rfl | hnew
  · have htracked := c.trackSequence_tracked (seq16 p.index)
    have hrolls : c.RollsOver c.recvSsrc p ↔ 0xff00 < c.recvSequenceLoNumber.toNat ∧
        (seq16 p.index).toNat < c.recvSequenceLoNumber.toNat - 0xff00 := and_iff_right rfl
    simp only [hrolls] at hfew ⊢
    rw [afterPacket]
    generalize c.trackSequence c.recvSsrc (seq16 p.index) = r at *
    cases htracked with
    | next hnext =>
        rw [if_neg (by omega)]
        rfl
    | again hagain =>
        rw [if_neg (by rw [hagain]; omega)]
        rfl
    | ahead hahead =>
        rw [if_neg (by omega)]
        rfl
    | rollover hhigh hlow =>
        rw [if_pos ⟨hhigh, hlow⟩] at hfew ⊢
        show (c.recvSequenceHiNumber + 1).toNat = _
        rw [BitVec.toNat_add]
        exact Nat.mod_eq_of_lt hfew
    | late hlate hroll =>
        rw [if_neg hroll]
        rfl
  · have hrolls : ¬ c.RollsOver ssrc p := fun h => hnew h.1
    rw [afterPacket, trackSequence_other hnew, if_neg hrolls]
    rfl

/-- The extended number does not decrease. -/
theorem extendedNumber_le (hssrc : c.recvSsrc = ssrc) (hfew : c.recvSequenceHiNumber.toNat +
      (if c.RollsOver ssrc p then 1 else 0) < 2 ^ 16) :
    c.extendedNumber ≤ (c.afterPacket ssrc p).extendedNumber := by
  subst hssrc
  have hhi := hi_afterPacket hfew
  have htracked := c.trackSequence_tracked (seq16 p.index)
  have hlo := c.recvSequenceLoNumber.isLt
  have hrolls : c.RollsOver c.recvSsrc p ↔ 0xff00 < c.recvSequenceLoNumber.toNat ∧
      (seq16 p.index).toNat < c.recvSequenceLoNumber.toNat - 0xff00 := and_iff_right rfl
  simp only [hrolls] at hhi
  rw [extendedNumber, extendedNumber, hhi]
  rw [afterPacket]
  generalize c.trackSequence c.recvSsrc (seq16 p.index) = r at *
  cases htracked with
  | next hnext =>
      rw [if_neg (by omega)]
      show _ ≤ _ + (seq16 p.index).toNat
      omega
  | again hagain =>
      rw [if_neg (by rw [hagain]; omega)]
      exact Nat.le_refl _
  | ahead hahead =>
      rw [if_neg (by omega)]
      show _ ≤ _ + (seq16 p.index).toNat
      omega
  | rollover hhigh hlow =>
      rw [if_pos ⟨hhigh, hlow⟩]
      omega
  | late hlate hroll =>
      rw [if_neg hroll]
      exact Nat.le_refl _

/-- A packet that is decoded has the next number, and the extended number is raised to it. -/
theorem extendedNumber_succ (hssrc : c.recvSsrc = ssrc) (hdecodes : c.Decodes ssrc p) :
    (seq16 p.index).toNat = c.recvSequenceLoNumber.toNat + 1 ∧
      (c.afterPacket ssrc p).extendedNumber = c.extendedNumber + 1 := by
  subst hssrc
  have htracked := c.trackSequence_tracked (seq16 p.index)
  have hpassed := hdecodes.1
  rw [afterPacket]
  generalize c.trackSequence c.recvSsrc (seq16 p.index) = r at *
  cases htracked with
  | next hnext =>
      refine ⟨hnext, ?_⟩
      show c.recvSequenceHiNumber.toNat * 65536 + (seq16 p.index).toNat = _
      rw [hnext, extendedNumber, Nat.add_assoc]
  | again | ahead | rollover | late => cases hpassed

/-- The rollovers of two lists of packets, one behind the other. -/
theorem rollovers_append : c.rollovers ssrc (pre ++ post) =
    c.rollovers ssrc pre + (c.afterPackets ssrc pre).rollovers ssrc post := by
  induction pre generalizing c with
  | nil => exact (Nat.zero_add _).symm
  | cons p pre ih =>
      rw [List.cons_append, rollovers, rollovers, ih, Nat.add_assoc]
      rfl

/-- The upper half of the extended number is the count of the rollovers. -/
theorem hi_afterPackets
    (hfew : c.recvSequenceHiNumber.toNat + c.rollovers ssrc pre < 2 ^ 16) :
    (c.afterPackets ssrc pre).recvSequenceHiNumber.toNat =
      c.recvSequenceHiNumber.toNat + c.rollovers ssrc pre := by
  induction pre generalizing c with
  | nil => rfl
  | cons p pre ih =>
      rw [rollovers] at hfew ⊢
      have hhi := @hi_afterPacket c ssrc p (by omega)
      have hrest := ih (c := c.afterPacket ssrc p) (by rw [hhi]; omega)
      exact hrest.trans (by rw [hhi]; omega)

/-- A packet among others finds room in the count of the rollovers. -/
theorem hi_before (hfew : c.recvSequenceHiNumber.toNat + c.rollovers ssrc ps < 2 ^ 16)
    (hps : ps = pre ++ p :: post) :
    (c.afterPackets ssrc pre).recvSequenceHiNumber.toNat +
      (if (c.afterPackets ssrc pre).RollsOver ssrc p then 1 else 0) < 2 ^ 16 := by
  rw [hps, rollovers_append, rollovers] at hfew
  rw [hi_afterPackets (by omega)]
  omega

/-- Whatever arrives, the extended number does not decrease. -/
theorem eachAfter_monotone (hfew : c.recvSequenceHiNumber.toNat + c.rollovers ssrc ps < 2 ^ 16) :
    EachAfter (fun pre p => pre ≠ [] ∨ c.recvSsrc = ssrc → (c.afterPackets ssrc pre).extendedNumber
      ≤ (c.afterPackets ssrc (pre ++ [p])).extendedNumber) ps := by
  intro pre p post hps hfollows
  rw [afterPackets_concat]
  exact extendedNumber_le (recvSsrc_afterPackets hfollows) (hi_before hfew hps)

/-- Whatever arrives, a packet that is decoded has the next extended number. -/
theorem eachAfter_next : EachAfter (fun pre p => pre ≠ [] ∨ c.recvSsrc = ssrc →
    (c.afterPackets ssrc pre).Decodes ssrc p →
      seq16 p.index = BitVec.ofNat 16 ((c.afterPackets ssrc pre).extendedNumber + 1) ∧
      (c.afterPackets ssrc (pre ++ [p])).extendedNumber =
        (c.afterPackets ssrc pre).extendedNumber + 1) ps := by
  intro pre p post _ hfollows hdecodes
  obtain ⟨hnumber, hraised⟩ := extendedNumber_succ (recvSsrc_afterPackets hfollows) hdecodes
  rw [afterPackets_concat]
  refine ⟨BitVec.eq_of_toNat_eq ?_, hraised⟩
  have hlt := (seq16 p.index).isLt
  rw [hnumber, extendedNumber, BitVec.toNat_ofNat]
  omega

/-! ## The packets themselves -/

/-- The packet that the receiver has last moved on to, once packet `j` has arrived. -/
def moveOn (o : Option Nat) (j : Nat) : Nat :=
  match o with
  | none => j
  | some e => if e < j ∧ Follows e j then j else e

/-- The same for packets one after the other. -/
def positionAfter (o : Option Nat) (ps : List AudioPacket) : Option Nat :=
  ps.foldl (fun o p => some (moveOn o p.index)) o

/-- The receiver knows where it is: packet `j` is less than 2^16 packets ahead of the one that it
has last moved on to, or else its number does not look as if it were ahead. -/
def InStep (o : Option Nat) (j : Nat) : Prop :=
  ∀ e, o = some e → j < e + 2 ^ 16 ∧ (j ≤ e → ¬ Follows e j)

/-- The receiver follows the source, and has last moved on to packet `e` of it; or it follows
another one. -/
def KnownAt (c : Codec) (ssrc : BitVec 32) : Option Nat → Prop
  | none => ssrc ≠ c.recvSsrc
  | some e => ssrc = c.recvSsrc ∧ c.recvSequenceLoNumber = seq16 e

/-- A packet in step moves the receiver on if it is seen to be ahead. -/
theorem KnownAt.afterPacket (h : c.KnownAt ssrc o) (hstep : InStep o p.index) :
    (c.afterPacket ssrc p).KnownAt ssrc (some (moveOn o p.index)) := by
  refine ⟨recvSsrc_afterPacket.symm, ?_⟩
  cases o with
  | none =>
      rw [Codec.afterPacket, trackSequence_other h]
      rfl
  | some e =>
      obtain ⟨rfl, hlo⟩ := h
      obtain ⟨hahead, hbehind⟩ := hstep e rfl
      have htracked := c.trackSequence_tracked (seq16 p.index)
      have hnumber : (seq16 p.index).toNat = p.index % 2 ^ 16 := BitVec.toNat_ofNat _ _
      have hlast : c.recvSequenceLoNumber.toNat = e % 2 ^ 16 := by rw [hlo, BitVec.toNat_ofNat]
      rw [Codec.afterPacket]
      show _ = seq16 (if e < p.index ∧ Follows e p.index then p.index else e)
      have hfollows : Follows e p.index ↔ e % 2 ^ 16 < p.index % 2 ^ 16 ∨
        0xff00 < e % 2 ^ 16 ∧ p.index % 2 ^ 16 < e % 2 ^ 16 - 0xff00 := Iff.rfl
      rw [hfollows] at hbehind
      generalize c.trackSequence c.recvSsrc (seq16 p.index) = r at *
      cases htracked with
      | next hnext => rw [if_pos ⟨by omega, hfollows.2 (by omega)⟩]
      | again hagain =>
          rw [hagain] at hnumber
          rw [if_neg fun hmoves => absurd (hfollows.1 hmoves.2) (by omega)]
          exact hlo
      | ahead hahead => rw [if_pos ⟨by omega, hfollows.2 (by omega)⟩]
      | rollover hhigh hlow => rw [if_pos ⟨by omega, hfollows.2 (by omega)⟩]
      | late hlate hroll =>
          rw [if_neg fun hmoves => absurd (hfollows.1 hmoves.2) (by omega)]
          exact hlo

/-- A packet in step that is decoded is the one after the last, if there is one; and the receiver
moves on to it. -/
theorem KnownAt.decodes (h : c.KnownAt ssrc o) (hstep : InStep o p.index)
    (hdecodes : c.Decodes ssrc p) :
    (∀ e, o = some e → p.index = e + 1) ∧ moveOn o p.index = p.index := by
  cases o with
  | none => exact ⟨fun e he => absurd he nofun, rfl⟩
  | some e =>
      obtain ⟨rfl, hlo⟩ := h
      obtain ⟨hahead, hbehind⟩ := hstep e rfl
      have hnext := (extendedNumber_succ rfl hdecodes).1
      rw [hlo, BitVec.toNat_ofNat, BitVec.toNat_ofNat] at hnext
      have hfollows : Follows e p.index := .inl (by omega)
      have hlt : e < p.index := Nat.not_le.1 fun hle => hbehind hle hfollows
      refine ⟨fun e' he => ?_, if_pos ⟨hlt, hfollows⟩⟩
      obtain rfl := Option.some.inj he
      omega

/-- The receiver does not move back. -/
theorem le_moveOn (e j : Nat) : e ≤ moveOn (some e) j := by
  show e ≤ if e < j ∧ Follows e j then j else e
  split
  · next hmoved => exact hmoved.1.le
  · exact Nat.le_refl e

/-- Packets in step are decoded in their order, and each is ahead of where the receiver began. -/
theorem KnownAt.decoded (h : c.KnownAt ssrc o)
    (hsteps : EachAfter (fun pre p => InStep (positionAfter o pre) p.index) ps) :
    (c.decoded ssrc ps).Pairwise (· < ·) ∧ ∀ j ∈ c.decoded ssrc ps, ∀ e, o = some e → e < j := by
  induction ps generalizing c o with
  | nil => exact ⟨List.Pairwise.nil, fun j hj => absurd hj List.not_mem_nil⟩
  | cons p ps ih =>
      have hstep : InStep o p.index := hsteps [] p ps rfl
      have hrest : EachAfter (fun pre p' =>
          InStep (positionAfter (some (moveOn o p.index)) pre) p'.index) ps :=
        fun pre p' post hps => hsteps (p :: pre) p' post (by rw [hps]; rfl)
      obtain ⟨hpairwise, hbeyond⟩ := ih (h.afterPacket hstep) hrest
      have hlater : ∀ j ∈ (c.afterPacket ssrc p).decoded ssrc ps, ∀ e, o = some e → e < j := by
        rintro j hj e rfl
        exact Nat.lt_of_le_of_lt (le_moveOn e p.index) (hbeyond j hj _ rfl)
      rw [Codec.decoded]
      split
      · next hdecodes =>
          obtain ⟨hnext, hmoved⟩ := h.decodes hstep hdecodes
          refine ⟨List.pairwise_cons.2 ⟨fun j hj => ?_, hpairwise⟩, fun j hj e he => ?_⟩
          · have hlt := hbeyond j hj _ rfl
            rwa [hmoved] at hlt
          · rcases List.mem_cons.1 hj with rfl | hj
            · rw [hnext e he]
              exact Nat.lt_succ_self e
            · exact hlater j hj e he
      · exact ⟨hpairwise, hlater⟩

/-- **Packets in step are decoded in their order and once**, and the extended number keeps up with
them, as long as the rollovers can be counted in sixteen bits. -/
theorem decodesInOrder_of_inStep (c : Codec) (ssrc : BitVec 32) (o : Option Nat)
    (ps : List AudioPacket) (hknown : c.KnownAt ssrc o)
    (hfew : c.recvSequenceHiNumber.toNat + c.rollovers ssrc ps < 2 ^ 16)
    (hsteps : EachAfter (fun pre p => InStep (positionAfter o pre) p.index) ps) :
    c.DecodesInOrder ssrc ps :=
  ⟨eachAfter_monotone hfew, eachAfter_next, (hknown.decoded hsteps).1⟩

instance (o : Option Nat) (j : Nat) : Decidable (InStep o j) :=
  match o with
  | none => isTrue (by simp [InStep])
  | some e => decidable_of_iff (j < e + 2 ^ 16 ∧ (j ≤ e → ¬ Follows e j))
      ⟨fun h _ he => Option.some.inj he ▸ h, fun h => h e rfl⟩

/-- The last number before a rollover, the first two after it, and a duplicate. -/
theorem decodesInOrder_demo : DecodesInOrder {} 1
    [⟨65535, [0]⟩, ⟨65536, [0]⟩, ⟨65537, [0]⟩, ⟨65537, [0]⟩] :=
  decodesInOrder_of_inStep {} 1 none [⟨65535, [0]⟩, ⟨65536, [0]⟩, ⟨65537, [0]⟩, ⟨65537, [0]⟩]
    (show (1 : BitVec 32) ≠ 0 by decide) (by decide) (by
      rw [show [AudioPacket.mk 65535 [0], ⟨65536, [0]⟩, ⟨65537, [0]⟩, ⟨65537, [0]⟩] =
        ((([] ++ [⟨65535, [0]⟩]) ++ [⟨65536, [0]⟩]) ++ [⟨65537, [0]⟩]) ++ [⟨65537, [0]⟩] from rfl,
        eachAfter_concat, eachAfter_concat, eachAfter_concat, eachAfter_concat]
      exact ⟨⟨⟨⟨eachAfter_nil, by decide⟩, by decide⟩, by decide⟩, by decide⟩)

/-- Late duplicates of the packets around a rollover are decoded again. -/
theorem decodesInOrder_fails : ¬ ∀ (c : Codec) (ssrc : BitVec 32) (ps : List AudioPacket),
    c.rollovers ssrc ps < 2 ^ 16 → c.DecodesInOrder ssrc ps := by
  intro hall
  have horder := hall {} 1 [⟨65534, [0]⟩, ⟨65535, [0]⟩, ⟨65536, [0]⟩, ⟨65537, [0]⟩, ⟨65535, [0]⟩,
    ⟨65536, [0]⟩, ⟨65537, [0]⟩] (by decide)
  exact absurd horder.once (by decide)

end Codec

end NetISDN

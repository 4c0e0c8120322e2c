import NetISDN.General.BitFields
import NetISDN.General.ByteMemory

/-!
# The RTP header

`RTPHeader` (`rtpheader.cpp`) packs its fixed part into three words and lets the contributing
sources follow. What `writeBlock` has written, `readBlock` reads back, unless there are eight or
more sources: bit 27 belongs to their count as well as to the extension flag.
-/

namespace NetISDN

open BitFields

/-- A flag as a number. -/
def bit (b : Bool) : BitVec 32 := if b then 1 else 0

/-- A bit as a number. -/
theorem toNat_bit (b : Bool) : (bit b).toNat = b.toNat := by cases b <;> rfl

/-- A flag is read back from its bit. -/
theorem decide_ne_zero {x : BitVec 32} {b : Bool} (hx : x.toNat = b.toNat) :
    decide (x ≠ 0) = b := by
  cases b with
  | false =>
      have hzero : x = 0 := BitVec.eq_of_toNat_eq hx
      simp [hzero]
  | true =>
      refine decide_eq_true fun hzero => ?_
      rw [hzero] at hx
      exact absurd hx (by decide)

/-- `RTPHEADER_MAX_CSRCS`. -/
def maxCsrcs : Nat := 15

/-- `RTPHeader` (`rtpheader.h:38`). -/
structure RTPHeader where
  version : BitVec 32
  paddingBit : Bool
  extensionBit : Bool
  markerBit : Bool
  payloadType : BitVec 32
  sequenceNumber : BitVec 16
  timestamp : BitVec 32
  timestampInterval : BitVec 32
  ssrc : BitVec 32
  csrcs : List (BitVec 32)
  csrcs_le : csrcs.length ≤ maxCsrcs

/-- `RTPHeader(RTPHeader::PayloadMpa)` (`rtpheader.cpp:33`); `rand` is what `rand_r` returns. -/
def mpaHeader (rand : BitVec 16) : RTPHeader :=
  { version := 2
    paddingBit := false
    extensionBit := false
    markerBit := false
    payloadType := 14
    sequenceNumber := rand
    timestamp := 0
    timestampInterval := 90000
    ssrc := 0
    csrcs := []
    csrcs_le := Nat.zero_le _ }

namespace RTPHeader

/-- `csrcCount`. -/
def csrcCount (h : RTPHeader) : Nat := h.csrcs.length

/-- `addCsrc` (`rtpheader.cpp:274`). -/
def addCsrc (h : RTPHeader) (csrc : BitVec 32) : RTPHeader × Bool :=
  if hmax : h.csrcCount = maxCsrcs then (h, false)
  else
    ({ h with
        csrcs := h.csrcs ++ [csrc]
        csrcs_le := by
          have hle := h.csrcs_le
          simp only [csrcCount] at hmax
          rw [List.length_append, List.length_singleton]
          omega },
      true)

/-- `clear` (`rtpheader.cpp:357`). The payload type is `PayloadL16_2`, and `rand` what `rand_r`
returns. -/
def clear (h : RTPHeader) (rand : BitVec 16) : RTPHeader :=
  { h with
    version := 0
    paddingBit := false
    extensionBit := false
    markerBit := false
    payloadType := 10
    sequenceNumber := rand
    timestamp := 0
    timestampInterval := 44100
    ssrc := 0
    csrcs := []
    csrcs_le := Nat.zero_le _ }

/-- `readBlock` (`rtpheader.cpp:307`). The result is compared with `(int)len`. -/
def readBlock (h : RTPHeader) (rand : BitVec 16) (m : ByteMemory) (data : Nat) (len : BitVec 32) :
    RTPHeader × Nat :=
  let fields := m.word data
  let csrc_count := (0x0f#32 &&& (fields >>> 24)).toNat
  let h := { h.clear rand with
    version := fields >>> 30
    paddingBit := 0x01#32 &&& (fields >>> 28) ≠ 0
    extensionBit := 0x01#32 &&& (fields >>> 27) ≠ 0
    markerBit := 0x01#32 &&& (fields >>> 23) ≠ 0
    payloadType := 0x7f#32 &&& (fields >>> 16)
    sequenceNumber := (0xffff#32 &&& fields).setWidth 16
    timestamp := m.word (data + 4)
    ssrc := m.word (data + 8) }
  let h := (m.words (data + 12) csrc_count).foldl (fun h csrc => (h.addCsrc csrc).1) h
  let ret : Nat :=
    if h.extensionBit then
      3 + h.csrcCount + (0xffff#32 &&& m.word (data + 4 * (4 + h.csrcCount))).toNat
    else 3 + h.csrcCount
  if (ret : Int) > len.toInt then (h, 0) else (h, ret)

/-- The first word that `writeBlock` writes (`rtpheader.cpp:344`). The extension flag is shifted
before it is masked, and so never written. -/
def firstWord (h : RTPHeader) : BitVec 32 :=
  ((0x03#32 &&& h.version) <<< 30) ||| ((0x01#32 &&& bit h.paddingBit) <<< 28) |||
    (0x01#32 &&& (bit h.extensionBit <<< 27)) |||
    ((0x0f#32 &&& BitVec.ofNat 32 h.csrcCount) <<< 24) |||
    ((0x01#32 &&& bit h.markerBit) <<< 23) ||| ((0x7f#32 &&& h.payloadType) <<< 16) |||
    (0xffff#32 &&& h.sequenceNumber.setWidth 32)

/-- `writeBlock` (`rtpheader.cpp:339`). -/
def writeBlock (h : RTPHeader) (m : ByteMemory) (data : Nat) (len : BitVec 32) :
    ByteMemory × Nat :=
  if len.toNat < 3 + h.csrcCount then (m, 0)
  else
    (m.setWords data ([h.firstWord, h.timestamp, h.ssrc] ++ h.csrcs), 3 + h.csrcCount)

/-- `operator++` (`rtpheader.cpp:291`). -/
def increment (h : RTPHeader) : RTPHeader :=
  { h with
    sequenceNumber := h.sequenceNumber + 1
    timestamp := h.timestamp + h.timestampInterval }

/-- What a header has that goes over the wire. -/
def content (h : RTPHeader) :=
  (h.version, h.paddingBit, h.extensionBit, h.markerBit, h.payloadType, h.sequenceNumber,
    h.timestamp, h.ssrc, h.csrcs)

variable {h : RTPHeader}

/-! ## The first word -/

/-- The fields of the first word add up. -/
theorem toNat_firstWord (h : RTPHeader) : h.firstWord.toNat =
    h.version.toNat % 4 * 2 ^ 30 + h.paddingBit.toNat * 2 ^ 28 + h.csrcCount * 2 ^ 24 +
      h.markerBit.toNat * 2 ^ 23 + h.payloadType.toNat % 128 * 2 ^ 16 +
      h.sequenceNumber.toNat := by
  have hle : h.csrcCount ≤ 15 := h.csrcs_le
  have hpad := Bool.toNat_le h.paddingBit
  have hmark := Bool.toNat_le h.markerBit
  have hseq := h.sequenceNumber.isLt
  have hversion : ((0x03#32 &&& h.version) <<< 30).toNat = h.version.toNat % 4 * 2 ^ 30 :=
    toNat_place (n := 2) (by decide)
  have hpadding : ((0x01#32 &&& bit h.paddingBit) <<< 28).toNat = h.paddingBit.toNat * 2 ^ 28 :=
    (toNat_place (n := 1) (k := 28) (by decide)).trans (by rw [toNat_bit]; omega)
  have hext : (0x01#32 &&& (bit h.extensionBit <<< 27)).toNat = 0 := by
    cases h.extensionBit <;> rfl
  have hcount : ((0x0f#32 &&& BitVec.ofNat 32 h.csrcCount) <<< 24).toNat = h.csrcCount * 2 ^ 24 :=
    (toNat_place (n := 4) (k := 24) (by decide)).trans (by rw [BitVec.toNat_ofNat]; omega)
  have hmarker : ((0x01#32 &&& bit h.markerBit) <<< 23).toNat = h.markerBit.toNat * 2 ^ 23 :=
    (toNat_place (n := 1) (k := 23) (by decide)).trans (by rw [toNat_bit]; omega)
  have htype : ((0x7f#32 &&& h.payloadType) <<< 16).toNat = h.payloadType.toNat % 128 * 2 ^ 16 :=
    toNat_place (n := 7) (by decide)
  have hnumber : (0xffff#32 &&& h.sequenceNumber.setWidth 32).toNat = h.sequenceNumber.toNat :=
    (toNat_mask_and (n := 16) (by decide)).trans (by rw [BitVec.toNat_setWidth]; omega)
  rw [firstWord]
  generalize (0x03#32 &&& h.version) <<< 30 = version at *
  generalize (0x01#32 &&& bit h.paddingBit) <<< 28 = padding at *
  generalize 0x01#32 &&& (bit h.extensionBit <<< 27) = ext at *
  generalize (0x0f#32 &&& BitVec.ofNat 32 h.csrcCount) <<< 24 = count at *
  generalize (0x01#32 &&& bit h.markerBit) <<< 23 = marker at *
  generalize (0x7f#32 &&& h.payloadType) <<< 16 = type at *
  generalize 0xffff#32 &&& h.sequenceNumber.setWidth 32 = number at *
  -- from the top bit down, each field lies below the ones before it
  have e₁ := toNat_or (x := version) (y := padding) (k := 30) (by omega) (by omega)
  have e₂ := toNat_or (x := version ||| padding) (y := ext) (k := 28) (by omega) (by omega)
  have e₃ := toNat_or (x := version ||| padding ||| ext) (y := count) (k := 28) (by omega)
    (by omega)
  have e₄ := toNat_or (x := version ||| padding ||| ext ||| count) (y := marker) (k := 24)
    (by omega) (by omega)
  have e₅ := toNat_or (x := version ||| padding ||| ext ||| count ||| marker) (y := type) (k := 23)
    (by omega) (by omega)
  rw [toNat_or (k := 16) (by omega) (by omega)]
  omega

/-! ## The fields read back -/

variable {m : ByteMemory} {p : Nat} {l : BitVec 32} {cs : List (BitVec 32)}

/-- The version is read back. -/
theorem version_firstWord (hv : h.version.toNat < 4) : h.firstWord >>> 30 = h.version := by
  have hle : h.csrcCount ≤ 15 := h.csrcs_le
  have hpad := Bool.toNat_le h.paddingBit
  have hmark := Bool.toNat_le h.markerBit
  have hseq := h.sequenceNumber.isLt
  refine BitVec.eq_of_toNat_eq ?_
  rw [BitVec.toNat_ushiftRight, Nat.shiftRight_eq_div_pow, toNat_firstWord]
  omega

/-- The padding bit is read back. -/
theorem padding_firstWord (h : RTPHeader) :
    (0x01#32 &&& (h.firstWord >>> 28)).toNat = h.paddingBit.toNat := by
  have hle : h.csrcCount ≤ 15 := h.csrcs_le
  have hpad := Bool.toNat_le h.paddingBit
  have hmark := Bool.toNat_le h.markerBit
  have hseq := h.sequenceNumber.isLt
  rw [show 0x01#32 = mask 1 from rfl, toNat_get (by decide), toNat_firstWord]
  omega

/-- The extension flag that is read is the top bit of the count. -/
theorem extension_firstWord (h : RTPHeader) :
    (0x01#32 &&& (h.firstWord >>> 27)).toNat = (decide (8 ≤ h.csrcCount)).toNat := by
  have hle : h.csrcCount ≤ 15 := h.csrcs_le
  have hpad := Bool.toNat_le h.paddingBit
  have hmark := Bool.toNat_le h.markerBit
  have hseq := h.sequenceNumber.isLt
  have htop : (decide (8 ≤ h.csrcCount)).toNat = h.csrcCount / 8 := by
    cases hd : decide (8 ≤ h.csrcCount) <;> simp at hd <;> simp <;> omega
  rw [show 0x01#32 = mask 1 from rfl, toNat_get (by decide), toNat_firstWord, htop]
  omega

/-- The count of the contributing sources is read back. -/
theorem count_firstWord (h : RTPHeader) :
    (0x0f#32 &&& (h.firstWord >>> 24)).toNat = h.csrcCount := by
  have hle : h.csrcCount ≤ 15 := h.csrcs_le
  have hmark := Bool.toNat_le h.markerBit
  have hseq := h.sequenceNumber.isLt
  rw [show 0x0f#32 = mask 4 from rfl, toNat_get (by decide), toNat_firstWord]
  omega

/-- The marker bit is read back. -/
theorem marker_firstWord (h : RTPHeader) :
    (0x01#32 &&& (h.firstWord >>> 23)).toNat = h.markerBit.toNat := by
  have hmark := Bool.toNat_le h.markerBit
  have hseq := h.sequenceNumber.isLt
  rw [show 0x01#32 = mask 1 from rfl, toNat_get (by decide), toNat_firstWord]
  omega

/-- The payload type is read back. -/
theorem type_firstWord (hp : h.payloadType.toNat < 128) :
    0x7f#32 &&& (h.firstWord >>> 16) = h.payloadType := by
  have hseq := h.sequenceNumber.isLt
  refine BitVec.eq_of_toNat_eq ?_
  rw [show 0x7f#32 = mask 7 from rfl, toNat_get (by decide), toNat_firstWord]
  omega

/-- The sequence number is read back. -/
theorem number_firstWord (h : RTPHeader) :
    (0xffff#32 &&& h.firstWord).setWidth 16 = h.sequenceNumber := by
  have hseq := h.sequenceNumber.isLt
  refine BitVec.eq_of_toNat_eq ?_
  rw [BitVec.toNat_setWidth, show 0xffff#32 = mask 16 from rfl, toNat_mask_and (by decide),
    toNat_firstWord]
  omega

/-- The contributing sources that are read go to the end of the list. -/
theorem foldl_addCsrc (hle : (h.csrcs ++ cs).length ≤ maxCsrcs) :
    cs.foldl (fun h csrc => (h.addCsrc csrc).1) h =
      { h with csrcs := h.csrcs ++ cs, csrcs_le := hle } := by
  induction cs generalizing h with
  | nil => simp
  | cons c cs ih =>
      have hlt : ¬ h.csrcCount = maxCsrcs := by
        rw [List.length_append, List.length_cons] at hle
        rw [csrcCount]
        omega
      have hadd : (h.addCsrc c).1.csrcs = h.csrcs ++ [c] := by simp only [addCsrc, hlt, dite_false]
      rw [List.foldl_cons, ih (by rw [hadd]; simpa using hle)]
      simp only [addCsrc, hlt, dite_false, List.append_assoc, List.singleton_append]

/-- The sources are added to an empty list one by one. -/
theorem foldl_addCsrc_nil (hnil : h.csrcs = []) (hle : cs.length ≤ maxCsrcs) :
    cs.foldl (fun h csrc => (h.addCsrc csrc).1) h = { h with csrcs := cs, csrcs_le := hle } := by
  rw [foldl_addCsrc (by rwa [hnil])]
  simp only [hnil, List.nil_append]

/-! ## The round trip -/

/-- What `writeBlock` returns, if there is room. -/
theorem writeBlock_eq (hlen : 3 + h.csrcCount ≤ l.toNat) : h.writeBlock m p l =
    (m.setWords p ([h.firstWord, h.timestamp, h.ssrc] ++ h.csrcs), 3 + h.csrcCount) :=
  if_neg (Nat.not_lt.2 hlen)

/-- The words that `writeBlock` leaves behind. -/
theorem words_writeBlock (hlen : 3 + h.csrcCount ≤ l.toNat) :
    let m' := (h.writeBlock m p l).1
    m'.word p = h.firstWord ∧ m'.word (p + 4) = h.timestamp ∧
      m'.word (p + 8) = h.ssrc ∧ m'.words (p + 12) h.csrcCount = h.csrcs := by
  have hwords := @ByteMemory.words_setWords m p
    (h.firstWord :: h.timestamp :: h.ssrc :: h.csrcs)
  simp only [List.length_cons, ByteMemory.words, List.cons.injEq, Nat.add_assoc] at hwords
  rw [writeBlock_eq hlen]
  exact hwords

/-- A header read back has every field of the one written but the extension flag, which is the top
bit of the count. -/
theorem content_readBlock (hv : h.version.toNat < 4) (hp : h.payloadType.toNat < 128)
    (hlen : 3 + h.csrcCount ≤ l.toNat) (h₀ : RTPHeader) (rand : BitVec 16) :
    (h₀.readBlock rand (h.writeBlock m p l).1 p l).1.content =
      { h with extensionBit := 8 ≤ h.csrcCount }.content := by
  obtain ⟨hfields, htime, hssrc, hcsrcs⟩ := words_writeBlock (m := m) (p := p) hlen
  simp only [readBlock, clear, hfields, count_firstWord, htime, hssrc, hcsrcs,
    foldl_addCsrc_nil _ h.csrcs_le, apply_ite Prod.fst, ite_self, content]
  rw [version_firstWord hv, decide_ne_zero h.padding_firstWord,
    decide_ne_zero h.extension_firstWord, decide_ne_zero h.marker_firstWord, type_firstWord hp,
    number_firstWord]

/-- With fewer than eight sources `readBlock` looks for no extension. -/
theorem length_readBlock (hlen : 3 + h.csrcCount ≤ l.toNat) (hlt : h.csrcCount < 8)
    (h₀ : RTPHeader) (rand : BitVec 16) :
    (h₀.readBlock rand (h.writeBlock m p l).1 p l).2 =
      if ((3 + h.csrcCount : Nat) : Int) > l.toInt then 0 else 3 + h.csrcCount := by
  obtain ⟨hfields, htime, hssrc, hcsrcs⟩ := words_writeBlock (m := m) (p := p) hlen
  have hext : decide (0x01#32 &&& (h.firstWord >>> 27) ≠ 0) = false := by
    rw [decide_ne_zero h.extension_firstWord, decide_eq_false (Nat.not_le.2 hlt)]
  simp only [readBlock, clear, hfields, count_firstWord, htime, hssrc, hcsrcs,
    foldl_addCsrc_nil _ h.csrcs_le, hext]
  simp only [Bool.false_eq_true, if_false, csrcCount, apply_ite Prod.snd]
  rfl

/-! ## What is read from any datagram -/

/-- The parser finds no header longer than what it is given. -/
theorem readBlock_snd_le (h : RTPHeader) (rand : BitVec 16) (m : ByteMemory) (p : Nat)
    {l : BitVec 32} (hl : 0 ≤ l.toInt) : ((h.readBlock rand m p l).2 : Int) ≤ l.toInt := by
  rw [readBlock]
  dsimp only
  generalize List.foldl _ _ _ = got
  generalize (if got.extensionBit then _ else _ : Nat) = ret
  split
  · exact hl
  · next hle => exact Int.not_lt.1 hle

/-- Contributing sources change neither the source nor the number of a header. -/
theorem foldl_addCsrc_fields (h : RTPHeader) (csrcs : List (BitVec 32)) :
    (csrcs.foldl (fun h csrc => (h.addCsrc csrc).1) h).ssrc = h.ssrc ∧
      (csrcs.foldl (fun h csrc => (h.addCsrc csrc).1) h).sequenceNumber = h.sequenceNumber := by
  induction csrcs generalizing h with
  | nil => exact ⟨rfl, rfl⟩
  | cons csrc csrcs ih =>
      rw [List.foldl_cons]
      obtain ⟨hssrc, hseq⟩ := ih (h.addCsrc csrc).1
      have hadd : (h.addCsrc csrc).1.ssrc = h.ssrc ∧
          (h.addCsrc csrc).1.sequenceNumber = h.sequenceNumber := by
        rw [addCsrc]
        split <;> exact ⟨rfl, rfl⟩
      exact ⟨hssrc.trans hadd.1, hseq.trans hadd.2⟩

/-- The number is in the first word, and the source in the third. -/
theorem readBlock_fields (h : RTPHeader) (rand : BitVec 16) (m : ByteMemory) (p : Nat)
    (l : BitVec 32) : (h.readBlock rand m p l).1.ssrc = m.word (p + 8) ∧
      (h.readBlock rand m p l).1.sequenceNumber = (0xffff#32 &&& m.word p).setWidth 16 := by
  rw [readBlock]
  dsimp only
  rw [apply_ite Prod.fst, ite_self]
  exact foldl_addCsrc_fields _ _

/-! ## Round trip -/

/-- `readBlock`, on any header, gives back what `writeBlock` has written: the same length and the
same content. -/
def RoundTrips (h : RTPHeader) (m : ByteMemory) (data : Nat) (len : BitVec 32) : Prop :=
  ∀ (h₀ : RTPHeader) (rand : BitVec 16),
    let written := h.writeBlock m data len
    let got := h₀.readBlock rand written.1 data len
    got.2 = written.2 ∧ got.1.content = h.content

/-- **A header survives the round trip if and only if it has fewer than eight contributing
sources** (and the length of the buffer is positive as an `int`). -/
theorem roundTrips_iff (h : RTPHeader) (m : ByteMemory) (p : Nat) (l : BitVec 32)
    (hv : h.version.toNat < 4) (hp : h.payloadType.toNat < 128) (hx : h.extensionBit = false)
    (hlen : 3 + h.csrcCount ≤ l.toNat) :
    h.RoundTrips m p l ↔ h.csrcCount < 8 ∧ l.toNat < 2 ^ 31 := by
  have hsnd : (h.writeBlock m p l).2 = 3 + h.csrcCount := by rw [writeBlock_eq hlen]
  constructor
  · intro htrip
    obtain ⟨hlength, hcontent⟩ := htrip h 0
    rw [content_readBlock hv hp hlen] at hcontent
    have hlt : h.csrcCount < 8 := by
      have hext : decide (8 ≤ h.csrcCount) = h.extensionBit := congrArg (·.2.2.1) hcontent
      rw [hx] at hext
      exact Nat.not_le.1 (of_decide_eq_false hext)
    rw [length_readBlock hlen hlt, hsnd] at hlength
    refine ⟨hlt, ?_⟩
    by_contra hge
    have hneg : l.toInt < 0 := by
      rw [BitVec.toInt_eq_toNat_cond]
      omega
    rw [if_pos (by omega)] at hlength
    omega
  · rintro ⟨hlt, hpos⟩ h₀ rand
    have hint : l.toInt = l.toNat := by
      rw [BitVec.toInt_eq_toNat_cond]
      omega
    refine ⟨?_, ?_⟩
    · show (h₀.readBlock rand (h.writeBlock m p l).1 p l).2 = _
      rw [length_readBlock hlen hlt, hsnd, if_neg (by omega)]
    · show (h₀.readBlock rand (h.writeBlock m p l).1 p l).1.content = _
      rw [content_readBlock hv hp hlen, decide_eq_false (Nat.not_le.2 hlt), ← hx]

/-- A header whose sources were added one by one. -/
def withCsrcs (h : RTPHeader) (cs : List (BitVec 32)) : RTPHeader :=
  cs.foldl (fun h csrc => (h.addCsrc csrc).1) h

/-- What the constructor leaves of a header of version 2, for payloads of type 11. -/
def blank : RTPHeader :=
  { version := 2, paddingBit := false, extensionBit := false, markerBit := false,
    payloadType := 11, sequenceNumber := 0, timestamp := 0, timestampInterval := 0, ssrc := 0,
    csrcs := [], csrcs_le := Nat.zero_le _ }

/-- A header with two sources, in a buffer of twenty words. -/
theorem roundTrips_two : (blank.withCsrcs [7, 8]).RoundTrips (fun _ => 0) 0 20 :=
  (roundTrips_iff (blank.withCsrcs [7, 8]) (fun _ => 0) 0 20 (by decide) (by decide) rfl
    (by decide)).2 (by decide)

/-- A header with eight sources comes back with the extension flag set. -/
theorem roundTrips_fails : ¬ ∀ (h : RTPHeader) (m : ByteMemory) (p : Nat) (l : BitVec 32),
    h.version.toNat < 4 → h.payloadType.toNat < 128 → h.extensionBit = false →
      3 + h.csrcCount ≤ l.toNat → h.RoundTrips m p l := by
  intro hall
  let h := blank.withCsrcs [1, 2, 3, 4, 5, 6, 7, 8]
  obtain ⟨_, hcontent⟩ := hall h (fun _ => 0) 0 20 (by decide) (by decide) rfl (by decide) blank 0
  have hext : (blank.readBlock 0 (h.writeBlock (fun _ => 0) 0 20).1 0 20).1.extensionBit = false :=
    congrArg (·.2.2.1) hcontent
  exact absurd hext (by decide +kernel)

end RTPHeader

end NetISDN

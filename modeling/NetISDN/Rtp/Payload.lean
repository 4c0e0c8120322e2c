import NetISDN.General.Reading
import NetISDN.Rtp.Header

/-!
# Where the payload of a packet begins

`RTPHeader::readBlock` (`rtpheader.cpp:307`) on the packets of RFC 3550, section 5.1. It takes the
top bit of the count of the contributing sources for the extension flag, and the length of the
extension from the word after the one that has it; and it looks at the words that the count
announces before it compares anything with the length of the datagram. Both are put side by side
with the packet format in `findsPayload_iff`.
-/

namespace NetISDN

open BitFields

namespace RTPHeader

variable {h : RTPHeader} {rand : BitVec 16} {m : ByteMemory} {p n len : Nat} {l w : BitVec 32}

/-! ## The packet format -/

/-- `CC`, the count of the contributing sources in the first word of a packet. -/
def countField (w : BitVec 32) : Nat := (0x0f#32 &&& (w >>> 24)).toNat

/-- `X`, the extension flag in the first word of a packet. -/
def extensionField (w : BitVec 32) : Bool := 0x01#32 &&& (w >>> 28) ≠ 0

/-- The lower half of a word; of the first word of an extension, the length of the rest. -/
def lowerHalf (w : BitVec 32) : Nat := (0xffff#32 &&& w).toNat

/-- The words of the extension, the one with its length among them. -/
def extensionWords (m : ByteMemory) (data : Nat) : Nat :=
  if extensionField (m.word data) then
    1 + lowerHalf (m.word (data + 4 * (3 + countField (m.word data))))
  else 0

/-- The word at which the payload begins: after the fixed part, the contributing sources and the
extension. -/
def payloadOffset (m : ByteMemory) (data : Nat) : Nat :=
  3 + countField (m.word data) + extensionWords m data

/-- A packet of `len` words: it has version 2, and what comes before the payload fits. -/
structure WellFormed (m : ByteMemory) (data len : Nat) : Prop where
  version : m.word data >>> 30 = 2
  fits : payloadOffset m data ≤ len

/-! ## What `readBlock` examines -/

/-- The header that `readBlock` puts together (`rtpheader.cpp:311`). -/
def readFields (h : RTPHeader) (rand : BitVec 16) (fields timestamp ssrc : BitVec 32)
    (csrcs : List (BitVec 32)) : RTPHeader :=
  csrcs.foldl (fun h csrc => (h.addCsrc csrc).1) { h.clear rand with
    version := fields >>> 30
    paddingBit := 0x01#32 &&& (fields >>> 28) ≠ 0
    extensionBit := 0x01#32 &&& (fields >>> 27) ≠ 0
    markerBit := 0x01#32 &&& (fields >>> 23) ≠ 0
    payloadType := 0x7f#32 &&& (fields >>> 16)
    sequenceNumber := (0xffff#32 &&& fields).setWidth 16
    timestamp := timestamp
    ssrc := ssrc }

/-- The length that it finds (`rtpheader.cpp:325`). -/
def examineLength (h : RTPHeader) (m : ByteMemory) (data : Nat) : Reading Nat :=
  if h.extensionBit then do
    let length ← m.readWord (data + 4 * (4 + h.csrcCount))
    return 3 + h.csrcCount + (0xffff#32 &&& length).toNat
  else return 3 + h.csrcCount

/-- `readBlock` (`rtpheader.cpp:307`), with the words that it examines. -/
def examine (h : RTPHeader) (rand : BitVec 16) (m : ByteMemory) (data : Nat) (len : BitVec 32) :
    Reading (RTPHeader × Nat) := do
  let fields ← m.readWord data
  let timestamp ← m.readWord (data + 4)
  let ssrc ← m.readWord (data + 8)
  let csrcs ← m.readWords (data + 12) (countField fields)
  let h := h.readFields rand fields timestamp ssrc csrcs
  let ret ← h.examineLength m data
  return if (ret : Int) > len.toInt then (h, 0) else (h, ret)

/-- The length of the header is read as the code computes it. -/
theorem result_examineLength : (h.examineLength m p).result =
    if h.extensionBit then
      3 + h.csrcCount + (0xffff#32 &&& m.word (p + 4 * (4 + h.csrcCount))).toNat
    else 3 + h.csrcCount := by
  rw [examineLength]
  split <;> rfl

/-- Only the length of an extension is read from the memory. -/
theorem within_examineLength : (h.examineLength m p).Within n ↔
    (h.extensionBit = true → p + 4 * (5 + h.csrcCount) ≤ n) := by
  rw [examineLength]
  split
  · next hext =>
      simp only [Reading.within_bind, ByteMemory.within_readWord, Reading.within_pure, hext,
        and_true, true_imp_iff]
      omega
  · next hext => simp [hext]

/-- What is examined does not change what is read. -/
theorem result_examine : (h.examine rand m p l).result = h.readBlock rand m p l := by
  simp only [examine, Reading.result_bind, ByteMemory.result_readWord,
    ByteMemory.result_readWords, result_examineLength]
  rfl

/-- The count of the sources is a number of four bits. -/
theorem countField_le (w : BitVec 32) : countField w ≤ maxCsrcs := by
  rw [countField, show 0x0f#32 = mask 4 from rfl, toNat_get (by decide), maxCsrcs]
  omega

/-- The flag that is read as the extension flag is the top bit of the count. -/
theorem topBit_eq (w : BitVec 32) :
    decide (0x01#32 &&& (w >>> 27) ≠ 0) = decide (8 ≤ countField w) := by
  refine decide_ne_zero ?_
  have hle : countField w ≤ 15 := countField_le w
  have htop : (decide (8 ≤ countField w)).toNat = countField w / 8 := by
    cases hd : decide (8 ≤ countField w) <;> simp at hd <;> simp <;> omega
  rw [htop, countField, show 0x01#32 = mask 1 from rfl, show 0x0f#32 = mask 4 from rfl,
    toNat_get (by decide), toNat_get (by decide)]
  omega

/-- The contributing sources are all taken, and change nothing else. -/
theorem readFields_words (h : RTPHeader) (rand : BitVec 16) (m : ByteMemory) (p : Nat)
    (w timestamp ssrc : BitVec 32) :
    let got := h.readFields rand w timestamp ssrc (m.words p (countField w))
    got.csrcCount = countField w ∧ got.extensionBit = decide (8 ≤ countField w) := by
  have hlen : (m.words p (countField w)).length ≤ maxCsrcs := by
    rw [ByteMemory.length_words]
    exact countField_le w
  rw [readFields, foldl_addCsrc_nil rfl hlen]
  exact ⟨ByteMemory.length_words, topBit_eq w⟩

/-- What `readBlock` returns. -/
theorem readBlock_snd (h : RTPHeader) (rand : BitVec 16) (m : ByteMemory) (p : Nat)
    (l : BitVec 32) :
    (h.readBlock rand m p l).2 =
      let cc := countField (m.word p)
      let ret := 3 + cc + if 8 ≤ cc then lowerHalf (m.word (p + 4 * (4 + cc))) else 0
      if (ret : Int) > l.toInt then 0 else ret := by
  obtain ⟨hcount, hext⟩ := readFields_words h rand m (p + 12) (m.word p) (m.word (p + 4))
    (m.word (p + 8))
  rw [← result_examine]
  simp only [examine, Reading.result_bind, ByteMemory.result_readWord,
    ByteMemory.result_readWords, result_examineLength, Reading.result_pure, apply_ite Prod.snd,
    hcount, hext, decide_eq_true_eq]
  split <;> rfl

/-- What `readBlock` examines: three words, the contributing sources that the first of them
announces, and from eight of these on the second word after them. -/
theorem within_examine (h : RTPHeader) (rand : BitVec 16) (m : ByteMemory) (p : Nat)
    (l : BitVec 32) (n : Nat) :
    (h.examine rand m p l).Within n ↔
      p + 4 * (3 + countField (m.word p)) ≤ n ∧
        (8 ≤ countField (m.word p) → p + 4 * (5 + countField (m.word p)) ≤ n) := by
  obtain ⟨hcount, hext⟩ := readFields_words h rand m (p + 12) (m.word p) (m.word (p + 4))
    (m.word (p + 8))
  simp only [examine, Reading.within_bind, ByteMemory.result_readWord, ByteMemory.result_readWords,
    ByteMemory.within_readWord, ByteMemory.within_readWords, within_examineLength,
    Reading.within_pure, hcount, hext, decide_eq_true_eq, and_true]
  omega

/-! ## Finding the payload -/

/-- What is asked of `readBlock` on a datagram of `n` bytes: it finds the payload of a well formed
packet, and examines only whole words of the datagram. -/
structure FindsPayload (m : ByteMemory) (data n : Nat) : Prop where
  finds (hformed : WellFormed m data (n / 4)) (h : RTPHeader) (rand : BitVec 16) :
    (h.readBlock rand m data (BitVec.ofNat 32 (n / 4))).2 = payloadOffset m data
  within (h : RTPHeader) (rand : BitVec 16) :
    (h.examine rand m data (BitVec.ofNat 32 (n / 4))).Within (data + 4 * (n / 4))

/-- The datagrams of `len` words on which it does. With fewer than eight contributing sources the
words that are announced are there, and a well formed packet has no extension. From eight on, two
more words are there, and the second of them has by chance the number of words that the extension
takes. -/
def Favourable (m : ByteMemory) (data len : Nat) : Prop :=
  let cc := countField (m.word data)
  if cc < 8 then
    3 + cc ≤ len ∧ (WellFormed m data len → extensionField (m.word data) = false)
  else
    5 + cc ≤ len ∧
      (WellFormed m data len → lowerHalf (m.word (data + 4 * (4 + cc))) = extensionWords m data)

/-- The number of whole words of a datagram is the same as an `int`. -/
theorem toInt_words (hn : n < 2 ^ 31) : (BitVec.ofNat 32 (n / 4)).toInt = (n / 4 : Nat) := by
  have hnat : (BitVec.ofNat 32 (n / 4)).toNat = n / 4 := by
    rw [BitVec.toNat_ofNat]
    omega
  rw [BitVec.toInt_eq_toNat_cond, hnat, if_pos (by omega)]

/-- With fewer than eight sources the fixed part and the sources are all that is found. -/
theorem readBlock_few (hn : n < 2 ^ 31) (hlt : countField (m.word p) < 8)
    (hle : 3 + countField (m.word p) ≤ n / 4) (h : RTPHeader) (rand : BitVec 16) :
    (h.readBlock rand m p (BitVec.ofNat 32 (n / 4))).2 = 3 + countField (m.word p) := by
  rw [readBlock_snd, toInt_words hn]
  dsimp only
  rw [if_neg (Nat.not_le.2 hlt), Nat.add_zero, if_neg (by omega)]

/-- From eight sources on, the payload is found if the word after the length is the length. -/
theorem readBlock_many (hn : n < 2 ^ 31) (hge : 8 ≤ countField (m.word p))
    (hformed : WellFormed m p (n / 4)) (h : RTPHeader) (rand : BitVec 16) :
    (h.readBlock rand m p (BitVec.ofNat 32 (n / 4))).2 = payloadOffset m p ↔
      lowerHalf (m.word (p + 4 * (4 + countField (m.word p)))) = extensionWords m p := by
  have hfits := hformed.fits
  rw [readBlock_snd, toInt_words hn]
  dsimp only
  rw [if_pos hge]
  rw [payloadOffset] at hfits ⊢
  split
  · next hgt => omega
  · next hle => omega

/-- **`readBlock` finds the payload inside the datagram if and only if the datagram is
favourable.** -/
theorem findsPayload_iff (m : ByteMemory) (p n : Nat) (hmax : n < 2 ^ 31) :
    FindsPayload m p n ↔ Favourable m p (n / 4) := by
  have hwithin (h : RTPHeader) (rand : BitVec 16) :=
    within_examine h rand m p (BitVec.ofNat 32 (n / 4)) (p + 4 * (n / 4))
  rw [Favourable]
  rcases Nat.lt_or_ge (countField (m.word p)) 8 with hlt | hge
  · rw [if_pos hlt]
    constructor
    · intro hfinds
      have hle := ((hwithin _ _).1 (hfinds.within (mpaHeader 0) 0)).1
      refine ⟨by omega, fun hformed => ?_⟩
      have hoffset := hfinds.finds hformed (mpaHeader 0) 0
      rw [readBlock_few hmax hlt (by omega), payloadOffset, extensionWords] at hoffset
      split at hoffset
      · omega
      · next hext => exact Bool.eq_false_iff.2 hext
    · rintro ⟨hle, hext⟩
      refine ⟨fun hformed h rand => ?_, fun h rand => (hwithin h rand).2 (by omega)⟩
      rw [readBlock_few hmax hlt hle, payloadOffset, extensionWords, hext hformed]
      rfl
  · rw [if_neg (Nat.not_lt.2 hge)]
    constructor
    · intro hfinds
      have hle := ((hwithin _ _).1 (hfinds.within (mpaHeader 0) 0)).2 hge
      refine ⟨by omega, fun hformed => ?_⟩
      exact (readBlock_many hmax hge hformed _ _).1 (hfinds.finds hformed (mpaHeader 0) 0)
    · rintro ⟨hle, hlength⟩
      refine ⟨fun hformed h rand => ?_, fun h rand => (hwithin h rand).2 (by omega)⟩
      exact (readBlock_many hmax hge hformed h rand).2 (hlength hformed)

/-- A datagram of three words and a byte: version 2, no source, no extension. -/
theorem findsPayload_plain :
    FindsPayload (ByteMemory.setWords (fun _ => 0) 0 [0x80000000#32]) 0 13 :=
  (findsPayload_iff (ByteMemory.setWords (fun _ => 0) 0 [0x80000000#32]) 0 13
    (by decide)).2 ⟨by decide +kernel, fun _ => by decide +kernel⟩

/-- The payload of a packet with an extension of one word, its length, is looked for at that
word. -/
theorem findsPayload_fails : ¬ ∀ (m : ByteMemory) (p n : Nat), 9 ≤ n → n < 2 ^ 31 →
    FindsPayload m p n := by
  intro hall
  let m := ByteMemory.setWords (fun _ => 0) 0 [0x90000000#32]
  have hfinds := (hall m 0 20 (by decide) (by decide)).finds
    ⟨by decide +kernel, by decide +kernel⟩ (mpaHeader 0) 0
  exact absurd hfinds (by decide +kernel)

end RTPHeader

end NetISDN

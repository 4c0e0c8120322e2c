import Mathlib.Algebra.Order.Floor.Semiring
import Mathlib.Data.Rat.Floor
import NetISDN.General.Significand
import NetISDN.Lib.AudioSettings

/-!
# The input gain

`EncodeFrame` (`codec.cpp:1034`) multiplies the samples by the gain before it hands them to the
encoder. It counts frames where it should count samples, and converts the products, which it
computes in single precision, to 16 bits without limiting them. So the encoder gets the amplified
block if and only if no product of the first half of a stereo block, or of a mono block, is out of
range or carried to another integer by its rounding, and the second half is as the gain would make
it (`encodeFrame_eq_iff`).
-/

namespace NetISDN

open AudioSettings

/-- The encoders that `EncodeFrame` calls. -/
inductive Encoder where
  | layer3
  | speex
  | vorbis
  deriving DecidableEq

/-- The encoder of a format. -/
def encoderOf : Format → Option Encoder
  | .layer3 => some .layer3
  | .speex => some .speex
  | .vorbis => some .vorbis
  | .noFormat | .unnamed _ _ => none

/-- The format of an encoder. -/
def Encoder.format : Encoder → Format
  | .layer3 => .layer3
  | .speex => .speex
  | .vorbis => .vorbis

@[simp] theorem encoderOf_format (encoder : Encoder) : encoderOf encoder.format = some encoder := by
  cases encoder <;> rfl

/-- What `EncodeFrame` does: it calls an encoder with samples and frames, or none, or its behaviour
is undefined. -/
inductive Encoding where
  | encode (encoder : Encoder) (samples : List (BitVec 16)) (frames : Nat)
  | nothing
  | undefined
  deriving DecidableEq

/-- A number without its fraction. -/
def truncate (q : ℚ) : Int := if 0 ≤ q then ⌊q⌋ else ⌈q⌉

/-- `(int16_t)q` of a floating point number: undefined unless the integer part is in range. -/
def toInt16 (q : ℚ) : Option (BitVec 16) :=
  if -32768 ≤ truncate q ∧ truncate q ≤ 32767 then some (BitVec.ofInt 16 (truncate q)) else none

/-- A `float` product: 24 bits of the exact one. Its exponent is left unbounded, which matters for
products without an integer part and for such that are far out of range only. -/
def single (q : ℚ) : ℚ := Significand.roundTo 24 q

/-- The loop of `EncodeFrame`. -/
def scale (ratio : ℚ) : List (BitVec 16) → Nat → Option (List (BitVec 16))
  | inbuf, 0 => some inbuf
  | [], _ + 1 => none
  | x :: inbuf, frames + 1 => do
      let y ← toInt16 (single (x.toInt * ratio))
      let rest ← scale ratio inbuf frames
      return y :: rest

/-- The part of `EncodeFrame` before the encoder is chosen. -/
def applyGain (ratio : ℚ) (inbuf : List (BitVec 16)) (frames : Nat) :
    Option (List (BitVec 16)) :=
  if ratio ≠ 1 then scale ratio inbuf frames else some inbuf

/-- `EncodeFrame` (`codec.cpp:1034`), up to the call of the encoder. -/
def encodeFrame (format : Format) (ratio : ℚ) (inbuf : List (BitVec 16)) (frames : Nat) :
    Encoding :=
  match applyGain ratio inbuf frames with
  | none => .undefined
  | some inbuf =>
      match encoderOf format with
      | some encoder => .encode encoder inbuf frames
      | none => .nothing

/-- A block of interleaved samples, of one or two channels. -/
structure InputBlock where
  channels : Nat
  frames : Nat
  samples : List (BitVec 16)
  channels_eq : channels = 1 ∨ channels = 2
  length_eq : samples.length = frames * channels

/-- A sample with the gain: the product, rounded toward zero and limited to 16 bits. -/
def amplified (ratio : ℚ) (x : BitVec 16) : BitVec 16 :=
  BitVec.ofInt 16 (max (-32768) (min 32767 (truncate (x.toInt * ratio))))

/-- The product of a sample and the gain is a sample. -/
def InRange (ratio : ℚ) (x : BitVec 16) : Prop :=
  -32768 ≤ truncate (x.toInt * ratio) ∧ truncate (x.toInt * ratio) ≤ 32767

instance (ratio : ℚ) (x : BitVec 16) : Decidable (InRange ratio x) :=
  inferInstanceAs (Decidable (_ ∧ _))

/-- The product of a sample and the gain has the same integer part in single precision. -/
def Unrounded (ratio : ℚ) (x : BitVec 16) : Prop :=
  truncate (single (x.toInt * ratio)) = truncate (x.toInt * ratio)

instance (ratio : ℚ) (x : BitVec 16) : Decidable (Unrounded ratio x) :=
  inferInstanceAs (Decidable (_ = _))

section
variable {ratio : ℚ} {x : BitVec 16} {covered rest : List (BitVec 16)}

/-- A positive integer is reached by a number that is as large. -/
theorem le_truncate_iff {q : ℚ} {k : Int} (hk : 0 < k) : k ≤ truncate q ↔ (k : ℚ) ≤ q := by
  have hk' : (0 : ℚ) < k := Int.cast_pos.2 hk
  unfold truncate
  split
  · exact Int.le_floor
  · next hneg =>
      refine iff_of_false (fun hle => ?_) fun hle => hneg (hk'.le.trans hle)
      have hceil : ⌈q⌉ ≤ 0 := Int.ceil_le.2 (by simpa using (not_le.1 hneg).le)
      omega

/-- A negative integer is reached by a number that is as small. -/
theorem truncate_le_iff {q : ℚ} {k : Int} (hk : k < 0) : truncate q ≤ k ↔ q ≤ k := by
  have hk' : (k : ℚ) < 0 := Int.cast_lt_zero.2 hk
  unfold truncate
  split
  · next hpos =>
      have hfloor : 0 ≤ ⌊q⌋ := Int.floor_nonneg.2 hpos
      exact iff_of_false (fun hle => by omega) fun hle => not_le.2 hk' (hpos.trans hle)
  · exact Int.ceil_le

/-- Rounding does not bring a product into the range. -/
theorem inRange_of_single {q : ℚ}
    (h : -32768 ≤ truncate (single q) ∧ truncate (single q) ≤ 32767) :
    -32768 ≤ truncate q ∧ truncate q ≤ 32767 := by
  constructor
  · by_contra hlow
    have hle : q ≤ ((-32769 : Int) : ℚ) := (truncate_le_iff (by decide)).1 (by omega)
    have hsingle : truncate (single q) ≤ -32769 :=
      (truncate_le_iff (by decide)).2 (Significand.roundTo_le (by decide) (by decide) hle)
    omega
  · by_contra hhigh
    have hle : ((32768 : Int) : ℚ) ≤ q := (le_truncate_iff (by decide)).1 (by omega)
    have hsingle : 32768 ≤ truncate (single q) :=
      (le_truncate_iff (by decide)).2 (Significand.le_roundTo (by decide) (by decide) hle)
    omega

/-- The conversion gives the amplified sample if and only if the product is in range, and no other
integer in single precision. -/
theorem toInt16_eq_iff (ratio : ℚ) (x : BitVec 16) :
    toInt16 (single (x.toInt * ratio)) = some (amplified ratio x) ↔
      InRange ratio x ∧ Unrounded ratio x := by
  rw [toInt16]
  split
  · next h =>
      have hrange : InRange ratio x := inRange_of_single h
      rw [Option.some.injEq, amplified, min_eq_right hrange.2, max_eq_right hrange.1,
        and_iff_right hrange]
      constructor
      · intro heq
        have hint := congrArg BitVec.toInt heq
        rwa [BitVec.toInt_ofInt_eq_self (by decide) h.1 (by omega),
          BitVec.toInt_ofInt_eq_self (by decide) hrange.1 (by have := hrange.2; omega)] at hint
      · intro heq
        rw [show truncate (single _) = _ from heq]
  · next h =>
      refine iff_of_false (Option.some_ne_none _).symm fun ⟨hrange, hsame⟩ => h ?_
      rw [show truncate (single _) = _ from hsame]
      exact hrange

-- at about 6 dB, the product 5895.99998 is rounded up
example : InRange (16737473 / 8388608) 2955 ∧ ¬ Unrounded (16737473 / 8388608) 2955 := by
  decide +kernel

/-- The loop covers as many samples as there are frames. -/
theorem scale_append_iff (ratio : ℚ) (covered rest rest' : List (BitVec 16)) :
    scale ratio (covered ++ rest) covered.length =
        some (covered.map (amplified ratio) ++ rest') ↔
      (∀ x ∈ covered, InRange ratio x ∧ Unrounded ratio x) ∧ rest = rest' := by
  induction covered with
  | nil =>
      have hnone : scale ratio rest 0 = some rest := by cases rest <;> rfl
      rw [List.nil_append, List.length_nil, hnone, List.map_nil, List.nil_append, Option.some.injEq]
      exact (and_iff_right (List.forall_mem_nil _)).symm
  | cons x covered ih =>
      rw [List.forall_mem_cons, and_assoc, ← ih, ← toInt16_eq_iff, List.cons_append,
        List.length_cons, scale, List.map_cons, List.cons_append]
      cases toInt16 (single (x.toInt * ratio)) with
      | none => simp
      | some y =>
          cases scale ratio (covered ++ rest) covered.length with
          | none => simp
          | some samples => simp

/-- An integer has no fraction. -/
theorem truncate_intCast (z : Int) : truncate z = z := by
  rw [truncate]
  split
  · exact Int.floor_intCast z
  · exact Int.ceil_intCast z

/-- A gain of 1 changes nothing. -/
theorem amplified_one (x : BitVec 16) :
    (InRange 1 x ∧ Unrounded 1 x) ∧ amplified 1 x = x := by
  have hlow := BitVec.le_toInt x
  have hhigh := BitVec.toInt_lt (x := x)
  have htrunc : truncate (x.toInt * 1) = x.toInt := by
    rw [mul_one, truncate_intCast]
  have hrange : InRange 1 x := by
    rw [InRange, htrunc]
    omega
  have hsingle : single x.toInt = x.toInt :=
    Significand.roundTo_intCast (by decide) (abs_lt.2 ⟨by omega, by omega⟩)
  refine ⟨⟨hrange, ?_⟩, ?_⟩
  · rw [Unrounded, mul_one, hsingle]
  · rw [amplified, htrunc, min_eq_right (by omega), max_eq_right (by omega), BitVec.ofInt_toInt]

end

/-- A gain is applied to the whole block if and only if the products of the samples that the loop
covers are in range and not carried to another integer, and the gain leaves the others as they are.
-/
theorem applyGain_eq_iff (ratio : ℚ) (block : InputBlock) :
    applyGain ratio block.samples block.frames = some (block.samples.map (amplified ratio)) ↔
      (∀ x ∈ block.samples.take block.frames, InRange ratio x ∧ Unrounded ratio x) ∧
      ∀ x ∈ block.samples.drop block.frames, amplified ratio x = x := by
  have hframes : block.frames ≤ block.samples.length := by
    rw [block.length_eq]
    rcases block.channels_eq with h | h
    · rw [h]
      omega
    · rw [h]
      omega
  rcases eq_or_ne ratio 1 with rfl | hratio
  · have hmap : block.samples.map (amplified 1) = block.samples :=
      List.map_id'' (fun x => (amplified_one x).2) _
    rw [applyGain, if_neg (not_not.2 rfl), hmap]
    exact iff_of_true rfl ⟨fun x _ => (amplified_one x).1, fun x _ => (amplified_one x).2⟩
  · have hscale := scale_append_iff ratio (block.samples.take block.frames)
      (block.samples.drop block.frames) ((block.samples.drop block.frames).map (amplified ratio))
    rw [List.take_append_drop, List.length_take, Nat.min_eq_left hframes, ← List.map_append,
      List.take_append_drop] at hscale
    rw [applyGain, if_pos hratio, hscale]
    refine and_congr_right fun _ => ⟨fun hsame x hx => ?_, fun hsame => ?_⟩
    · exact (List.map_inj_left.1 ((List.map_id _).trans hsame) x hx).symm
    · exact (List.map_id _).symm.trans (List.map_inj_left.2 fun x hx => (hsame x hx).symm)

/-- What an encoder is to be given: every sample amplified. -/
def amplifiedFrame (encoder : Encoder) (ratio : ℚ) (block : InputBlock) : Encoding :=
  .encode encoder (block.samples.map (amplified ratio)) block.frames

/-- An encoder is called with what the gain makes of the block. -/
theorem encodeFrame_eq_amplifiedFrame (encoder : Encoder) (ratio : ℚ) (block : InputBlock) :
    encodeFrame encoder.format ratio block.samples block.frames =
        amplifiedFrame encoder ratio block ↔
      applyGain ratio block.samples block.frames = some (block.samples.map (amplified ratio)) := by
  rw [encodeFrame, encoderOf_format, amplifiedFrame]
  cases applyGain ratio block.samples block.frames with
  | none => exact iff_of_false Encoding.noConfusion (Option.some_ne_none _).symm
  | some inbuf => simp only [Encoding.encode.injEq, true_and, and_true, Option.some.injEq]

/-- **The encoder gets the amplified block if and only if** the products of the samples that the
loop covers, as many as there are frames, are in range, rounding to single precision carries none of
them to another integer, and amplifying leaves the others as they are. -/
theorem encodeFrame_eq_iff (encoder : Encoder) (ratio : ℚ) (block : InputBlock) :
    encodeFrame encoder.format ratio block.samples block.frames =
        amplifiedFrame encoder ratio block ↔
      (∀ x ∈ block.samples.take block.frames, InRange ratio x ∧ Unrounded ratio x) ∧
      ∀ x ∈ block.samples.drop block.frames, amplified ratio x = x :=
  (encodeFrame_eq_amplifiedFrame encoder ratio block).trans (applyGain_eq_iff ratio block)

/-- The right sample of a stereo frame stays as it is at a gain of 2. -/
theorem encodeFrame_fails : ¬ ∀ (encoder : Encoder) (ratio : ℚ) (block : InputBlock), 0 < ratio →
    encodeFrame encoder.format ratio block.samples block.frames =
      amplifiedFrame encoder ratio block := by
  intro hall
  have h := hall .layer3 2 ⟨2, 1, [100, 100], .inr rfl, rfl⟩ two_pos
  rw [encodeFrame_eq_amplifiedFrame, applyGain_eq_iff] at h
  have hright : amplified 2 100 = 100 := h.2 100 (List.mem_singleton_self _)
  revert hright
  decide +kernel

end NetISDN

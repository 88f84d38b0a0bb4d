/-
# ALAC frames (`encodeAlacFrame_`)

A packet of an AirPlay 2 stream is one uncompressed ALAC frame: 23 bits of header, the samples, an
end tag, all packed most significant bit first, so that no sample begins at an octet.  The invariant
of the bit writer is that its finished octets and the bits of the current one are the bits that it
was given (`Holds`); an `n`-frame packet then is these bits and zeros up to the next octet, and
`decodeAlacUncompressed`, which reads bit by bit, finds the samples again (`encodeAlacFrame_decodes`).
-/
import AirplaySender.Lib.Bits
import AirplaySender.Streaming
import Mathlib.Algebra.Order.Floor.Div

namespace AirplaySender

open Octets

/-! ## 1. The bit writer -/

namespace BitWriter

/-- The writer has been given `bits`: some are in finished octets, the others in the current one. -/
def Holds (w : BitWriter) (bits : List Bool) : Prop :=
  ∃ pending, bits = octetBits w.out ++ pending ∧ pending.length = w.filled ∧ w.filled < 8 ∧
    w.cur.toNat = bitVal 0 pending

variable {w : BitWriter} {bits : List Bool}

theorem holds_empty : Holds {} [] := ⟨[], rfl, rfl, by decide, rfl⟩

/-- A bit comes in from the right. -/
theorem shiftIn_toNat {c : UInt8} (h : c.toNat < 2 ^ 7) (b : Bool) :
    (c <<< 1 ||| UInt8.ofNat b.toNat).toNat = 2 * c.toNat + b.toNat := by
  have hshift : (c <<< 1).toNat = 2 * c.toNat := by
    rw [UInt8.toNat_shiftLeft]
    change (c.toNat <<< 1) % 2 ^ 8 = 2 * c.toNat
    rw [Nat.shiftLeft_eq]
    omega
  have hbit : (UInt8.ofNat b.toNat).toNat = b.toNat := by cases b <;> rfl
  have hlt : b.toNat < 2 ^ 1 := by cases b <;> decide
  have hor := Nat.two_pow_add_eq_or_of_lt hlt c.toNat
  rw [UInt8.toNat_or, hshift, hbit, ← pow_one 2, ← hor]

theorem Holds.putBit (h : w.Holds bits) (b : Bool) : (w.putBit b.toNat).Holds (bits ++ [b]) := by
  obtain ⟨pending, rfl, hlen, hfilled, hcur⟩ := h
  have hlt : w.cur.toNat < 2 ^ 7 := by
    rw [hcur]
    exact lt_of_lt_of_le (bitVal_lt pending) (Nat.pow_le_pow_right (by decide) (by omega))
  have hvalue : (w.cur <<< 1 ||| UInt8.ofNat b.toNat).toNat = bitVal 0 (pending ++ [b]) := by
    rw [shiftIn_toNat hlt, hcur, bitVal_append]
    rfl
  unfold BitWriter.putBit
  by_cases hfull : w.filled + 1 = 8
  · -- the octet is finished
    have hoctet := octetBits_singleton (by rw [List.length_append, hlen]; exact hfull) hvalue
    rw [if_pos hfull]
    refine ⟨[], ?_, rfl, Nat.zero_lt_succ 7, rfl⟩
    rw [octetBits_append, hoctet, List.append_nil, List.append_assoc]
  · rw [if_neg hfull]
    refine ⟨pending ++ [b], List.append_assoc .., ?_, ?_, hvalue⟩
    · rw [List.length_append, hlen]
      rfl
    · change w.filled + 1 < 8
      omega

/-- `put` gives it the low bits of a value. -/
theorem Holds.put (value n : ℕ) (h : w.Holds bits) :
    (w.put value n).Holds (bits ++ msbBits n value) := by
  induction n generalizing w bits with
  | zero => rwa [msbBits, List.append_nil]
  | succ n ih =>
    have hbit := h.putBit (value.testBit n)
    rw [Nat.toNat_testBit] at hbit
    have hrest := ih hbit
    rwa [List.append_assoc] at hrest

/-- The zeros behind a number of bits, up to the next octet. -/
def padding (n : ℕ) : ℕ := 8 * (n ⌈/⌉ 8) - n

theorem padding_lt (n : ℕ) : padding n < 8 := by
  unfold padding
  rw [Nat.ceilDiv_eq_add_pred_div]
  omega

theorem padding_eq {n m : ℕ} (hm : m < 8) (hn : 8 ∣ n + m) : padding n = m := by
  unfold padding
  rw [Nat.ceilDiv_eq_add_pred_div]
  omega

/-- **The octets of a writer** are the bits it was given and zeros. -/
theorem Holds.finish (h : w.Holds bits) :
    octetBits w.finish = bits ++ List.replicate (padding bits.length) false := by
  obtain ⟨pending, rfl, hlen, hfilled, hcur⟩ := h
  have hzeros (m : ℕ) : bitVal (bitVal 0 pending) (List.replicate m false) =
      bitVal 0 pending * 2 ^ m := by
    induction m with
    | zero => simp [bitVal]
    | succ m ih =>
      rw [List.replicate_succ', bitVal_append, ih, pow_succ]
      change 2 * (bitVal 0 pending * 2 ^ m) + 0 = _
      ring
  unfold BitWriter.finish
  by_cases hpos : 0 < w.filled
  · have hpad : padding (octetBits w.out ++ pending).length = 8 - w.filled := by
      refine padding_eq (by omega) ?_
      rw [List.length_append, length_octetBits, hlen]
      omega
    have hshift : (w.cur <<< UInt8.ofNat (8 - w.filled)).toNat =
        bitVal 0 (pending ++ List.replicate (8 - w.filled) false) := by
      have hmod : (UInt8.ofNat (8 - w.filled)).toNat % 8 = 8 - w.filled := by
        rw [UInt8.toNat_ofNat']
        omega
      have hfit : bitVal 0 pending * 2 ^ (8 - w.filled) < 2 ^ 8 := by
        have hlt := bitVal_lt pending
        rw [hlen] at hlt
        calc bitVal 0 pending * 2 ^ (8 - w.filled)
            < 2 ^ w.filled * 2 ^ (8 - w.filled) := Nat.mul_lt_mul_of_pos_right hlt (by positivity)
          _ = 2 ^ 8 := by rw [← pow_add, Nat.add_sub_cancel' hfilled.le]
      rw [UInt8.toNat_shiftLeft, hmod, Nat.shiftLeft_eq, hcur, bitVal_append, hzeros,
        Nat.mod_eq_of_lt hfit]
    have hoctet := octetBits_singleton (by rw [List.length_append, List.length_replicate]; omega) hshift
    rw [if_pos hpos, octetBits_append, hoctet, hpad, List.append_assoc]
  · have hnil : pending = [] := List.length_eq_zero_iff.mp (by omega)
    have hpad : padding (octetBits w.out ++ pending).length = 0 := by
      refine padding_eq (by decide) ?_
      rw [hnil, List.append_nil, length_octetBits]
      omega
    rw [if_neg hpos, hpad, hnil, List.append_nil, List.replicate_zero, List.append_nil]

end BitWriter

/-! ## 2. The bits of a frame -/

/-- The 23 bits of the escape header. -/
def alacHeader : List Bool :=
  msbBits 3 1 ++ msbBits 4 0 ++ msbBits 12 0 ++ msbBits 1 0 ++ msbBits 2 0 ++ msbBits 1 1

/-- The bits of samples. -/
def sampleStream (samples : List Int16) : List Bool :=
  samples.flatMap fun x => msbBits 16 (sampleBits x)

/-- What the frame is about: header, samples and end tag. -/
def alacBits (samples : List Int16) : List Bool :=
  alacHeader ++ sampleStream samples ++ msbBits 3 7

theorem sampleStream_cons (x : Int16) (xs : List Int16) :
    sampleStream (x :: xs) = msbBits 16 (sampleBits x) ++ sampleStream xs :=
  List.flatMap_cons

@[simp] theorem length_alacHeader : alacHeader.length = 23 := rfl

@[simp] theorem length_sampleStream (samples : List Int16) :
    (sampleStream samples).length = 16 * samples.length := by
  induction samples with
  | nil => rfl
  | cons x xs ih =>
    rw [sampleStream_cons, List.length_append, length_msbBits, List.length_cons, ih]
    omega

theorem length_alacBits (samples : List Int16) :
    (alacBits samples).length = 26 + 16 * samples.length := by
  rw [alacBits, List.length_append, List.length_append, length_alacHeader, length_sampleStream,
    length_msbBits]
  omega

/-- The loop over the samples. -/
theorem holds_samples (samples : List Int16) {w : BitWriter} {bits : List Bool} (h : w.Holds bits) :
    (samples.foldl (fun w x => w.put (sampleBits x) 16) w).Holds (bits ++ sampleStream samples) := by
  induction samples generalizing w bits with
  | nil => simpa [sampleStream] using h
  | cons x xs ih =>
    rw [List.foldl_cons, sampleStream_cons, ← List.append_assoc]
    exact ih (h.put (sampleBits x) 16)

/-- **The bits of a frame**: header, samples, end tag, zeros. -/
theorem octetBits_encodeAlacFrame (samples : List Int16) :
    octetBits (encodeAlacFrame samples) = alacBits samples ++
      List.replicate (BitWriter.padding (alacBits samples).length) false := by
  have hheader := (((((BitWriter.holds_empty.put 1 3).put 0 4).put 0 12).put 0 1).put 0 2).put 1 1
  rw [List.nil_append, ← alacHeader] at hheader
  exact ((holds_samples samples hheader).put 7 3).finish

theorem length_encodeAlacFrame (samples : List Int16) :
    (encodeAlacFrame samples).length = (alacBits samples).length ⌈/⌉ 8 := by
  have hlen := congrArg List.length (octetBits_encodeAlacFrame samples)
  rw [length_octetBits, List.length_append, List.length_replicate, BitWriter.padding] at hlen
  have hle : (alacBits samples).length ≤ 8 * ((alacBits samples).length ⌈/⌉ 8) := by
    rw [Nat.ceilDiv_eq_add_pred_div]
    omega
  omega

/-! ## 3. The decoder -/

/-- `get` of the decoder: so many bits of a frame from position `bit` on, behind the value `v`, and
the position behind them; at most 16 at a time, so that the value does not wrap. -/
def getBits (frame : Octets) : ℕ → ℕ → ℕ → Option (ℕ × ℕ)
  | 0, bit, v => some (v, bit)
  | bits + 1, bit, v => do
    let o ← frame[bit / 8]?
    getBits frame bits (bit + 1) (2 * v + (o >>> UInt8.ofNat (7 - bit % 8) &&& 1).toNat)

/-- `get`, where only one value is right. -/
def expectBits (frame : Octets) (bits value bit : ℕ) : Option ℕ := do
  let (v, bit) ← getBits frame bits bit 0
  if v = value then some bit else none

/-- The sample loop of the decoder. -/
def getSamples (frame : Octets) : ℕ → ℕ → Option (List Int16 × ℕ)
  | 0, bit => some ([], bit)
  | n + 1, bit => do
    let (s, bit) ← getBits frame 16 bit 0
    let (rest, bit) ← getSamples frame n bit
    return ((UInt16.ofNat s).toInt16 :: rest, bit)

/-- `decodeAlacUncompressed`. -/
def decodeAlacUncompressed (frame : Octets) (nFrames : ℕ) : Option (List Int16) := do
  let bit ← expectBits frame 3 1 0
  let bit ← expectBits frame 4 0 bit
  let bit ← expectBits frame 12 0 bit
  let bit ← expectBits frame 1 0 bit
  let bit ← expectBits frame 2 0 bit
  let bit ← expectBits frame 1 1 bit
  let (pcm, bit) ← getSamples frame (nFrames * 2) bit
  let _ ← expectBits frame 3 7 bit
  return pcm

/-- `xs` stands in the bits of a frame from position `bit` on. -/
def StandsAt (frame : Octets) (bit : ℕ) (xs : List Bool) : Prop := xs <+: (octetBits frame).drop bit

variable {frame : Octets} {bit : ℕ} {xs ys : List Bool}

theorem StandsAt.left (h : StandsAt frame bit (xs ++ ys)) : StandsAt frame bit xs :=
  (List.prefix_append xs ys).trans h

theorem StandsAt.right (h : StandsAt frame bit (xs ++ ys)) : StandsAt frame (bit + xs.length) ys := by
  obtain ⟨rest, h⟩ := h
  refine ⟨rest, ?_⟩
  rw [← List.drop_drop, ← h, List.append_assoc, List.drop_left]

/-- One bit of an octet, as the decoder takes it. -/
theorem shiftOut_toNat (o : UInt8) {i : ℕ} (h : i < 8) :
    (o >>> UInt8.ofNat i &&& 1).toNat = (o.toNat.testBit i).toNat := by
  have hi : (UInt8.ofNat i).toNat % 8 = i := by
    rw [UInt8.toNat_ofNat']
    omega
  rw [UInt8.toNat_and, UInt8.toNat_shiftRight, hi, Nat.toNat_testBit, Nat.shiftRight_eq_div_pow]
  exact Nat.and_one_is_mod _

/-- `get` reads the bits that stand there. -/
theorem getBits_eq (h : StandsAt frame bit xs) (v : ℕ) :
    getBits frame xs.length bit v = some (bitVal v xs, bit + xs.length) := by
  induction xs generalizing bit v with
  | nil => rfl
  | cons b bs ih =>
    have hbit : (octetBits frame)[bit]? = some b := by
      obtain ⟨rest, h⟩ := h
      have hhead := congrArg (fun l => l[0]?) h
      rw [List.getElem?_drop] at hhead
      exact hhead.symm
    rw [octetBits_getElem?, Option.map_eq_some_iff] at hbit
    obtain ⟨o, hoctet, hb⟩ := hbit
    have htail : StandsAt frame (bit + 1) bs := by
      have hfirst : StandsAt frame bit ([b] ++ bs) := h
      exact hfirst.right
    rw [List.length_cons, getBits, hoctet, Option.bind_eq_bind, Option.bind_some,
      shiftOut_toNat o (by omega), hb, ih htail, bitVal]
    congr 2
    omega

theorem getBits_msbBits {w n : ℕ} (hn : n < 2 ^ w) (h : StandsAt frame bit (msbBits w n)) :
    getBits frame w bit 0 = some (n, bit + w) := by
  have hget := getBits_eq h 0
  rwa [length_msbBits, bitVal_msbBits_of_lt hn] at hget

theorem expectBits_eq {w n : ℕ} (hn : n < 2 ^ w) (h : StandsAt frame bit (msbBits w n)) :
    expectBits frame w n bit = some (bit + w) := by
  rw [expectBits, getBits_msbBits hn h, Option.bind_eq_bind, Option.bind_some]
  exact if_pos rfl

/-- The sample loop finds the samples that stand there. -/
theorem getSamples_eq (samples : List Int16) (h : StandsAt frame bit (sampleStream samples)) :
    getSamples frame samples.length bit = some (samples, bit + 16 * samples.length) := by
  induction samples generalizing bit with
  | nil => rfl
  | cons x xs ih =>
    have hfirst : getBits frame 16 bit 0 = some (sampleBits x, bit + 16) :=
      getBits_msbBits x.toUInt16.toNat_lt h.left
    have hrest : StandsAt frame (bit + 16) (sampleStream xs) := by
      have hright := h.right
      rwa [length_msbBits] at hright
    have hsample : (UInt16.ofNat (sampleBits x)).toInt16 = x := by
      rw [sampleBits, UInt16.ofNat_toNat, Int16.toInt16_toUInt16]
    have hend : bit + 16 + 16 * xs.length = bit + 16 * (xs.length + 1) := by omega
    rw [List.length_cons, getSamples, hfirst, Option.bind_eq_bind, Option.bind_some]
    simp only [ih hrest, hsample, hend, Option.bind_eq_bind, Option.bind_some]
    rfl

/-- A frame of these bits is decoded to these samples. -/
theorem decode_of_standsAt (samples : List Int16) {n : ℕ} (hlen : samples.length = 2 * n)
    (h : StandsAt frame 0 (alacBits samples)) :
    decodeAlacUncompressed frame n = some samples := by
  unfold alacBits alacHeader at h
  have h₁ := expectBits_eq (by decide) h.left.left.left.left.left.left.left
  have h₂ := expectBits_eq (by decide) h.left.left.left.left.left.left.right
  have h₃ := expectBits_eq (by decide) h.left.left.left.left.left.right
  have h₄ := expectBits_eq (by decide) h.left.left.left.left.right
  have h₅ := expectBits_eq (by decide) h.left.left.left.right
  have h₆ := expectBits_eq (by decide) h.left.left.right
  have h₇ := getSamples_eq samples h.left.right
  have h₈ := expectBits_eq (by decide) h.right
  simp only [List.length_append, length_msbBits, length_sampleStream, Nat.zero_add, Nat.reduceAdd]
    at h₁ h₂ h₃ h₄ h₅ h₆ h₇ h₈
  have hcount : samples.length = n * 2 := by omega
  rw [hcount] at h₇ h₈
  unfold decodeAlacUncompressed
  simp only [h₁, h₂, h₃, h₄, h₅, h₆, h₇, h₈, Option.bind_eq_bind, Option.bind_some]
  rfl

/-! ## 4. The round trip -/

theorem decode_encodeAlacFrame {n : ℕ} {samples : List Int16} (h : samples.length = 2 * n) :
    decodeAlacUncompressed (encodeAlacFrame samples) n = some samples := by
  refine decode_of_standsAt samples h ?_
  rw [StandsAt, octetBits_encodeAlacFrame]
  exact List.prefix_append _ _

/-- A frame of these samples: so many octets, these bits, and the decoder finds the samples. -/
structure AlacFrame (n : ℕ) (samples : List Int16) (frame : Octets) : Prop where
  octets : frame.length = (26 + 32 * n) ⌈/⌉ 8
  bits : ∃ zeros, zeros < 8 ∧ octetBits frame =
    alacHeader ++ sampleStream samples ++ msbBits 3 7 ++ List.replicate zeros false
  decoded : decodeAlacUncompressed frame n = some samples

/-- **ALAC round trip**: the frame of 2n samples has the octets for 26 + 32n bits, its bits are the
header, the samples, the end tag and zeros, and it is decoded to the samples. -/
theorem encodeAlacFrame_decodes (n : ℕ) (samples : List Int16) (h : samples.length = 2 * n) :
    AlacFrame n samples (encodeAlacFrame samples) where
  octets := by
    rw [length_encodeAlacFrame, length_alacBits, h]
    congr 1
    omega
  bits := ⟨_, BitWriter.padding_lt _, octetBits_encodeAlacFrame samples⟩
  decoded := decode_encodeAlacFrame h

/-- One frame of a negative and a positive sample. -/
theorem encodeAlacFrame_decodes_frame : AlacFrame 1 [-2, 300] (encodeAlacFrame [-2, 300]) :=
  encodeAlacFrame_decodes 1 [-2, 300] rfl

end AirplaySender

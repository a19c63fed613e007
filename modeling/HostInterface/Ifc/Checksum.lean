import HostInterface.Ifc.Packet
import HostInterface.Register

/-!
# The two checksums of 16 bits (`ll_ifc.c`, `ll_ifc_utils.c`)

`compute_checksum` takes a byte in five steps of a `uint16_t`; `crc16` takes it in eight,
one bit at a time, in an `int` that is left to run over and, where plain `char` is
signed, gets the sign of the byte in its high half. Both are the register of 16 bits that
shifts up with the pattern `0x1021` (`computeChecksum_eq`, `crc16_eq`): the high half of the
`int` never comes down, and what `compute_checksum` does with a byte depends only on its sum
with the high byte of the register, which leaves 256 cases.

So the two agree on every header and payload (`computeChecksum_eq_crc16`), and a frame
with its checksum leaves the register empty (`computeChecksum_eq_zero_iff`).
-/

namespace HostInterface.Ifc

open Register

/-- The pattern of both. -/
abbrev checksumPoly : U16 := 0x1021#16

/-! ## `compute_checksum` -/

theorem getLsbD_low_byte (i : Nat) : (0xff#16).getLsbD i = decide (i < 8) := by
  rw [show 0xff#16 = BitVec.ofNat 16 (2 ^ 8 - 1) from rfl, BitVec.getLsbD_ofNat,
    Nat.testBit_two_pow_sub_one]
  rcases Nat.lt_or_ge i 8 with h | h
  · simp [h, show i < 16 by omega]
  · simp [Nat.not_lt.mpr h]

/-- What has moved up is not in the low byte. -/
theorem low_byte (a m : U16) : ((a <<< 8) ^^^ m) &&& 0xff = m &&& 0xff := by
  apply BitVec.eq_of_getLsbD_eq
  intro i hi
  have hmask : (0xff : U16).getLsbD i = decide (i < 8) := getLsbD_low_byte i
  rw [BitVec.getLsbD_and, BitVec.getLsbD_and, BitVec.getLsbD_xor, BitVec.getLsbD_shiftLeft, hmask]
  rcases Nat.lt_or_ge i 8 with h | h
  · simp [h]
  · simp [Nat.not_lt.mpr h]

/-- The byte meets the high byte of the register; the low one moves up. -/
theorem checksumByte_split (crc : U16) (b : U8) :
    checksumByte crc b = (crc <<< 8) ^^^ checksumByte 0 ((crc >>> 8).setWidth 8 ^^^ b) := by
  have hfeed : ((crc >>> 8) ||| (crc <<< 8)) ^^^ b.setWidth 16 =
      (crc <<< 8) ^^^ ((crc >>> 8).setWidth 8 ^^^ b).setWidth 16 := by
    apply BitVec.eq_of_getLsbD_eq
    intro i hi
    simp only [BitVec.getLsbD_xor, BitVec.getLsbD_or, BitVec.getLsbD_shiftLeft,
      BitVec.getLsbD_setWidth, BitVec.getLsbD_ushiftRight]
    rcases Nat.lt_or_ge i 8 with h | h
    · simp [h, hi]
    · simp [Nat.not_lt.mpr h, hi, BitVec.getLsbD_of_ge crc (8 + i) (by omega)]
  have hzero : ((0 : U16) >>> 8 ||| (0 : U16) <<< 8) = 0#16 := rfl
  have hgone : ∀ y : U16, ((crc <<< 8) ^^^ y) <<< 12 = y <<< 12 := by
    intro y
    have : (crc <<< 8) <<< 12 = 0#16 := by
      rw [← BitVec.shiftLeft_add]
      exact BitVec.shiftLeft_eq_zero (by decide)
    rw [BitVec.shiftLeft_xor_distrib, this, BitVec.zero_xor]
  unfold checksumByte
  simp only [hfeed, hzero, BitVec.zero_xor]
  simp only [BitVec.xor_assoc, low_byte, hgone]

/-- The 256 cases. -/
theorem checksumByte_zero (b : U8) : checksumByte 0 b = feedItemUp checksumPoly 0#16 b := by
  revert b
  decide +kernel

theorem checksumByte_eq : checksumByte = feedItemUp checksumPoly := by
  funext crc b
  rw [checksumByte_split, feedItemUp_split (by decide), checksumByte_zero]

/-- `compute_checksum` is a register that shifts up. -/
theorem computeChecksum_eq (hdr payload : List U8) :
    computeChecksum hdr payload = feedUp checksumPoly 0#16 (hdr ++ payload) := by
  unfold computeChecksum feedUp
  rw [List.foldl_append, checksumByte_eq]
  rfl

/-! ## `crc16` -/

/-- The low half of the `int` takes one shift. -/
theorem crc16Bit_low (crc : U32) :
    (crc16Bit crc).setWidth 16 = shiftUp checksumPoly (crc.setWidth 16) := by
  have hbit : crc &&& 0x8000#32 ≠ 0#32 ↔ (crc.setWidth 16).msb = true := by
    rw [BitVec.msb_setWidth, show 0x8000#32 = BitVec.twoPow 32 15 from rfl, BitVec.and_twoPow]
    cases crc.getLsbD 15
    · decide
    · decide
  have hmove : (crc <<< 1).setWidth 16 = crc.setWidth 16 <<< 1 :=
    BitVec.setWidth_shiftLeft_of_le (by decide)
  unfold crc16Bit shiftUp
  by_cases h : (crc.setWidth 16).msb = true
  · rw [if_pos (hbit.mpr h), if_pos h, BitVec.setWidth_xor, hmove]
    rfl
  · rw [if_neg (mt hbit.mp h), if_neg h, BitVec.xor_zero, hmove]

theorem crc16Turns_low (turns : List Nat) (crc : U32) :
    (turns.foldl (fun crc _ => crc16Bit crc) crc).setWidth 16 =
      shiftsUp checksumPoly turns.length (crc.setWidth 16) := by
  induction turns generalizing crc with
  | nil => rfl
  | cons _ turns ih => rw [List.foldl_cons, ih, crc16Bit_low, List.length_cons, shiftsUp]

/-- Mixed in eight bits up, a signed and an unsigned `char` differ in the high half only. -/
theorem toInt_low (char : PlainChar) (c : U8) :
    (char.toInt c <<< 8).setWidth 16 = c.setWidth 16 <<< 8 := by
  apply BitVec.eq_of_getLsbD_eq
  intro i hi
  rw [BitVec.getLsbD_setWidth, BitVec.getLsbD_shiftLeft, BitVec.getLsbD_shiftLeft,
    BitVec.getLsbD_setWidth]
  rcases Nat.lt_or_ge i 8 with h | h
  · simp [h]
  · -- Bits 8 to 15 of the sum are those of the byte, whatever is above them.
    have hlow : (char.toInt c).getLsbD (i - 8) = c.getLsbD (i - 8) := by
      cases char
      · exact (BitVec.getLsbD_signExtend ..).trans (by simp [show i - 8 < 8 by omega]; omega)
      · exact (BitVec.getLsbD_setWidth ..).trans (by simp; omega)
    rw [hlow]
    simp [Nat.not_lt.mpr h, hi, show i < 32 by omega, show i - 8 < 16 by omega]

theorem crc16Byte_low (char : PlainChar) (crc : U32) (c : U8) :
    (crc16Byte char crc c).setWidth 16 = feedItemUp checksumPoly (crc.setWidth 16) c := by
  unfold crc16Byte feedItemUp
  rw [crc16Turns_low, BitVec.setWidth_xor, toInt_low]
  rfl

/-- `crc16` is the same register. -/
theorem crc16_eq (char : PlainChar) (bytes : List U8) :
    crc16 char bytes = feedUp checksumPoly 0#16 bytes := by
  have hrun : ∀ crc : U32, (bytes.foldl (crc16Byte char) crc).setWidth 16 =
      feedUp checksumPoly (crc.setWidth 16) bytes := by
    induction bytes with
    | nil => exact fun crc => rfl
    | cons b bytes ih =>
      intro crc
      rw [List.foldl_cons, ih, crc16Byte_low]
      rfl
  exact hrun 0#32

/-- **The two checksums agree**, whatever a plain `char` is. -/
theorem computeChecksum_eq_crc16 (char : PlainChar) (hdr payload : List U8) :
    computeChecksum hdr payload = crc16 char (hdr ++ payload) := by
  rw [computeChecksum_eq, crc16_eq]

/-! ## A checksum behind what it covers -/

/-- A register is emptied by its own two bytes, and by no others. -/
theorem computeChecksum_eq_zero_iff (hdr payload : List U8) (hi lo : U8) :
    computeChecksum hdr (payload ++ [hi, lo]) = 0 ↔
      fromBe16 hi lo = computeChecksum hdr payload := by
  have hsplit : ∀ hi lo : U8, computeChecksum hdr (payload ++ [hi, lo]) =
      feedUp checksumPoly (computeChecksum hdr payload) [hi, lo] := by
    intro hi lo
    unfold computeChecksum feedUp
    rw [List.foldl_append, checksumByte_eq]
  rw [hsplit]
  generalize computeChecksum hdr payload = crc
  have hown : feedUp checksumPoly crc (be16 crc) = 0#16 := by
    show feedItemUp checksumPoly (feedItemUp checksumPoly crc ((crc >>> 8).setWidth 8))
      (crc.setWidth 8) = 0#16
    have hzero : feedItemUp checksumPoly 0#16 0#8 = 0#16 := by decide
    have hgone : (crc <<< 8) <<< 8 = 0#16 := by
      rw [← BitVec.shiftLeft_add]
      exact BitVec.shiftLeft_eq_zero (by decide)
    have hback : ((crc <<< 8) >>> (16 - 8)).setWidth 8 = crc.setWidth 8 := by
      apply BitVec.eq_of_getLsbD_eq
      intro i hi
      rw [BitVec.getLsbD_setWidth, BitVec.getLsbD_ushiftRight, BitVec.getLsbD_shiftLeft,
        BitVec.getLsbD_setWidth, show 16 - 8 + i - 8 = i by omega]
      simp [hi]
      omega
    rw [feedItemUp_split (by decide) _ crc, BitVec.xor_self, hzero, BitVec.xor_zero,
      feedItemUp_split (by decide), hgone, hback, BitVec.xor_self, hzero, BitVec.xor_zero]
  constructor
  · intro h
    by_contra hne
    have hbytes : [hi, lo] ≠ be16 crc := by
      intro heq
      refine hne ?_
      have := congrArg (fun l : List U8 => fromBe16 (l.getD 0 0) (l.getD 1 0)) heq
      exact this.trans (fromBe16_be16 crc)
    have hsame : ∀ j, j < (be16 crc).length → j < 0 ∨ 0 + 2 ≤ j →
        [hi, lo][j]? = (be16 crc)[j]? := by
      intro j hj hout
      have hj : j < 2 := hj
      omega
    have hlen : [hi, lo].length = (be16 crc).length := rfl
    have hdiffer : feedUp checksumPoly crc [hi, lo] ≠ feedUp checksumPoly crc (be16 crc) :=
      feedUp_window (by decide) (by decide) (show 8 * 2 ≤ 16 by decide) hlen hsame hbytes crc
    exact hdiffer (h.trans hown.symm)
  · rintro rfl
    rw [be16_fromBe16] at hown
    exact hown

end HostInterface.Ifc

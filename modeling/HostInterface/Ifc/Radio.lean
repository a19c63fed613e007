import HostInterface.Ifc.Setter

/-!
# Radio parameters there and back (`ll_ifc_no_mac.c`)

`ll_radio_params_set` packs the fields whose flags are set into four bytes with fields of
different widths and two numbers, and leaves the others zero. Decoded as `ll_radio_params_get`
decodes an answer, each field has the value it was given, or that of zero bits
(`radioParamsSet_roundTrip`).
-/

namespace HostInterface.Ifc

open Interact Prog

/-- Every flagged field with a range is in it. -/
def RadioInRange (flags sf cr bw : U8) : Prop :=
  (flags &&& radioParamFlagsSf ≠ 0 → 6 ≤ sf ∧ sf ≤ 12) ∧
    (flags &&& radioParamFlagsCr ≠ 0 → 1 ≤ cr ∧ cr ≤ 4) ∧
    (flags &&& radioParamFlagsBw ≠ 0 → bw ≤ 3)

/-- What is decoded are the flagged fields, and the others from zero bits. -/
structure RadioDecoded (flags sf cr bw : U8) (freq : U32) (preambleSyms : U16)
    (enableHeader enableCrc enableIqInversion : U8) (p : RadioParams) : Prop where
  sf : p.sf = if flags &&& radioParamFlagsSf ≠ 0 then sf else 6
  cr : p.cr = if flags &&& radioParamFlagsCr ≠ 0 then cr else 1
  bw : p.bw = if flags &&& radioParamFlagsBw ≠ 0 then bw else 0
  freq : p.freq = if flags &&& radioParamFlagsFreq ≠ 0 then freq else 0
  preambleSyms :
    p.preambleSyms = if flags &&& radioParamFlagsPreamble ≠ 0 then preambleSyms else 0
  headerEnabled :
    p.headerEnabled ≠ 0 ↔ flags &&& radioParamFlagsHeader ≠ 0 ∧ enableHeader ≠ 0
  crcEnabled : p.crcEnabled ≠ 0 ↔ flags &&& radioParamFlagsCrc ≠ 0 ∧ enableCrc ≠ 0
  iqInverted : p.iqInverted ≠ 0 ↔ flags &&& radioParamFlagsIq ≠ 0 ∧ enableIqInversion ≠ 0

/-! ## Packed bytes -/

/-- Three fields side by side in a byte. -/
theorem fields_apart {x y z : U8} (hx : x < 16) (hy : y < 4) (hz : z < 4) :
    ((x <<< 4) ||| (y <<< 2) ||| z) >>> 4 = x ∧
      ((((x <<< 4) ||| (y <<< 2) ||| z) >>> 2) &&& 0x03) = y ∧
      (((x <<< 4) ||| (y <<< 2) ||| z) &&& 0x03) = z := by
  have hsmall : ∀ (x : BitVec 4) (y z : BitVec 2),
      let b := (x.setWidth 8 <<< 4) ||| (y.setWidth 8 <<< 2) ||| z.setWidth 8
      b >>> 4 = x.setWidth 8 ∧ (b >>> 2) &&& 0x03 = y.setWidth 8 ∧ b &&& 0x03 = z.setWidth 8 := by
    decide +kernel
  have hx' : (x.setWidth 4).setWidth 8 = x := by bv_omega
  have hy' : (y.setWidth 2).setWidth 8 = y := by bv_omega
  have hz' : (z.setWidth 2).setWidth 8 = z := by bv_omega
  have h := hsmall (x.setWidth 4) (y.setWidth 2) (z.setWidth 2)
  rw [hx', hy', hz'] at h
  exact h

theorem sf_kept : ∀ sf : U8, 6 ≤ sf ∧ sf ≤ 12 → ((sf - 6) &&& 0x07) + 6 = sf := by
  decide +kernel

theorem cr_kept : ∀ cr : U8, 1 ≤ cr ∧ cr ≤ 4 → ((cr - 1) &&& 0x03) + 1 = cr := by
  decide +kernel

theorem bw_kept : ∀ bw : U8, bw ≤ 3 → bw &&& 0x03 = bw := by
  decide +kernel

theorem masked_lt : ∀ x : U8, (x &&& 0x07) < 16 ∧ (x &&& 0x03) < 4 := by
  decide +kernel

/-- The two numbers, put together again from their bytes, high byte first. -/
theorem bytes_joined16 (x : U16) :
    (((x >>> 8).setWidth 8).setWidth 16 <<< 8) ||| ((x >>> 0).setWidth 8).setWidth 16 = x := by
  rw [BitVec.ushiftRight_zero, BitVec.or_comm]
  exact u16FromBytestream_le16 x []

theorem bytes_joined32 (x : U32) :
    (((x >>> 24).setWidth 8).setWidth 32 <<< 24) |||
      (((x >>> 16).setWidth 8).setWidth 32 <<< 16) |||
      (((x >>> 8).setWidth 8).setWidth 32 <<< 8) ||| (x.setWidth 8).setWidth 32 = x := by
  refine Eq.trans ?_ (u32FromBytestream_le32 x [])
  show _ = (x.setWidth 8).setWidth 32 ||| (((x >>> 8).setWidth 8).setWidth 32 <<< 8) |||
    (((x >>> 16).setWidth 8).setWidth 32 <<< 16) ||| (((x >>> 24).setWidth 8).setWidth 32 <<< 24)
  -- The other way round, whatever the four are.
  generalize (x.setWidth 8).setWidth 32 = a, ((x >>> 8).setWidth 8).setWidth 32 <<< 8 = b,
    ((x >>> 16).setWidth 8).setWidth 32 <<< 16 = c, ((x >>> 24).setWidth 8).setWidth 32 <<< 24 = d
  ac_rfl

/-- A field with a range, put into a byte where it is flagged. -/
theorem guarded_field {F Bad : Prop} [Decidable F] [Decidable Bad] {b x : U8} (h : F → ¬ Bad) :
    (if F then if Bad then none else some (b ||| x) else some b) =
      some (b ||| if F then x else 0) := by
  by_cases hF : F
  · rw [if_pos hF, if_neg (h hF), if_pos hF]
  · rw [if_neg hF, if_neg hF]
    exact congrArg some (BitVec.or_zero).symm

theorem guarded_none {F Bad : Prop} [Decidable F] [Decidable Bad] {b x : U8} (h : ¬ (F → ¬ Bad)) :
    (if F then if Bad then none else some (b ||| x) else some b) = none := by
  obtain ⟨hF, hBad⟩ := Classical.not_imp.mp h
  rw [if_pos hF, if_pos (Decidable.not_not.mp hBad)]

section Buf

variable {flags sf cr bw : U8} {freq : U32} {preambleSyms : U16}
  {enableHeader enableCrc enableIqInversion : U8}

/-- The ranges, as they are tested. -/
theorem radioInRange_iff : RadioInRange flags sf cr bw ↔
    (flags &&& radioParamFlagsSf ≠ 0 → ¬ (sf < 6 ∨ sf > 12)) ∧
      (flags &&& radioParamFlagsCr ≠ 0 → ¬ (cr < 1 ∨ cr > 4)) ∧
      (flags &&& radioParamFlagsBw ≠ 0 → ¬ bw > 3) := by
  have hsf : 6 ≤ sf ∧ sf ≤ 12 ↔ ¬ (sf < 6 ∨ sf > 12) := by bv_omega
  have hcr : 1 ≤ cr ∧ cr ≤ 4 ↔ ¬ (cr < 1 ∨ cr > 4) := by bv_omega
  have hbw : bw ≤ 3 ↔ ¬ bw > 3 := by bv_omega
  unfold RadioInRange
  rw [hsf, hcr, hbw]

theorem radioParamsBuf_none (h : ¬ RadioInRange flags sf cr bw) :
    radioParamsBuf flags sf cr bw freq preambleSyms enableHeader enableCrc enableIqInversion =
      none := by
  rw [radioInRange_iff] at h
  unfold radioParamsBuf
  dsimp only
  by_cases h₁ : flags &&& radioParamFlagsSf ≠ 0 → ¬ (sf < 6 ∨ sf > 12)
  · rw [guarded_field h₁]
    by_cases h₂ : flags &&& radioParamFlagsCr ≠ 0 → ¬ (cr < 1 ∨ cr > 4)
    · have h₃ : ¬ (flags &&& radioParamFlagsBw ≠ 0 → ¬ bw > 3) := fun h₃ => h ⟨h₁, h₂, h₃⟩
      show ((if flags &&& radioParamFlagsCr ≠ 0 then _ else _ : Option U8) >>= _) = _
      rw [guarded_field h₂]
      show ((if flags &&& radioParamFlagsBw ≠ 0 then _ else _ : Option U8) >>= _) = _
      rw [guarded_none h₃]
      rfl
    · show ((if flags &&& radioParamFlagsCr ≠ 0 then _ else _ : Option U8) >>= _) = _
      rw [guarded_none h₂]
      rfl
  · rw [guarded_none h₁]
    rfl

/-- The first byte behind the flags: three fields. -/
def fieldsByte (flags sf cr bw : U8) : U8 :=
  0 ||| (if flags &&& radioParamFlagsSf ≠ 0 then ((sf - 6) &&& 0x07) <<< 4 else 0) |||
    (if flags &&& radioParamFlagsCr ≠ 0 then ((cr - 1) &&& 0x03) <<< 2 else 0) |||
    (if flags &&& radioParamFlagsBw ≠ 0 then bw &&& 0x03 else 0)

/-- The second one: three switches. -/
def switchesByte (header crc iq : Prop) [Decidable header] [Decidable crc] [Decidable iq] : U8 :=
  let buf2 : U8 := 0
  let buf2 := if header then buf2 ||| (1 : U8) <<< 0 else buf2
  let buf2 := if crc then buf2 ||| (1 : U8) <<< 1 else buf2
  if iq then buf2 ||| (1 : U8) <<< 2 else buf2

theorem radioParamsBuf_some (h : RadioInRange flags sf cr bw) :
    ∃ buf, radioParamsBuf flags sf cr bw freq preambleSyms enableHeader enableCrc
        enableIqInversion = some buf ∧
      let preamble : U8 × U8 :=
        if flags &&& radioParamFlagsPreamble ≠ 0 then
          ((preambleSyms >>> 8).setWidth 8, (preambleSyms >>> 0).setWidth 8)
        else (0, 0)
      let frequency : U8 × U8 × U8 × U8 :=
        if flags &&& radioParamFlagsFreq ≠ 0 then
          ((freq >>> 24).setWidth 8, (freq >>> 16).setWidth 8, (freq >>> 8).setWidth 8,
            freq.setWidth 8)
        else (0, 0, 0, 0)
      buf.bytes = [flags, fieldsByte flags sf cr bw,
        switchesByte (flags &&& radioParamFlagsHeader ≠ 0 ∧ enableHeader ≠ 0)
          (flags &&& radioParamFlagsCrc ≠ 0 ∧ enableCrc ≠ 0)
          (flags &&& radioParamFlagsIq ≠ 0 ∧ enableIqInversion ≠ 0),
        preamble.1, preamble.2, frequency.1, frequency.2.1, frequency.2.2.1, frequency.2.2.2] := by
  obtain ⟨h₁, h₂, h₃⟩ := radioInRange_iff.mp h
  unfold radioParamsBuf
  dsimp only
  rw [guarded_field h₁]
  show ∃ buf, ((if flags &&& radioParamFlagsCr ≠ 0 then _ else _ : Option U8) >>= _) = _ ∧ _
  rw [guarded_field h₂]
  show ∃ buf, ((if flags &&& radioParamFlagsBw ≠ 0 then _ else _ : Option U8) >>= _) = _ ∧ _
  rw [guarded_field h₃]
  exact ⟨_, rfl, rfl⟩

theorem fieldsByte_fields (h : RadioInRange flags sf cr bw) :
    (fieldsByte flags sf cr bw >>> 4) + 6 =
        (if flags &&& radioParamFlagsSf ≠ 0 then sf else 6) ∧
      ((fieldsByte flags sf cr bw >>> 2) &&& 0x03) + 1 =
        (if flags &&& radioParamFlagsCr ≠ 0 then cr else 1) ∧
      fieldsByte flags sf cr bw &&& 0x03 =
        (if flags &&& radioParamFlagsBw ≠ 0 then bw else 0) := by
  obtain ⟨h₁, h₂, h₃⟩ := h
  have hbyte : fieldsByte flags sf cr bw =
      ((if flags &&& radioParamFlagsSf ≠ 0 then (sf - 6) &&& 0x07 else 0) <<< 4) |||
        ((if flags &&& radioParamFlagsCr ≠ 0 then (cr - 1) &&& 0x03 else 0) <<< 2) |||
        (if flags &&& radioParamFlagsBw ≠ 0 then bw &&& 0x03 else 0) := by
    have hzero : ∀ {F : Prop} [Decidable F] (x : U8) (n : Nat),
        (if F then x <<< n else 0) = (if F then x else 0) <<< n := by
      intro F _ x n
      split
      next => rfl
      next => exact (BitVec.zero_shiftLeft n).symm
    unfold fieldsByte
    rw [hzero, hzero]
    exact congrArg (· ||| _ ||| _) BitVec.zero_or
  have hlt : ∀ {F : Prop} [Decidable F] {x m : U8}, x < m → 0 < m → (if F then x else 0) < m := by
    intro F _ x m hx hm
    split
    next => exact hx
    next => exact hm
  obtain ⟨hx, hy, hz⟩ := fields_apart
    (@hlt (flags &&& radioParamFlagsSf ≠ 0) _ _ _ (masked_lt (sf - 6)).1 (by decide))
    (@hlt (flags &&& radioParamFlagsCr ≠ 0) _ _ _ (masked_lt (cr - 1)).2 (by decide))
    (@hlt (flags &&& radioParamFlagsBw ≠ 0) _ _ _ (masked_lt bw).2 (by decide))
  rw [hbyte, hx, hy, hz]
  refine ⟨?_, ?_, ?_⟩
  · split
    next hF => exact sf_kept sf (h₁ hF)
    next => rfl
  · split
    next hF => exact cr_kept cr (h₂ hF)
    next => rfl
  · split
    next hF => exact bw_kept bw (h₃ hF)
    next => rfl

theorem switchesByte_switches {header crc iq : Prop} [Decidable header] [Decidable crc]
    [Decidable iq] :
    (switchesByte header crc iq &&& (1 : U8) <<< 0 ≠ 0 ↔ header) ∧
      (switchesByte header crc iq &&& (1 : U8) <<< 1 ≠ 0 ↔ crc) ∧
      (switchesByte header crc iq &&& (1 : U8) <<< 2 ≠ 0 ↔ iq) := by
  unfold switchesByte
  by_cases hh : header <;> by_cases hc : crc <;> by_cases hi : iq <;> simp [hh, hc, hi]

/-- What has been packed is decoded. -/
theorem radioParams_decoded (h : RadioInRange flags sf cr bw) {buf : Local (9 : U16).toNat}
    (hbuf : radioParamsBuf flags sf cr bw freq preambleSyms enableHeader enableCrc
      enableIqInversion = some buf) :
    RadioDecoded flags sf cr bw freq preambleSyms enableHeader enableCrc enableIqInversion
      (radioParams (buf.bytes.drop 1)) := by
  obtain ⟨buf', hbuf', hbytes⟩ := @radioParamsBuf_some flags sf cr bw freq preambleSyms
    enableHeader enableCrc enableIqInversion h
  obtain rfl := Option.some.inj (hbuf.symm.trans hbuf')
  obtain ⟨hsf, hcr, hbw⟩ := fieldsByte_fields h
  dsimp only at hbytes
  rw [hbytes]
  refine ⟨hsf, hcr, hbw, ?_, ?_, switchesByte_switches.1, switchesByte_switches.2.1,
    switchesByte_switches.2.2⟩
  · by_cases hF : flags &&& radioParamFlagsFreq ≠ 0
    · rw [if_pos hF, if_pos hF]
      exact bytes_joined32 freq
    · rw [if_neg hF, if_neg hF]
      show ((0 : U8).setWidth 32 <<< 24) ||| ((0 : U8).setWidth 32 <<< 16) |||
        ((0 : U8).setWidth 32 <<< 8) ||| (0 : U8).setWidth 32 = 0#32
      decide
  · by_cases hF : flags &&& radioParamFlagsPreamble ≠ 0
    · rw [if_pos hF, if_pos hF]
      exact bytes_joined16 preambleSyms
    · rw [if_neg hF, if_neg hF]
      show ((0 : U8).setWidth 16 <<< 8) ||| (0 : U8).setWidth 16 = 0#16
      decide

end Buf

/-- What a setter does is not only listening. -/
theorem setter_writes (fuel : Nat) (checksumBuff : List U8) (messageNum : U32) (op : U8)
    (sent : Sent) : ¬ (setter fuel checksumBuff messageNum op sent).Only Listens := by
  unfold setter halReadWrite
  have hin : badBuffer (order op sent).bufIn (order op sent).inLen = false := sent.valid
  have hout : badBuffer (order op sent).bufOut (order op sent).outLen = false := nothing_valid
  rw [hin, hout, if_neg Bool.false_ne_true, if_neg Bool.false_ne_true]
  intro h
  exact (Only.of_bind_left (Only.of_bind_left h)).1

/-- **Radio parameters there and back**: nothing is sent exactly where a flagged field is out of
its range; otherwise a payload is from which every flagged field is decoded as it was given, and
every other one as from zero bits. -/
theorem radioParamsSet_roundTrip (fuel : Nat) (checksumBuff : List U8) (messageNum : U32)
    (flags sf cr bw : U8) (freq : U32) (preambleSyms : U16)
    (enableHeader enableCrc enableIqInversion : U8) :
    ((llRadioParamsSet fuel checksumBuff messageNum flags sf cr bw freq preambleSyms enableHeader
        enableCrc enableIqInversion).Only Listens ↔ ¬ RadioInRange flags sf cr bw) ∧
      (RadioInRange flags sf cr bw → ∃ payload : Local (9 : U16).toNat,
        llRadioParamsSet fuel checksumBuff messageNum flags sf cr bw freq preambleSyms
            enableHeader enableCrc enableIqInversion =
          setter fuel checksumBuff messageNum 10 (.all payload (by decide)) ∧
        RadioDecoded flags sf cr bw freq preambleSyms enableHeader enableCrc enableIqInversion
          (radioParams (payload.bytes.drop 1))) := by
  unfold llRadioParamsSet
  by_cases h : RadioInRange flags sf cr bw
  · obtain ⟨buf, hbuf, -⟩ := @radioParamsBuf_some flags sf cr bw freq preambleSyms enableHeader
      enableCrc enableIqInversion h
    rw [hbuf]
    exact ⟨iff_of_false (setter_writes _ _ _ _ _) (not_not_intro h),
      fun _ => ⟨buf, rfl, radioParams_decoded h hbuf⟩⟩
  · rw [radioParamsBuf_none h]
    exact ⟨iff_of_true trivial h, fun hin => absurd hin h⟩

end HostInterface.Ifc

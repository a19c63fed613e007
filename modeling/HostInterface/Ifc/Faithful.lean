import HostInterface.Ifc.Disclosure

/-!
# The queries that do more

`ll_packet_send_queue` returns the byte it has received, and casts an error to
`int8_t`: the code of a NACK from 129 on becomes positive. A NACK is not read into the
buffer, but its checksum is computed over it, so whether such a code is returned can depend on
what the buffer held before; `Narrowed` is a stream on which it does.

`ll_config_get` makes four queries and stops at the first that fails. Its downlink mode
is an enumeration of `size` bytes, and one byte is stored.

`getters_faithful_iff` collects what the streams are like to which each query is faithful.
-/

namespace HostInterface.Ifc

open Interact Prog Reader

/-! ## `ll_packet_send_queue` -/

theorem int8_small {x : Int} (h : -128 ≤ x) (hneg : x < 0) : int8 x = x := by
  unfold int8
  rw [BitVec.toInt_ofInt, Int.bmod_eq_of_le (by omega) (by omega)]

/-- The codes of a NACK that become positive. -/
theorem int8_nack (b : U8) (h : b ≠ 0) : 0 ≤ int8 (-(b.toNat : Int)) ↔ 129 ≤ b.toNat := by
  have hpos : b.toNat ≠ 0 := fun hzero => h (BitVec.eq_of_toNat_eq hzero)
  have hlt := b.isLt
  by_cases hsmall : b.toNat ≤ 128
  · rw [int8_small (by omega) (by omega)]
    omega
  · refine iff_of_true ?_ (by omega)
    unfold int8
    rw [BitVec.toInt_ofInt, Int.bmod]
    omega

theorem ack_ne_zero {b : U8} (h : 129 ≤ b.toNat) : b ≠ 0 := by
  rintro rfl
  exact absurd h (by decide)

/-- The lowest bit of a checksum, from the last byte. -/
theorem checksumByte_low (crc : U16) (b : U8) :
    (checksumByte crc b).getLsbD 0 =
      ((crc.getLsbD 8 ^^ b.getLsbD 0) ^^ (crc.getLsbD 12 ^^ b.getLsbD 4)) := by
  unfold checksumByte
  simp

/-- The checksum of one byte depends on the byte. -/
theorem computeChecksum_flip (hdr : List U8) (x : U8) :
    computeChecksum hdr [x ^^^ 1] ≠ computeChecksum hdr [x] := by
  intro h
  have hlow := congrArg (fun sum => sum.getLsbD 0) h
  unfold computeChecksum at hlow
  simp only [List.foldl_cons, List.foldl_nil] at hlow
  rw [checksumByte_low, checksumByte_low] at hlow
  simp at hlow

/-- The first header is that of a NACK with a code that becomes positive. It fits, and the stream
ends before its checksum does, or its checksum is right for some content of the byte that it
declares. -/
def Narrowed (B : List U8) : Prop :=
  ∃ hd tail, Heads B hd tail ∧ 129 ≤ hd.ack.toNat ∧ hd.len ≤ 1 ∧
    (tail.length < 2 ∨ hd.len = 1 ∧ ∃ x hi lo rest, tail = hi :: lo :: rest ∧
      fromBe16 hi lo = computeChecksum hd.bytes [x])

/-- What `ll_packet_send_queue` makes of the result and the byte. -/
def queueResult (rw : Int × Option (List U8)) : Int :=
  if rw.1 < 0 then int8 rw.1 else (((rw.2.getD []).getD 0 0).toNat : Int)

section Queue

variable {clock : Nat → Int × Time} {starve : Starve} {messageNum : U32} {B : List U8}
  {buf : Option (List U8)} {len : U16} {hfits : ∀ b, buf = some b → len.toNat ≤ b.length}

theorem sendQueue_ends_iff (h : ¬ (buf.isNone = true ∨ len = 0)) {fuel : Nat}
    {checksumBuff : List U8} {cmdResponse : Local (1 : U16).toNat} {s s' : Stream}
    {r : Int × U32} :
    Ends (stream clock starve)
        (llPacketSendQueue fuel checksumBuff messageNum cmdResponse buf len hfits) s r s' ↔
      ∃ ret messageNum', Ends (stream clock starve)
          (halReadWrite fuel checksumBuff messageNum
            (query 11 ⟨buf, len, hfits, badBuffer_eq_false h⟩ 1 cmdResponse (Nat.le_refl _))) s
          (ret, messageNum') s' ∧ r = (queueResult ret, messageNum') := by
  unfold llPacketSendQueue
  rw [dif_neg h, ends_bind]
  constructor
  · intro hr
    obtain ⟨⟨ret, messageNum'⟩, s₁, h₁, h₂⟩ := hr
    refine ⟨ret, messageNum', ?_⟩
    unfold queueResult
    dsimp only at h₂
    split at h₂
    next hneg =>
      obtain ⟨rfl, rfl⟩ := ends_done.mp h₂
      rw [if_pos hneg]
      exact ⟨h₁, rfl⟩
    next hneg =>
      obtain ⟨rfl, rfl⟩ := ends_done.mp h₂
      rw [if_neg hneg]
      exact ⟨h₁, rfl⟩
  · rintro ⟨ret, messageNum', h₁, rfl⟩
    refine ⟨(ret, messageNum'), s', h₁, ?_⟩
    unfold queueResult
    dsimp only
    split
    next => exact .done _ _
    next => exact .done _ _

/-- An error of the host interface stays negative. -/
theorem int8_error {code : Int} (h : -113 ≤ code ∧ code ≤ -101) : ¬ 0 ≤ int8 code := by
  rw [int8_small (by omega) (by omega)]
  omega

/-- An error that becomes positive is the code of a NACK whose checksum is what has been stored. -/
theorem concludeFrame_narrow {checksumBuff : List U8} {op messageNum : U8} {buf : Option (List U8)}
    {hd : Header} {sum : List U8}
    (hneg : concludeFrame checksumBuff op messageNum buf hd.bytes sum < 0)
    (hret : 0 ≤ int8 (concludeFrame checksumBuff op messageNum buf hd.bytes sum)) :
    129 ≤ hd.ack.toNat ∧
      fromBe16 ((sum ++ checksumBuff.drop sum.length).getD 0 0)
          ((sum ++ checksumBuff.drop sum.length).getD 1 0) =
        computeChecksum hd.bytes ((buf.getD []).take hd.len) := by
  by_cases hsum : fromBe16 ((sum ++ checksumBuff.drop sum.length).getD 0 0)
      ((sum ++ checksumBuff.drop sum.length).getD 1 0) =
    computeChecksum hd.bytes ((buf.getD []).take hd.len)
  · refine ⟨?_, hsum⟩
    have hanswers : ¬ hd.Answers op messageNum :=
      fun h => absurd (concludeFrame_nonneg.mpr ⟨h, hsum⟩) (Int.not_le.mpr hneg)
    rw [concludeFrame_match hsum, if_neg fun h => hanswers (Header.error_eq_zero.mp h)] at hret
    by_cases hack : hd.ack = 0
    · exact absurd hret (int8_error (Header.error_mismatch hack hanswers))
    · rw [Header.error_nack hack, int8_nack _ hack] at hret
      exact hret
  · rw [concludeFrame_mismatch hsum] at hret
    exact absurd hret (int8_error (by decide))

/-- On a stream that is not `Narrowed`, such a NACK declares no byte. -/
theorem Hears.narrow {starved : Bool} {heard : Heard} {s' : Stream} {checksumBuff : List U8}
    {op messageNum x : U8} (h : Hears op messageNum true 1 B starved heard s')
    (hB : ¬ Narrowed B) (hneg : (conclude checksumBuff op messageNum (some [x]) heard).1 < 0)
    (hret : 0 ≤ int8 (conclude checksumBuff op messageNum (some [x]) heard).1) :
    ∃ (hd : Header) (hi lo : U8), heard = .frame hd.bytes [] [hi, lo] ∧ hd.ack ≠ 0 ∧
      hd.len = 0 ∧ fromBe16 hi lo = computeChecksum hd.bytes [] := by
  cases h with
  | @refused code _ hlow hcode => exact absurd hret (int8_error ⟨hlow, hcode⟩)
  | @whole hd payload hi lo s' hhd hfit hlen hst =>
    rw [conclude_frame] at hneg hret
    dsimp only at hneg hret
    obtain ⟨hcode, hsum⟩ := concludeFrame_narrow hneg hret
    have hack := ack_ne_zero hcode
    have hnil : payload = [] :=
      List.eq_nil_of_length_eq_zero (hlen.trans (Header.takes_nack hack))
    subst hnil
    rw [withPayload_nil] at hsum
    have hsum : fromBe16 hi lo = computeChecksum hd.bytes ([x].take hd.len) := hsum
    have hfit : hd.len ≤ 1 := hfit
    by_cases hone : hd.len = 1
    · rw [hone] at hsum
      exact absurd ⟨hd, _, hhd, hcode, hfit, .inr ⟨hone, x, hi, lo, _, rfl, hsum⟩⟩ hB
    · have hzero : hd.len = 0 := by omega
      rw [hzero] at hsum
      exact ⟨hd, hi, lo, rfl, hack, hzero, hsum⟩
  | @cut hd tail payload sum s' hhd hfit hshort hst hle =>
    rw [conclude_frame] at hneg hret
    dsimp only at hneg hret
    obtain ⟨hcode, -⟩ := concludeFrame_narrow hneg hret
    rw [Header.takes_nack (ack_ne_zero hcode)] at hshort
    exact absurd ⟨hd, tail, hhd, hcode, hfit, .inl hshort⟩ hB

/-- On a complete stream that is not `Narrowed`, a result that is not negative does not depend on
memory. -/
theorem sendQueue_agree (h : ¬ (buf.isNone = true ∨ len = 0)) (hdry : Dry starve) {fuel : Nat}
    {checksumBuff : List U8} {cmdResponse : Local (1 : U16).toNat} {s s' : Stream} {r : Int × U32}
    (hB : Complete 11 (messageNum.setWidth 8) 1 s.rest) (hnarrow : ¬ Narrowed s.rest)
    (hrun : Ends (stream clock starve)
      (llPacketSendQueue fuel checksumBuff messageNum cmdResponse buf len hfits) s r s')
    (hret : 0 ≤ r.1) (checksumBuff' : List U8) (cmdResponse' : Local (1 : U16).toNat) :
    Ends (stream clock starve)
      (llPacketSendQueue fuel checksumBuff' messageNum cmdResponse' buf len hfits) s r s' := by
  have hone : (1 : U16) ≠ 0 := by decide
  obtain ⟨ret, num, hends, rfl⟩ := (sendQueue_ends_iff h).mp hrun
  by_cases hneg : ret.1 < 0
  · -- The code of a NACK: the same for whatever is in the byte.
    obtain ⟨rfl, heard, hheard, rfl⟩ := (query_ends_iff hone).mp hends
    obtain ⟨x, hx⟩ := List.length_eq_one_iff.mp cmdResponse.length_eq
    have hret : 0 ≤ queueResult _ := hret
    unfold queueResult at hret
    rw [if_pos hneg] at hret
    rw [hx] at hneg hret
    obtain ⟨hd, hi, lo, rfl, hack, hzero, hsum⟩ :=
      (listen_wlp hdry fuel s heard s' hheard).narrow hnarrow hneg hret
    have hconclude : ∀ checksumBuff bytes, conclude checksumBuff 11 (messageNum.setWidth 8)
        (some bytes) (.frame hd.bytes [] [hi, lo]) = (-(hd.ack.toNat : Int), some bytes) := by
      intro checksumBuff bytes
      exact conclude_nack hack (by rw [hzero]; exact hsum)
    have hcode : (-(hd.ack.toNat : Int)) < 0 := by
      rw [hconclude] at hneg
      exact hneg
    refine (sendQueue_ends_iff h).mpr ⟨_, _, (query_ends_iff hone).mpr ⟨rfl, _, hheard, rfl⟩, ?_⟩
    unfold queueResult
    rw [hconclude, hconclude, if_pos hcode, if_pos hcode]
  · rcases (query_agree hdry hone hends (Int.not_lt.mp hneg)).2 with
      ⟨payload, hdelivers, rfl, rfl, hall⟩ | ⟨htorn, -⟩
    · have hfull := hB.2 payload s'.rest hdelivers
      refine (sendQueue_ends_iff h).mpr ⟨_, _, hall checksumBuff' cmdResponse', ?_⟩
      rw [cmdResponse.drop_full hfull, cmdResponse'.drop_full hfull]
    · exact absurd htorn hB.1

/-- A checksum mismatch stays an error. -/
theorem queueResult_mismatch (l : Option (List U8)) :
    queueResult (errorChecksumMismatch, l) < 0 := by
  have h := int8_error (show -113 ≤ errorChecksumMismatch ∧ errorChecksumMismatch ≤ -101 by decide)
  unfold queueResult
  rw [if_pos (show errorChecksumMismatch < 0 by decide)]
  exact Int.not_le.mp h

theorem queueResult_nack {b : U8} (h : 129 ≤ b.toNat) (l : Option (List U8)) :
    0 ≤ queueResult (-(b.toNat : Int), l) := by
  unfold queueResult
  rw [if_pos (show -(b.toNat : Int) < 0 by omega)]
  exact (int8_nack b (ack_ne_zero h)).mpr h

/-- The code of a NACK is concluded where the checksum matches what the buffer holds. -/
theorem concludeFrame_nack {checksumBuff : List U8} {op messageNum : U8} {buf : Option (List U8)}
    {hd : Header} {sum : List U8} (hack : hd.ack ≠ 0)
    (h : fromBe16 ((sum ++ checksumBuff.drop sum.length).getD 0 0)
        ((sum ++ checksumBuff.drop sum.length).getD 1 0) =
      computeChecksum hd.bytes ((buf.getD []).take hd.len)) :
    concludeFrame checksumBuff op messageNum buf hd.bytes sum = -(hd.ack.toNat : Int) := by
  rw [concludeFrame_match h, if_neg fun h => hack (Header.error_eq_zero.mp h).2.2,
    Header.error_nack hack]

section Nack

variable {op : U8} {hd : Header} {tail : List U8}

/-- A NACK whose checksum cannot be read. -/
theorem nack_cut (hB : Heads B hd tail) (hack : hd.ack ≠ 0) (hfit : hd.len ≤ 1)
    (hshort : tail.length < 2) (i : Nat) (b : Bool) :
    ∃ m looks, ∀ n, m ≤ n → ∀ (sent : Sent) (checksumBuff : List U8) (buff : Local (1 : U16).toNat),
      Ends (stream still silent) (halReadWrite n checksumBuff messageNum
          (query op sent 1 buff (Nat.le_refl _))) ⟨B, i, b⟩
        ((concludeFrame checksumBuff op (messageNum.setWidth 8) (some buff.bytes) hd.bytes [],
          some buff.bytes), messageNum + 1) ⟨[], looks, true⟩ := by
  have htakes := @Header.takes_nack hd op (messageNum.setWidth 8) true hack
  obtain ⟨m, looks, hheard⟩ := @listen_cut still op (messageNum.setWidth 8) true 1 B tail hd i b
    (still_ok i) hB hfit (by rw [htakes]; exact hshort)
  rw [htakes, if_pos (Nat.zero_le _), List.take_zero] at hheard
  refine ⟨m, looks, fun n hmn sent checksumBuff buff => (query_ends_iff (by decide)).mpr
    ⟨rfl, _, (listen_below op _ true 1 m n hmn).ends hheard, ?_⟩⟩
  rw [conclude_frame, withPayload_nil]

/-- A NACK whose checksum can be read. -/
theorem nack_whole {hi lo : U8} {rest : List U8} (hB : Heads B hd (hi :: lo :: rest))
    (hack : hd.ack ≠ 0) (hfit : hd.len ≤ 1) (i : Nat) (b : Bool) :
    ∃ m looks, ∀ n, m ≤ n → ∀ (sent : Sent) (checksumBuff : List U8) (buff : Local (1 : U16).toNat),
      Ends (stream still silent) (halReadWrite n checksumBuff messageNum
          (query op sent 1 buff (Nat.le_refl _))) ⟨B, i, b⟩
        ((concludeFrame checksumBuff op (messageNum.setWidth 8) (some buff.bytes) hd.bytes [hi, lo],
          some buff.bytes), messageNum + 1) ⟨rest, looks, b⟩ := by
  have htakes := @Header.takes_nack hd op (messageNum.setWidth 8) true hack
  obtain ⟨m, looks, hheard⟩ := @listen_whole still silent op (messageNum.setWidth 8) true 1 B []
    rest hd hi lo i b (still_ok i) hB hfit htakes.symm
  refine ⟨m, looks, fun n hmn sent checksumBuff buff => (query_ends_iff (by decide)).mpr
    ⟨rfl, _, (listen_below op _ true 1 m n hmn).ends hheard, ?_⟩⟩
  rw [conclude_frame, withPayload_nil]

end Nack

/-- On a `Narrowed` stream, the code is returned, or a checksum mismatch. -/
theorem Narrowed.runs {sent : Sent} (hB : Narrowed B) :
    ∃ (m : Nat) (s' : Stream) (checksumBuff checksumBuff' : List U8)
      (buff buff' : Local (1 : U16).toNat) (b : U8) (l l' : Option (List U8)), 129 ≤ b.toNat ∧
      Ends (stream still silent) (halReadWrite m checksumBuff messageNum
          (query 11 sent 1 buff (Nat.le_refl _))) ⟨B, 0, false⟩
        ((-(b.toNat : Int), l), messageNum + 1) s' ∧
      Ends (stream still silent) (halReadWrite m checksumBuff' messageNum
          (query 11 sent 1 buff' (Nat.le_refl _))) ⟨B, 0, false⟩
        ((errorChecksumMismatch, l'), messageNum + 1) s' := by
  obtain ⟨hd, tail, hhd, hcode, hfit, hwhy⟩ := hB
  have hack := ack_ne_zero hcode
  rcases hwhy with hshort | ⟨hone, x, hi, lo, rest, rfl, hsum⟩
  · -- The checksum cannot be read, and `checksum_buff` has it already, or not.
    obtain ⟨m, looks, hends⟩ := @nack_cut messageNum B 11 hd tail hhd hack hfit hshort 0 false
    obtain ⟨sum, hsum⟩ : ∃ sum, sum = computeChecksum hd.bytes
        (((some (Local.fill (1 : U16).toNat 0).bytes).getD []).take hd.len) := ⟨_, rfl⟩
    have hother : sum + 1 ≠ sum := by bv_omega
    have hgood := hends m (Nat.le_refl m) sent (be16 sum) (Local.fill (1 : U16).toNat 0)
    have hbad := hends m (Nat.le_refl m) sent (be16 (sum + 1)) (Local.fill (1 : U16).toNat 0)
    rw [concludeFrame_nack hack ((fromBe16_unread sum).trans hsum)] at hgood
    rw [concludeFrame_mismatch (by rw [fromBe16_unread, ← hsum]; exact hother)] at hbad
    exact ⟨m, _, _, _, _, _, hd.ack, _, _, hcode, hgood, hbad⟩
  · -- The checksum is computed over the byte that was there.
    obtain ⟨m, looks, hends⟩ := @nack_whole messageNum B 11 hd hi lo rest hhd hack hfit 0 false
    have hgood := hends m (Nat.le_refl m) sent [] ⟨[x], rfl⟩
    have hbad := hends m (Nat.le_refl m) sent [] ⟨[x ^^^ 1], rfl⟩
    rw [@concludeFrame_nack [] 11 _ (some [x]) hd [hi, lo] hack (by rw [hone]; exact hsum)]
      at hgood
    rw [@concludeFrame_mismatch [] 11 _ (some [x ^^^ 1]) hd [hi, lo] (by
      rw [hone]
      exact fun h => computeChecksum_flip hd.bytes x (h.symm.trans hsum))] at hbad
    exact ⟨m, _, _, _, _, _, hd.ack, _, _, hcode, hgood, hbad⟩

/-- Where no run depends on memory, the stream is complete, and not `Narrowed`. -/
theorem sendQueue_complete (hargs : ¬ (buf.isNone = true ∨ len = 0))
    (h : Faithful B (·.1) (fun _ _ => True) (fun fuel (i : Entry (1 : U16).toNat Unit) =>
      llPacketSendQueue fuel i.checksumBuff messageNum i.buff buf len hfits)) :
    Complete 11 (messageNum.setWidth 8) 1 B ∧ ¬ Narrowed B := by
  have hagree : ∀ {m checksumBuff checksumBuff' buff buff' ret ret' num s s'},
      Ends (stream still silent) (halReadWrite m checksumBuff messageNum
        (query 11 ⟨buf, len, hfits, badBuffer_eq_false hargs⟩ 1 buff (Nat.le_refl _)))
        ⟨B, 0, false⟩ (ret, num) s →
      Ends (stream still silent) (halReadWrite m checksumBuff' messageNum
        (query 11 ⟨buf, len, hfits, badBuffer_eq_false hargs⟩ 1 buff' (Nat.le_refl _)))
        ⟨B, 0, false⟩ (ret', num) s' →
      0 ≤ queueResult ret → queueResult ret = queueResult ret' := by
    intro m checksumBuff checksumBuff' buff buff' ret ret' num s s' h₁ h₂ hret
    have hsame := h still silent silent_dry m ⟨checksumBuff, buff, ()⟩ ⟨checksumBuff', buff', ()⟩
      trivial _ _ ((sendQueue_ends_iff hargs).mpr ⟨ret, num, h₁, rfl⟩) hret
    have heq := hsame.unique ((sendQueue_ends_iff hargs).mpr ⟨ret', num, h₂, rfl⟩)
    exact congrArg Prod.fst heq.1
  refine ⟨⟨fun htorn => ?_, fun payload rest hdelivers => ?_⟩, fun hnarrow => ?_⟩
  · obtain ⟨m, looks, checksumBuff, checksumBuff', k, l, hk, -, hends⟩ :=
      query_torn (by decide) htorn 0 false (Local.fill (1 : U16).toNat 0)
    obtain ⟨hends, hends'⟩ := hends m (Nat.le_refl m)
    have hbyte : 0 ≤ queueResult (k, some l) := by
      unfold queueResult
      rw [if_neg (Int.not_lt.mpr hk)]
      exact Int.natCast_nonneg _
    have heq := hagree hends hends' hbyte
    have hneg := queueResult_mismatch (some l)
    omega
  · by_contra hne
    have hfit : payload.length ≤ 1 := hdelivers.1
    have hne : payload.length ≠ 1 := hne
    have hnil : payload = [] := List.eq_nil_of_length_eq_zero (by omega)
    subst hnil
    obtain ⟨m, looks, hends⟩ := query_delivers (by decide) hdelivers 0 false
    have heq := hagree (hends m (Nat.le_refl m) [] (Local.fill (1 : U16).toNat 0))
      (hends m (Nat.le_refl m) [] (Local.fill (1 : U16).toNat 1)) (by decide)
    exact absurd heq (by decide)
  · obtain ⟨m, s', checksumBuff, checksumBuff', buff, buff', b, l, l', hb, h₁, h₂⟩ :=
      hnarrow.runs
    have heq := hagree h₁ h₂ (queueResult_nack hb l)
    have hneg := queueResult_mismatch l'
    have hnack := queueResult_nack hb l
    omega

/-- **`ll_packet_send_queue` is faithful exactly to complete streams that are not `Narrowed`**, or
where it refuses its arguments. -/
theorem sendQueue_faithful_iff (messageNum : U32) (buf : Option (List U8)) (len : U16)
    (hfits : ∀ b, buf = some b → len.toNat ≤ b.length) (B : List U8) :
    Faithful B (·.1) (fun _ _ => True)
        (fun fuel (i : Entry (1 : U16).toNat Unit) =>
          llPacketSendQueue fuel i.checksumBuff messageNum i.buff buf len hfits) ↔
      buf.isNone = true ∨ len = 0 ∨ Complete 11 (messageNum.setWidth 8) 1 B ∧ ¬ Narrowed B := by
  by_cases hargs : buf.isNone = true ∨ len = 0
  · refine iff_of_true ?_ (hargs.imp_right .inl)
    intro clock starve _ fuel i j _ r s h hret
    unfold llPacketSendQueue at h
    dsimp only at h
    rw [dif_pos hargs] at h
    obtain ⟨rfl, -⟩ := ends_done.mp h
    exact absurd hret (show ¬ 0 ≤ errorIncorrectParameter by decide)
  · constructor
    · exact fun h => .inr (.inr (sendQueue_complete hargs h))
    · intro hB clock starve hdry fuel i j _ r s h hret
      rcases hB with hbuf | hlen | ⟨hB, hnarrow⟩
      · exact absurd (.inl hbuf) hargs
      · exact absurd (.inr hlen) hargs
      · exact sendQueue_agree hargs hdry hB hnarrow h hret j.checksumBuff j.buff

end Queue

/-! ## `ll_config_get` -/

section Config

variable {clock : Nat → Int × Time} {starve : Starve} {size : Nat} {hsize : 1 ≤ size}
  {messageNum : U32}

/-- `ll_net_token_get`, where it succeeds. -/
theorem netToken_stage (hdry : Dry starve) {fuel : Nat} {checksumBuff : List U8}
    {buff : Local (4 : U16).toNat} {out : Option U32} {s s' : Stream}
    {x : (Int × Option U32) × U32}
    (h : Ends (stream clock starve) (llNetTokenGet fuel checksumBuff messageNum buff out) s x s')
    (hret : 0 ≤ x.1.1) :
    s'.rest.length + 6 ≤ s.rest.length ∧ out.isSome ∧ ((∃ p : List U8,
        Delivers 117 (messageNum.setWidth 8) 4 s.rest p s'.rest ∧
        x = (((p.length : Int), some (netToken (p ++ buff.bytes.drop p.length))), messageNum + 1) ∧
        ∀ checksumBuff' buff' out', out'.isSome →
          Ends (stream clock starve) (llNetTokenGet fuel checksumBuff' messageNum buff' out') s
            (((p.length : Int), some (netToken (p ++ buff'.bytes.drop p.length))),
              messageNum + 1) s') ∨
      (Torn 117 (messageNum.setWidth 8) 4 s.rest ∧ s'.rest.length < 6)) := by
  unfold llNetTokenGet at h ⊢
  cases out with
  | none =>
    obtain ⟨rfl, -⟩ := ends_done.mp h
    exact absurd hret (show ¬ 0 ≤ errorIncorrectParameter by decide)
  | some old =>
    rw [getter_some] at h
    obtain ⟨ret, num, v, hends, hv, rfl⟩ := fetch_ends_iff.mp h
    obtain ⟨hlen, hcase⟩ := query_agree hdry (by decide) hends hret
    refine ⟨hlen, rfl, ?_⟩
    rcases hcase with ⟨p, hdelivers, rfl, rfl, hall⟩ | htorn
    · refine .inl ⟨p, hdelivers, ?_, fun checksumBuff' buff' out' hout => ?_⟩
      · rw [← hv]
        rfl
      · obtain ⟨old', rfl⟩ := Option.isSome_iff_exists.mp hout
        rw [getter_some]
        exact fetch_ends_iff.mpr ⟨_, _, _, hall checksumBuff' buff', rfl, rfl⟩
    · exact .inr htorn

/-- The queries that store into the caller's memory, where they succeed. -/
theorem readInto_stage (hdry : Dry starve) {op : U8} {len : U16} (hpos : len ≠ 0) {size : Nat}
    {hs : len.toNat ≤ size} {fuel : Nat} {checksumBuff : List U8} {out : Option (Local size)}
    {s s' : Stream} {x : (Int × Option (List U8)) × U32}
    (h : Ends (stream clock starve) (readInto fuel checksumBuff messageNum op len hs out) s x s')
    (hret : 0 ≤ x.1.1) :
    s'.rest.length + 6 ≤ s.rest.length ∧ ∃ buff, out = some buff ∧ ((∃ p : List U8,
        Delivers op (messageNum.setWidth 8) len s.rest p s'.rest ∧
        x = (((p.length : Int), some (p ++ buff.bytes.drop p.length)), messageNum + 1) ∧
        ∀ checksumBuff' buff',
          Ends (stream clock starve) (readInto fuel checksumBuff' messageNum op len hs (some buff'))
            s (((p.length : Int), some (p ++ buff'.bytes.drop p.length)), messageNum + 1) s') ∨
      (Torn op (messageNum.setWidth 8) len s.rest ∧ s'.rest.length < len.toNat + 2)) := by
  cases out with
  | none =>
    obtain ⟨rfl, -⟩ := ends_done.mp h
    exact absurd hret (show ¬ 0 ≤ errorIncorrectParameter by decide)
  | some buff =>
    obtain ⟨ret, num⟩ := x
    obtain ⟨hlen, hcase⟩ := query_agree hdry hpos h hret
    refine ⟨hlen, buff, rfl, ?_⟩
    rcases hcase with ⟨p, hdelivers, rfl, rfl, hall⟩ | htorn
    · exact .inl ⟨p, hdelivers, rfl, hall⟩
    · exact .inr htorn

theorem readInto_delivers {op : U8} {len : U16} (hpos : len ≠ 0) {B payload rest : List U8}
    (h : Delivers op (messageNum.setWidth 8) len B payload rest) {hs : len.toNat ≤ size} (i : Nat)
    (b : Bool) :
    ∃ m looks, ∀ n, m ≤ n → ∀ (checksumBuff : List U8) (buff : Local size),
      Ends (stream still silent) (readInto n checksumBuff messageNum op len hs (some buff))
        ⟨B, i, b⟩ (((payload.length : Int), some (payload ++ buff.bytes.drop payload.length)),
          messageNum + 1) ⟨rest, looks, b⟩ :=
  query_delivers hpos h i b

/-- Where the four queries are answered, no answer is torn and all are of full size, of which
that of the downlink mode fills the enumeration. -/
def ConfigComplete (messageNum : U32) (size : Nat) (B : List U8) : Prop :=
  ∀ p₁ p₂ p₃ B₁ B₂ B₃, Delivers 117 (messageNum.setWidth 8) 4 B p₁ B₁ →
    Delivers 125 ((messageNum + 1).setWidth 8) 10 B₁ p₂ B₂ →
    Delivers 111 ((messageNum + 1 + 1).setWidth 8) 1 B₂ p₃ B₃ →
      ¬ Torn 113 ((messageNum + 1 + 1 + 1).setWidth 8) 1 B₃ ∧
      ∀ p₄ B₄, Delivers 113 ((messageNum + 1 + 1 + 1).setWidth 8) 1 B₃ p₄ B₄ →
        p₁.length = 4 ∧ p₂.length = 10 ∧ p₃.length = size ∧ p₄.length = 1

/-- What `ll_config_get` finds in memory. -/
structure ConfigEntry (size : Nat) where
  checksumBuff : Nat → List U8
  buff : Local (4 : U16).toNat
  vars : ConfigVars size

/-- The same pointers are `NULL`. -/
def ConfigEntry.Same {size : Nat} (i j : ConfigEntry size) : Prop :=
  i.vars.netToken.isSome = j.vars.netToken.isSome ∧
    i.vars.appToken.isSome = j.vars.appToken.isSome ∧
    i.vars.dlMode.isSome = j.vars.dlMode.isSome ∧ i.vars.qos.isSome = j.vars.qos.isSome

/-- Where a program that returns the errors of its first query succeeds, the query does. -/
theorem bind_nonneg {α β : Type} {p : IfcM ((Int × α) × U32)}
    {f : (Int × α) × U32 → IfcM ((Int × β) × U32)} {s s' : Stream} {r : (Int × β) × U32}
    (h : Ends (stream clock starve) (p >>= f) s r s') (hret : 0 ≤ r.1.1)
    (hf : ∀ x, 0 > x.1.1 → ∃ out, f x = .done ((x.1.1, out), x.2)) :
    ∃ x s₁, Ends (stream clock starve) p s x s₁ ∧ 0 ≤ x.1.1 ∧
      Ends (stream clock starve) (f x) s₁ r s' := by
  obtain ⟨x, s₁, h₁, h₂⟩ := ends_bind.mp h
  refine ⟨x, s₁, h₁, Int.not_lt.mp fun hneg => ?_, h₂⟩
  obtain ⟨out, hout⟩ := hf x hneg
  rw [hout] at h₂
  obtain ⟨rfl, -⟩ := ends_done.mp h₂
  exact absurd hret (Int.not_le.mpr hneg)

/-- A run that succeeds has four queries that do. -/
theorem configGet_inv {m : Nat} {checksumBuff : Nat → List U8} {buff : Local (4 : U16).toNat}
    {v : ConfigVars size} {s s' : Stream} {r : (Int × Config) × U32}
    (h : Ends (stream clock starve) (llConfigGet m checksumBuff messageNum buff hsize v) s r s')
    (hret : 0 ≤ r.1.1) :
    ∃ x₁ s₁ x₂ s₂ x₃ s₃ x₄,
      (Ends (stream clock starve)
        (llNetTokenGet m (checksumBuff 0) messageNum buff v.netToken) s x₁ s₁ ∧ 0 ≤ x₁.1.1) ∧
      (Ends (stream clock starve) (llAppTokenGet m (checksumBuff 1) x₁.2 v.appToken) s₁ x₂ s₂ ∧
        0 ≤ x₂.1.1) ∧
      (Ends (stream clock starve)
        (llReceiveModeGet m (checksumBuff 2) x₂.2 hsize v.dlMode) s₂ x₃ s₃ ∧ 0 ≤ x₃.1.1) ∧
      (Ends (stream clock starve) (llQosGet m (checksumBuff 3) x₃.2 v.qos) s₃ x₄ s' ∧
        0 ≤ x₄.1.1) ∧
      r = ((x₄.1.1, ⟨x₁.1.2, x₂.1.2, x₃.1.2, x₄.1.2⟩), x₄.2) := by
  unfold llConfigGet at h
  obtain ⟨⟨⟨ret₁, out₁⟩, num₁⟩, s₁, h₁, hpos₁, h⟩ :=
    bind_nonneg h hret fun x hneg => ⟨_, if_pos hneg⟩
  dsimp only at h
  rw [if_neg (Int.not_lt.mpr hpos₁)] at h
  obtain ⟨⟨⟨ret₂, out₂⟩, num₂⟩, s₂, h₂, hpos₂, h⟩ :=
    bind_nonneg h hret fun x hneg => ⟨_, if_pos hneg⟩
  dsimp only at h
  rw [if_neg (Int.not_lt.mpr hpos₂)] at h
  obtain ⟨⟨⟨ret₃, out₃⟩, num₃⟩, s₃, h₃, hpos₃, h⟩ :=
    bind_nonneg h hret fun x hneg => ⟨_, if_pos hneg⟩
  dsimp only at h
  rw [if_neg (Int.not_lt.mpr hpos₃)] at h
  obtain ⟨⟨⟨ret₄, out₄⟩, num₄⟩, s₄, h₄, h⟩ := ends_bind.mp h
  rw [ite_self] at h
  obtain ⟨rfl, rfl⟩ := ends_done.mp h
  exact ⟨_, s₁, _, s₂, _, s₃, _, ⟨h₁, hpos₁⟩, ⟨h₂, hpos₂⟩, ⟨h₃, hpos₃⟩, ⟨h₄, hret⟩, rfl⟩

section Queries

variable {m : Nat} {checksumBuff : Nat → List U8} {buff : Local (4 : U16).toNat}
  {v : ConfigVars size} {s s₁ s₂ s₃ s' : Stream} {ret₁ ret₂ ret₃ ret₄ : Int}
  {netToken : Option U32} {appToken dlMode qos : Option (List U8)} {num₁ num₂ num₃ num₄ : U32}

/-- A run put together from its queries. -/
theorem configGet_ends
    (h₁ : Ends (stream clock starve) (llNetTokenGet m (checksumBuff 0) messageNum buff v.netToken) s
      ((ret₁, netToken), num₁) s₁) (hpos₁ : 0 ≤ ret₁)
    (h₂ : Ends (stream clock starve) (llAppTokenGet m (checksumBuff 1) num₁ v.appToken) s₁
      ((ret₂, appToken), num₂) s₂) (hpos₂ : 0 ≤ ret₂)
    (h₃ : Ends (stream clock starve) (llReceiveModeGet m (checksumBuff 2) num₂ hsize v.dlMode) s₂
      ((ret₃, dlMode), num₃) s₃) (hpos₃ : 0 ≤ ret₃)
    (h₄ : Ends (stream clock starve) (llQosGet m (checksumBuff 3) num₃ v.qos) s₃
      ((ret₄, qos), num₄) s') :
    Ends (stream clock starve) (llConfigGet m checksumBuff messageNum buff hsize v) s
      ((ret₄, ⟨netToken, appToken, dlMode, qos⟩), num₄) s' := by
  unfold llConfigGet
  refine h₁.bind ?_
  dsimp only
  rw [if_neg (Int.not_lt.mpr hpos₁)]
  refine h₂.bind ?_
  dsimp only
  rw [if_neg (Int.not_lt.mpr hpos₂)]
  refine h₃.bind ?_
  dsimp only
  rw [if_neg (Int.not_lt.mpr hpos₃)]
  refine h₄.bind ?_
  rw [ite_self]
  exact .done _ _

end Queries

/-- Where `ConfigComplete` holds, the configuration does not depend on memory. -/
theorem configGet_agree (hdry : Dry starve) {fuel : Nat} {i j : ConfigEntry size}
    (hsame : i.Same j) {s s' : Stream} {r : (Int × Config) × U32}
    (hB : ConfigComplete messageNum size s.rest)
    (h : Ends (stream clock starve)
      (llConfigGet fuel i.checksumBuff messageNum i.buff hsize i.vars) s r s')
    (hret : 0 ≤ r.1.1) :
    Ends (stream clock starve)
      (llConfigGet fuel j.checksumBuff messageNum j.buff hsize j.vars) s r s' := by
  obtain ⟨hnet, happ, hdl, hqos⟩ := hsame
  obtain ⟨x₁, s₁, x₂, s₂, x₃, s₃, x₄, ⟨he₁, hp₁⟩, ⟨he₂, hp₂⟩, ⟨he₃, hp₃⟩, ⟨he₄, hp₄⟩, rfl⟩ :=
    configGet_inv h hret
  obtain ⟨hlen₁, hsome₁, hcase₁⟩ := netToken_stage hdry he₁ hp₁
  obtain ⟨hlen₂, b₂, hb₂, hcase₂⟩ := readInto_stage hdry (by decide) he₂ hp₂
  obtain ⟨hlen₃, b₃, hb₃, hcase₃⟩ := readInto_stage hdry (by decide) he₃ hp₃
  obtain ⟨hlen₄, b₄, hb₄, hcase₄⟩ := readInto_stage hdry (by decide) he₄ hp₄
  -- A torn answer leaves too little for the queries after it.
  rcases hcase₁ with ⟨p₁, hd₁, rfl, hall₁⟩ | ⟨-, hshort⟩
  case inr => omega
  rcases hcase₂ with ⟨p₂, hd₂, rfl, hall₂⟩ | ⟨-, hshort⟩
  case inr => exact absurd hshort (show ¬ _ < 12 by omega)
  rcases hcase₃ with ⟨p₃, hd₃, rfl, hall₃⟩ | ⟨-, hshort⟩
  case inr => exact absurd hshort (show ¬ _ < 3 by omega)
  obtain ⟨hwhole, hfull⟩ := hB p₁ p₂ p₃ _ _ _ hd₁ hd₂ hd₃
  rcases hcase₄ with ⟨p₄, hd₄, rfl, hall₄⟩ | ⟨htorn, -⟩
  case inr => exact absurd htorn hwhole
  obtain ⟨hf₁, hf₂, hf₃, hf₄⟩ := hfull p₄ _ hd₄
  rw [hb₂] at happ
  rw [hb₃] at hdl
  rw [hb₄] at hqos
  obtain ⟨c₂, hc₂⟩ := Option.isSome_iff_exists.mp happ.symm
  obtain ⟨c₃, hc₃⟩ := Option.isSome_iff_exists.mp hdl.symm
  obtain ⟨c₄, hc₄⟩ := Option.isSome_iff_exists.mp hqos.symm
  have hrun := configGet_ends (hall₁ (j.checksumBuff 0) j.buff _ (hnet ▸ hsome₁)) hp₁
    (by rw [hc₂]; exact hall₂ (j.checksumBuff 1) c₂) hp₂
    (by rw [hc₃]; exact hall₃ (j.checksumBuff 2) c₃) hp₃
    (by rw [hc₄]; exact hall₄ (j.checksumBuff 3) c₄)
  dsimp only
  rw [i.buff.drop_full hf₁, b₂.drop_full hf₂, b₃.drop_full hf₃, b₄.drop_full hf₄]
  rw [j.buff.drop_full hf₁, c₂.drop_full hf₂, c₃.drop_full hf₃, c₄.drop_full hf₄] at hrun
  exact hrun

/-- Memory that holds one byte throughout, but for `checksum_buff`. -/
def ConfigEntry.fill (size : Nat) (checksumBuff : List U8) (x : U8) : ConfigEntry size :=
  ⟨fun _ => checksumBuff, .fill _ x,
    ⟨some 0, some (.fill 10 x), some (.fill size x), some (.fill 1 x)⟩⟩

/-- Three payloads in memory that held one byte throughout, and what the last query has stored. -/
def Config.over (size : Nat) (x : U8) (p₁ p₂ p₃ : List U8) (qos : Option (List U8)) : Config :=
  ⟨some (Ifc.netToken (p₁ ++ (Local.fill 4 x).bytes.drop p₁.length)),
    some (p₂ ++ (Local.fill 10 x).bytes.drop p₂.length),
    some (p₃ ++ (Local.fill size x).bytes.drop p₃.length), qos⟩

/-- Three answers, and whatever comes of the last query. -/
theorem configGet_runs {B B₁ B₂ B₃ p₁ p₂ p₃ : List U8}
    (h₁ : Delivers 117 (messageNum.setWidth 8) 4 B p₁ B₁)
    (h₂ : Delivers 125 ((messageNum + 1).setWidth 8) 10 B₁ p₂ B₂)
    (h₃ : Delivers 111 ((messageNum + 1 + 1).setWidth 8) 1 B₂ p₃ B₃) :
    ∃ m looks, ∀ n, m ≤ n → ∀ {checksumBuff : List U8} {x : U8} {ret : Int} {l : Option (List U8)}
      {num : U32} {s' : Stream},
      Ends (stream still silent) (halReadWrite n checksumBuff (messageNum + 1 + 1 + 1)
        (query 113 .nothing 1 (.fill 1 x) (Nat.le_refl 1))) ⟨B₃, looks, false⟩ ((ret, l), num) s' →
      Ends (stream still silent)
        (llConfigGet n (ConfigEntry.fill size checksumBuff x).checksumBuff messageNum
          (ConfigEntry.fill size checksumBuff x).buff hsize
          (ConfigEntry.fill size checksumBuff x).vars) ⟨B, 0, false⟩
        ((ret, Config.over size x p₁ p₂ p₃ l), num) s' := by
  obtain ⟨m₁, looks₁, hq₁⟩ := query_delivers (by decide) h₁ 0 false
  obtain ⟨m₂, looks₂, hq₂⟩ := readInto_delivers (by decide) h₂ looks₁ false
  obtain ⟨m₃, looks₃, hq₃⟩ := readInto_delivers (by decide) h₃ looks₂ false
  refine ⟨m₁ + m₂ + m₃, looks₃, fun n hn checksumBuff x ret l num s' h₄ => ?_⟩
  have hnet : Ends (stream still silent) (llNetTokenGet n checksumBuff messageNum
      (.fill _ x) (some 0)) ⟨B, 0, false⟩
      (((p₁.length : Int), some (netToken (p₁ ++ (Local.fill 4 x).bytes.drop p₁.length))),
        messageNum + 1) ⟨B₁, looks₁, false⟩ := by
    unfold llNetTokenGet
    rw [getter_some]
    exact fetch_ends_iff.mpr ⟨_, _, _, hq₁ n (by omega) checksumBuff _, rfl, rfl⟩
  have happ : Ends (stream still silent) (llAppTokenGet n checksumBuff (messageNum + 1)
      (some (.fill 10 x))) ⟨B₁, looks₁, false⟩
      (((p₂.length : Int), some (p₂ ++ (Local.fill 10 x).bytes.drop p₂.length)),
        messageNum + 1 + 1) ⟨B₂, looks₂, false⟩ := hq₂ n (by omega) checksumBuff _
  have hdl : Ends (stream still silent) (llReceiveModeGet n checksumBuff (messageNum + 1 + 1) hsize
      (some (.fill size x))) ⟨B₂, looks₂, false⟩
      (((p₃.length : Int), some (p₃ ++ (Local.fill size x).bytes.drop p₃.length)),
        messageNum + 1 + 1 + 1) ⟨B₃, looks₃, false⟩ := hq₃ n (by omega) checksumBuff _
  have hqos : Ends (stream still silent) (llQosGet n checksumBuff (messageNum + 1 + 1 + 1)
      (some (.fill 1 x))) ⟨B₃, looks₃, false⟩ ((ret, l), num) s' := h₄
  exact configGet_ends hnet (Int.natCast_nonneg _) happ (Int.natCast_nonneg _) hdl
    (Int.natCast_nonneg _) hqos

/-- Bytes that are stored as they are. -/
theorem bytes_format (size : Nat) : Format (fun l : List U8 => some l) size where
  total _ := ⟨_, rfl⟩
  last := by
    intro l l' _ _ heq
    have hlast := congrArg List.getLast? (Option.some.inj heq)
    rw [List.getLast?_concat, List.getLast?_concat] at hlast
    exact absurd hlast (by decide)

theorem configGet_complete {B : List U8}
    (h : Faithful B (·.1.1) ConfigEntry.Same (fun fuel (i : ConfigEntry size) =>
      llConfigGet fuel i.checksumBuff messageNum i.buff hsize i.vars)) :
    ConfigComplete messageNum size B := by
  intro p₁ p₂ p₃ B₁ B₂ B₃ h₁ h₂ h₃
  obtain ⟨m, looks, hruns⟩ := @configGet_runs size hsize messageNum B B₁ B₂ B₃ p₁ p₂ p₃ h₁ h₂ h₃
  have hagree : ∀ {n checksumBuff checksumBuff' x x' ret ret' l l' num s s'}, m ≤ n →
      Ends (stream still silent) (halReadWrite n checksumBuff (messageNum + 1 + 1 + 1)
        (query 113 .nothing 1 (.fill 1 x) (Nat.le_refl 1))) ⟨B₃, looks, false⟩ ((ret, l), num) s →
      Ends (stream still silent) (halReadWrite n checksumBuff' (messageNum + 1 + 1 + 1)
        (query 113 .nothing 1 (.fill 1 x') (Nat.le_refl 1))) ⟨B₃, looks, false⟩
        ((ret', l'), num) s' → 0 ≤ ret →
      ret = ret' ∧ Config.over size x p₁ p₂ p₃ l = Config.over size x' p₁ p₂ p₃ l' := by
    intro n checksumBuff checksumBuff' x x' ret ret' l l' num s s' hmn hends hends' hret
    have hsame := h still silent silent_dry n (.fill size checksumBuff x)
      (.fill size checksumBuff' x') ⟨rfl, rfl, rfl, rfl⟩ _ _ (hruns n hmn hends) hret
    have heq := (hsame.unique (hruns n hmn hends')).1
    exact ⟨congrArg (·.1.1) heq, congrArg (·.1.2) heq⟩
  refine ⟨fun htorn => ?_, fun p₄ B₄ h₄ => ?_⟩
  · obtain ⟨m', looks', checksumBuff, checksumBuff', k, l, hk, -, hends⟩ :=
      query_torn (by decide) htorn looks false (Local.fill 1 0)
    obtain ⟨hends, hends'⟩ := hends (m + m') (by omega)
    rw [(hagree (Nat.le_add_right m m') hends hends' hk).1] at hk
    exact absurd hk (by decide)
  · obtain ⟨m', looks', hends⟩ := query_delivers (by decide) h₄ looks false
    have hends := hends (m + m') (Nat.le_add_left m' m) []
    obtain ⟨-, heq⟩ := hagree (Nat.le_add_right m m') (hends (.fill 1 0)) (hends (.fill 1 1))
      (Int.natCast_nonneg _)
    obtain ⟨hnet, happ, hdl, hqos⟩ := Config.mk.inj heq
    exact ⟨netToken_format.full h₁.1 (congrArg some (Option.some.inj hnet)),
      (bytes_format 10).full h₂.1 happ,
      (bytes_format size).full (Nat.le_trans h₃.1 hsize) hdl,
      (bytes_format 1).full h₄.1 hqos⟩

/-- **`ll_config_get` is faithful exactly to the streams with `ConfigComplete`.** -/
theorem configGet_faithful_iff (messageNum : U32) (hsize : 1 ≤ size) (B : List U8) :
    Faithful B (·.1.1) ConfigEntry.Same (fun fuel (i : ConfigEntry size) =>
        llConfigGet fuel i.checksumBuff messageNum i.buff hsize i.vars) ↔
      ConfigComplete messageNum size B := by
  constructor
  · exact configGet_complete
  · intro hB clock starve hdry fuel i j hsame r s h hret
    exact configGet_agree hdry hsame hB h hret

end Config

/-! ## All queries -/

/-- **What the streams are like to which the queries are faithful.** -/
theorem getters_faithful_iff (os : Orders) (messageNum : U32) {size : Nat} (hsize : 1 ≤ size)
    (buf : Option (List U8)) (len : U16) (hfits : ∀ b, buf = some b → len.toNat ≤ b.length)
    (B : List U8) :
    (FaithfulGetter B (fun fuel checksumBuff => llNetTokenGet fuel checksumBuff messageNum) ↔
        Complete 117 (messageNum.setWidth 8) 4 B) ∧
      (FaithfulGetter B (fun fuel checksumBuff => llUniqueIdGet fuel checksumBuff messageNum) ↔
        Complete 50 (messageNum.setWidth 8) 8 B) ∧
      (FaithfulGetter B (fun fuel checksumBuff => llMacModeGet fuel checksumBuff messageNum) ↔
        Complete 71 (messageNum.setWidth 8) 1 B) ∧
      (FaithfulGetter B (fun fuel checksumBuff => llNetInfoGet fuel checksumBuff messageNum os) ↔
        Complete 118 (messageNum.setWidth 8) 30 B) ∧
      (FaithfulGetter B (fun fuel checksumBuff => llStatsGet fuel checksumBuff messageNum os) ↔
        Complete 119 (messageNum.setWidth 8) 40 B) ∧
      (FaithfulGetter B (fun fuel checksumBuff => llDlBandCfgGet fuel checksumBuff messageNum os) ↔
        Complete 122 (messageNum.setWidth 8) 14 B) ∧
      (FaithfulGetter B (fun fuel checksumBuff => llSystemTimeGet fuel checksumBuff messageNum os) ↔
        Complete 108 (messageNum.setWidth 8) 13 B) ∧
      (FaithfulGetter B
          (fun fuel checksumBuff => llConnectionFilterGet fuel checksumBuff messageNum) ↔
        Complete 94 (messageNum.setWidth 8) 1 B) ∧
      (Faithful B (·.1.1) (fun _ _ => True) (fun fuel (i : Entry (8 : U16).toNat RadioParams) =>
          llRadioParamsGet fuel i.checksumBuff messageNum i.buff i.out) ↔
        Complete 9 (messageNum.setWidth 8) 8 B) ∧
      (Faithful B (·.1) (fun _ _ => True) (fun fuel (i : Entry (1 : U16).toNat Unit) =>
          llPacketSendQueue fuel i.checksumBuff messageNum i.buff buf len hfits) ↔
        buf.isNone = true ∨ len = 0 ∨
          Complete 11 (messageNum.setWidth 8) 1 B ∧ ¬ Narrowed B) ∧
      (Faithful B (·.1.1) ConfigEntry.Same (fun fuel (i : ConfigEntry size) =>
          llConfigGet fuel i.checksumBuff messageNum i.buff hsize i.vars) ↔
        ConfigComplete messageNum size B) :=
  ⟨getter_faithful_iff 117 (by decide) netToken_format messageNum B,
    getter_faithful_iff 50 (by decide) uniqueId_format messageNum B,
    getter_faithful_iff 71 (by decide) macMode_format messageNum B,
    getter_faithful_iff 118 (by decide) (.of_decodes (llNetInfoDeserialize_decodes os)) messageNum
      B,
    getter_faithful_iff 119 (by decide) (.of_decodes (llStatsDeserialize_decodes os)) messageNum B,
    getter_faithful_iff 122 (by decide) (.of_decodes (llDlBandCfgDeserialize_decodes os)) messageNum
      B,
    getter_faithful_iff 108 (by decide) (.of_decodes (llTimeDeserialize_decodes os)) messageNum B,
    getter_faithful_iff 94 (by decide) connectionFilter_format messageNum B,
    radioParams_faithful_iff messageNum B, sendQueue_faithful_iff messageNum buf len hfits B,
    configGet_faithful_iff messageNum hsize B⟩

/-- A net token that is there in whole. -/
theorem netToken_faithful_whole :
    FaithfulGetter (respFrame 117 0 0 [1, 2, 3, 4])
      (fun fuel checksumBuff => llNetTokenGet fuel checksumBuff 0) := by
  have hcomplete := @complete_respFrame 117 0 4 [1, 2, 3, 4] [] [] List.not_mem_nil rfl
  rw [List.nil_append, List.append_nil] at hcomplete
  exact (getters_faithful_iff ⟨.left, .left, .left⟩ 0 (Nat.le_refl 1) none 0 nothing_fits _).1.mpr
    hcomplete

/-- An ACK without a payload is taken for a net token. -/
theorem netToken_unsent :
    ¬ FaithfulGetter (respFrame 117 0 0 [])
      (fun fuel checksumBuff => llNetTokenGet fuel checksumBuff 0) := by
  intro h
  have hcomplete := (getter_faithful_iff 117 (by decide) netToken_format 0 _).mp h
  have hlen := hcomplete.2 [] [] ⟨Nat.zero_le _, [], List.not_mem_nil, (List.append_nil _).symm⟩
  exact absurd hlen (by decide)

end HostInterface.Ifc

import HostInterface.Ifc.Listen

/-!
# Responses that refuse a command

A module that refuses a command answers with a NACK. `recv_packet` notes the code of
the NACK, and two things go wrong from there.

It reads the payload of a response only where it has noted no error, but looks for
the checksum, and computes it, as if it had. So a refusal is consumed whole, and
reported, exactly where it has no payload (`refused_consumed_iff`).

And the code of the NACK overrides what the checks of the opcode and of the message
number have noted, so a late refusal of an earlier command is taken for one of this
command. `nack_blamed_iff` says for which streams this happens.
-/

namespace HostInterface.Ifc

open Interact Prog

/-! ## The payload of a refusal -/

section Refusal

variable {clock : Nat → Int × Time} {starve : Starve} {checksumBuff rest : List U8}
  {op messageNum c : U8} {buf : Option (List U8)} {len : U16}

theorem ack_pos {b : U8} : b ≠ 0 ↔ 1 ≤ b.toNat := by
  constructor
  · intro h
    exact Nat.pos_of_ne_zero fun hzero => h (BitVec.eq_of_toNat_eq hzero)
  · rintro h rfl
    exact absurd h (by decide)

/-- Where the code of a refusal is reported and what is behind it is left, there was no payload. -/
theorem refused_consumed {fuel : Nat} {buf' : Option (List U8)} {looks : Nat} {payload : List U8}
    (hc : 1 ≤ c.toNat ∧ c.toNat ≤ 99)
    (hends : Ends (stream clock starve) (recvPacket fuel checksumBuff op messageNum buf len)
      ⟨respFrame op messageNum c payload ++ rest, 0, false⟩ (-(c.toNat : Int), buf')
      ⟨rest, looks, false⟩) : payload = [] := by
  have hheads := @heads_respFrame op messageNum c payload [] rest List.not_mem_nil
  have hnack : (Header.forLength op messageNum c payload.length).ack ≠ 0 := ack_pos.mpr hc.1
  obtain ⟨heard, hheard, heq⟩ := recvPacket_ends_iff.mp hends
  rcases listen_fed hheard rfl with ⟨code, hcode, rfl⟩ | ⟨hd, read, hi, lo, rfl, hhd, -, hread⟩
  · -- No code of the host interface is that of a NACK.
    have hcode' : -(c.toNat : Int) = code := congrArg Prod.fst heq
    omega
  · obtain ⟨rfl, htail⟩ := hheads.unique hhd
    rw [Header.takes_nack hnack] at hread
    -- Only the two bytes of the checksum have been read, so there is nothing else to read.
    have hlen := congrArg List.length htail
    simp only [List.length_append, List.length_cons] at hlen
    have hsum : ∀ x : U16, (be16 x).length = 2 := fun _ => rfl
    rw [hsum, hread] at hlen
    exact List.eq_nil_of_length_eq_zero (by omega)

/-- A refusal without payload is reported, and all of it is read. -/
theorem refused_empty (hclock : ClockOk clock) (hc : 1 ≤ c.toNat) :
    ∃ fuel looks, Ends (stream clock starve) (recvPacket fuel checksumBuff op messageNum buf len)
      ⟨respFrame op messageNum c [] ++ rest, 0, false⟩ (-(c.toNat : Int), buf)
      ⟨rest, looks, false⟩ := by
  have hnack : (Header.forLength op messageNum c 0).ack ≠ 0 := ack_pos.mpr hc
  have hheads := @heads_respFrame op messageNum c [] [] rest List.not_mem_nil
  obtain ⟨fuel, looks, hends⟩ := @listen_whole clock starve op messageNum buf.isSome len _ [] rest
    _ _ _ 0 false hclock hheads (Nat.zero_le _) (Header.takes_nack hnack).symm
  refine ⟨fuel, looks, recvPacket_ends_iff.mpr ⟨_, hends, (conclude_nack hnack ?_).symm⟩⟩
  rw [fromBe16_be16, List.length_nil, Header.forLength_len (by decide), List.take_zero]

end Refusal

/-- **A refusal is consumed whole exactly where it has no payload.** In time, with a stream that
begins with a NACK of the command, `recv_packet` returns its code and leaves what is behind the
frame if and only if the payload is empty. -/
theorem refused_consumed_iff {clock : Nat → Int × Time} (hclock : ClockOk clock) (starve : Starve)
    (checksumBuff : List U8) (op messageNum c : U8) (hc : 1 ≤ c.toNat ∧ c.toNat ≤ 99)
    (buf : Option (List U8)) (len : U16) (payload rest : List U8) :
    (∃ fuel buf' looks,
      Ends (stream clock starve) (recvPacket fuel checksumBuff op messageNum buf len)
        ⟨respFrame op messageNum c payload ++ rest, 0, false⟩ (-(c.toNat : Int), buf')
        ⟨rest, looks, false⟩) ↔ payload = [] := by
  constructor
  · intro h
    obtain ⟨fuel, buf', looks, hends⟩ := h
    exact refused_consumed hc hends
  · rintro rfl
    obtain ⟨fuel, looks, hends⟩ := refused_empty hclock hc.1
    exact ⟨fuel, buf, looks, hends⟩

/-- A busy module, with a byte behind its answer. -/
theorem refused_consumed_busy :
    ∃ fuel buf' looks, Ends (stream still silent) (recvPacket fuel [0, 0] 40 3 (some [9, 9]) 2)
      ⟨respFrame 40 3 6 [] ++ [8], 0, false⟩ (-6, buf') ⟨[8], looks, false⟩ :=
  (refused_consumed_iff (still_ok 0) silent [0, 0] 40 3 6 (by decide) (some [9, 9]) 2 []
    [8]).mpr rfl

/-- With one byte of payload in it, the answer is not reported as a refusal that is read. -/
theorem refused_payload_unread :
    ¬ ∃ fuel buf' looks, Ends (stream still silent) (recvPacket fuel [0, 0] 40 3 (some [9, 9]) 2)
      ⟨respFrame 40 3 6 [5] ++ [8], 0, false⟩ (-6, buf') ⟨[8], looks, false⟩ := by
  intro h
  obtain ⟨fuel, buf', looks, hends⟩ := h
  exact absurd (refused_consumed (c := 6) (by decide) hends) (by decide)

/-! ## Whose refusal it is -/

/-- What is left of the line between a command refused and the value reported: a code of a NACK
stands for a NACK of this command, and the answer to another command is an error of the host
interface. -/
def Blamed (c : Command) (messageNum : U8) (B : List U8) (ret : Int) : Prop :=
  (-99 ≤ ret → ret ≤ -1 →
      ∃ hd tail, Heads B hd tail ∧ hd.op = c.op ∧ hd.messageNum = messageNum) ∧
    ∀ hd tail, Heads B hd tail → ¬ (hd.op = c.op ∧ hd.messageNum = messageNum) → ret ≤ -101

/-- The first frame of the stream is a NACK of another command with a code up to 100. It fits,
and the two bytes behind its header are the checksum over the header and the output buffer. -/
def Misattributed (c : Command) (messageNum : U8) (B : List U8) : Prop :=
  badBuffer c.bufIn c.inLen = false ∧ badBuffer c.bufOut c.outLen = false ∧
    ∃ (hd : Header) (hi lo : U8) (tail : List U8), Heads B hd (hi :: lo :: tail) ∧
      ¬ (hd.op = c.op ∧ hd.messageNum = messageNum) ∧ 1 ≤ hd.ack.toNat ∧ hd.ack.toNat ≤ 100 ∧
      hd.len ≤ c.outLen.toNat ∧
      fromBe16 hi lo = computeChecksum hd.bytes ((c.bufOut.getD []).take hd.len)

/-- On such a stream, the code of the other command's NACK is returned. -/
theorem Misattributed.reported {c : Command} {messageNum : U32} {B : List U8}
    (h : Misattributed c (messageNum.setWidth 8) B) :
    ¬ ∀ clock starve fuel checksumBuff r messageNum' s',
      Ends (stream clock starve) (halReadWrite fuel checksumBuff messageNum c) ⟨B, 0, false⟩
        (r, messageNum') s' →
      s'.starved = false → Blamed c (messageNum.setWidth 8) B r.1 := by
  intro hall
  obtain ⟨hin, hout, hd, hi, lo, tail, hB, hother, hpos, hcode, hfit, hsum⟩ := h
  have hnack : hd.ack ≠ 0 := ack_pos.mpr hpos
  obtain ⟨fuel, looks, hends⟩ := @listen_whole still silent c.op (messageNum.setWidth 8)
    c.bufOut.isSome c.outLen B [] tail hd hi lo 0 false (still_ok 0) hB hfit
    (Header.takes_nack hnack).symm
  have hret : Ends (stream still silent) (halReadWrite fuel [0, 0] messageNum c) ⟨B, 0, false⟩
      ((-(hd.ack.toNat : Int), c.bufOut), messageNum + 1) ⟨tail, looks, false⟩ :=
    (halReadWrite_ends_iff hin hout).mpr ⟨rfl, _, hends, (conclude_nack hnack hsum).symm⟩
  have hle : -(hd.ack.toNat : Int) ≤ -101 := (hall _ _ _ _ _ _ _ hret rfl).2 hd _ hB hother
  omega

/-- **A NACK is blamed on the right command exactly where no refusal of another one comes first.**
Over all clocks, and all runs in which every read succeeds, a code of a NACK is returned only for a
NACK of this command, and the answer to another command is reported as an error of the host
interface, if and only if the stream is not `Misattributed`. -/
theorem nack_blamed_iff (c : Command) (messageNum : U32) (B : List U8) :
    (∀ clock starve fuel checksumBuff r messageNum' s',
        Ends (stream clock starve) (halReadWrite fuel checksumBuff messageNum c) ⟨B, 0, false⟩
          (r, messageNum') s' →
        s'.starved = false → Blamed c (messageNum.setWidth 8) B r.1) ↔
      ¬ Misattributed c (messageNum.setWidth 8) B := by
  constructor
  · intro h hmis
    exact hmis.reported h
  · intro hmis clock starve fuel checksumBuff r messageNum' s' hends hs'
    have herror : ∀ ret : Int, ret ≤ -101 → Blamed c (messageNum.setWidth 8) B ret :=
      fun ret hret => ⟨fun hge => absurd hge (by omega), fun _ _ _ _ => hret⟩
    by_cases hbad : badBuffer c.bufIn c.inLen = true ∨ badBuffer c.bufOut c.outLen = true
    · rw [halReadWrite_refused hbad, ends_done] at hends
      obtain ⟨heq, -⟩ := hends
      obtain ⟨rfl, -⟩ := Prod.mk.inj heq
      exact herror errorIncorrectParameter (by decide)
    · have hin : badBuffer c.bufIn c.inLen = false := by
        simpa using fun h => hbad (.inl h)
      have hout : badBuffer c.bufOut c.outLen = false := by
        simpa using fun h => hbad (.inr h)
      obtain ⟨-, heard, hheard, rfl⟩ := (halReadWrite_ends_iff hin hout).mp hends
      rcases listen_fed hheard hs' with
        ⟨code, hcode, rfl⟩ | ⟨hd, read, hi, lo, rfl, hB, hfit, hread⟩
      · exact herror code hcode
      · rw [conclude_frame, concludeFrame_whole]
        dsimp only
        split
        next => exact herror _ (by decide)
        next hsum =>
          have hsum := Decidable.not_not.mp hsum
          by_cases hsame : hd.op = c.op ∧ hd.messageNum = messageNum.setWidth 8
          · -- The frame is an answer to this command, whatever it says.
            exact ⟨fun _ _ => ⟨hd, _, hB, hsame⟩,
              fun hd' tail' hB' hother => absurd ((hB.unique hB').1 ▸ hsame) hother⟩
          · have hanswers : ¬ hd.Answers c.op (messageNum.setWidth 8) :=
              fun h => hsame ⟨h.1, h.2.1⟩
            rw [if_neg fun h => hanswers (Header.error_eq_zero.mp h)]
            by_cases hack : hd.ack = 0
            · exact herror _ (Header.error_mismatch hack hanswers).2
            · rw [Header.error_nack hack]
              refine herror _ ?_
              by_contra hcode
              -- A NACK leaves the buffer alone, so this is a stream that is excluded.
              rw [Header.takes_nack hack] at hread
              have hnil : read = [] := List.eq_nil_of_length_eq_zero hread
              rw [hnil, withPayload_nil] at hsum
              rw [hnil] at hB
              exact hmis ⟨hin, hout, hd, hi, lo, _, hB, hsame, ack_pos.mp hack, by omega, hfit,
                hsum⟩

/-- The module is busy with command 41, message 2; the host has given up on it and sent command
40, message 3. -/
theorem late_refusal_blamed :
    let c : Command := ⟨40, none, 0, none, 0, nofun, nofun⟩
    ¬ ∀ clock starve fuel checksumBuff r messageNum' s',
      Ends (stream clock starve) (halReadWrite fuel checksumBuff 3 c)
        ⟨respFrame 41 2 6 [], 0, false⟩ (r, messageNum') s' →
      s'.starved = false → Blamed c 3 (respFrame 41 2 6 []) r.1 := by
  intro c
  refine @Misattributed.reported c 3 _ ⟨by decide, by decide, ⟨41, 2, 6, 0, 0⟩, ?_⟩
  exact ⟨_, _, [], ⟨[], List.not_mem_nil, rfl⟩, by decide, by decide, by decide, by decide,
    by decide⟩

end HostInterface.Ifc

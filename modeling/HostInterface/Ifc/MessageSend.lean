import HostInterface.Buffer
import HostInterface.Ifc.Remote

/-!
# Sending a message (`ll_message_send`)

A message goes out behind two bytes, a flag and its port. The bytes are put together in
`_uplink_message_buff`, and the caller may hold the message there itself: from the third byte on,
where `uplink_message_buff` points, or anywhere else. The copy is a `memmove`, so what is sent is
what the caller has put there, wherever that is (`staged_bytes`).
-/

namespace HostInterface.Ifc

open Interact Prog

/-- Where a message is: in the caller's memory, or in `_uplink_message_buff` from some byte on. -/
inductive Message where
  | own (bytes : List U8)
  | within (at_ : Nat)

/-- The bytes a pointer to the message leads to. -/
def Message.bytes (m : Message) (uplinkMessageBuff : List U8) : List U8 :=
  match m with
  | .own bytes => bytes
  | .within i => uplinkMessageBuff.drop i

/-- The `memmove` and the two stores of `ll_message_send`; `none` is an access outside of the
memory that is there. The `memmove` stores what it finds, whether the stretches overlap or not. -/
def staged (buff : List U8) (m : Message) (len : U16) (ack : Bool) (port : U8) :
    Option (List U8) :=
  if len.toNat ≤ (m.bytes buff).length ∧ 2 + len.toNat ≤ buff.length then
    let buff := Buffer.store buff 2 ((m.bytes buff).take len.toNat)
    let buff := buff.set 0 (if ack then 1 else 0)
    some (buff.set 1 port)
  else none

/-- The bytes in front of a message. -/
def messageHeader (ack : Bool) (port : U8) : List U8 :=
  [if ack then 1 else 0, port]

theorem staged_length {buff buff' : List U8} {m : Message} {len : U16} {ack : Bool} {port : U8}
    (h : staged buff m len ack port = some buff') :
    2 + len.toNat ≤ buff'.length ∧ buff'.length = buff.length := by
  unfold staged at h
  split at h
  next hin =>
    obtain rfl := Option.some.inj h
    rw [List.length_set, List.length_set, Buffer.length_store]
    exact ⟨hin.2, rfl⟩
  next => cases h

/-- **What is sent is the message** as it was, behind its header. -/
theorem staged_bytes {buff : List U8} {m : Message} {len : U16} {ack : Bool} {port : U8}
    (hthere : len.toNat ≤ (m.bytes buff).length) (hroom : 2 + len.toNat ≤ buff.length) :
    ∃ buff', staged buff m len ack port = some buff' ∧
      buff'.take (2 + len.toNat) = messageHeader ack port ++ (m.bytes buff).take len.toNat := by
  have hlen : ((m.bytes buff).take len.toNat).length = len.toNat := List.length_take_of_le hthere
  refine ⟨_, if_pos ⟨hthere, hroom⟩, ?_⟩
  generalize (m.bytes buff).take len.toNat = bs at hlen
  have hstored : Buffer.At (Buffer.store buff 2 bs) 2 bs := Buffer.at_store (by omega)
  obtain ⟨b₀, b₁, rest, hbuff⟩ : ∃ b₀ b₁ rest, Buffer.store buff 2 bs = b₀ :: b₁ :: rest := by
    have htwo : 2 ≤ (Buffer.store buff 2 bs).length := by
      rw [Buffer.length_store]
      omega
    match Buffer.store buff 2 bs, htwo with
    | b₀ :: b₁ :: rest, _ => exact ⟨b₀, b₁, rest, rfl⟩
  have htake : rest.take len.toNat = bs := by
    have := hstored.drop_take (by rw [Buffer.length_store]; omega)
    rw [hbuff, hlen, Nat.add_comm] at this
    exact this
  rw [hbuff, Nat.add_comm]
  exact congrArg (messageHeader ack port ++ ·) htake

/-! ## The function -/

section

variable (fuel : Nat) (checksumBuff : List U8) (messageNum : U32)

theorem staged_fits {buff buff' : List U8} {m : Message} {len : U16} {ack : Bool} {port : U8}
    (h : staged buff m len ack port = some buff') (b : List U8) (hb : some buff' = some b) :
    (len + 2).toNat ≤ b.length := by
  obtain rfl := Option.some.inj hb
  have := (staged_length h).1
  rw [BitVec.toNat_add, show (2 : U16).toNat = 2 from rfl]
  omega

theorem staged_valid {buff : List U8} {len : U16} (h : ¬ (len = 0 ∨ 256 < len)) :
    badBuffer (some buff) (len + 2) = false := by
  refine badBuffer_eq_false ?_
  rintro (hno | hzero)
  · cases hno
  · have hlong : ¬ 256 < len := fun hlong => h (Or.inr hlong)
    rw [BitVec.lt_def, show (256 : U16).toNat = 256 from rfl] at hlong
    have hsum := congrArg BitVec.toNat hzero
    rw [BitVec.toNat_add, show (2 : U16).toNat = 2 from rfl, show (0 : U16).toNat = 0 from rfl]
      at hsum
    omega

/-- `ll_message_send`, with `ll_ul_max_port` and `_uplink_message_buff`. -/
def llMessageSend (ulMaxPort : U8) (uplinkMessageBuff : List U8) (buf : Option Message) (len : U16)
    (ack : Bool) (port : U8) : IfcM ((Int × List U8) × U32) :=
  match buf with
  | none => .done ((errorIncorrectParameter, uplinkMessageBuff), messageNum)
  | some m =>
    if hlen : len = 0 ∨ 256 < len then
      .done ((errorIncorrectParameter, uplinkMessageBuff), messageNum)
    else if ulMaxPort < port then
      .done ((errorIncorrectParameter, uplinkMessageBuff), messageNum)
    else
      match h : staged uplinkMessageBuff m len ack port with
      | none => .fault
      | some buff => do
        let sent : Sent := ⟨some buff, len + 2, staged_fits h, staged_valid hlen⟩
        let ((ret, _), messageNum) ← halReadWrite fuel checksumBuff messageNum (order 92 sent)
        return ((ret, buff), messageNum)

variable {fuel checksumBuff messageNum} {ulMaxPort port : U8} {buff buff' : List U8} {m : Message}
  {len : U16} {ack : Bool}

theorem llMessageSend_refused (h : len = 0 ∨ 256 < len ∨ ulMaxPort < port) :
    llMessageSend fuel checksumBuff messageNum ulMaxPort buff (some m) len ack port =
      .done ((errorIncorrectParameter, buff), messageNum) := by
  unfold llMessageSend
  dsimp only
  split
  next => rfl
  next hlen =>
    rcases h with h | h | h
    · exact absurd (.inl h) hlen
    · exact absurd (.inr h) hlen
    · exact if_pos h

theorem llMessageSend_eq (hlen : ¬ (len = 0 ∨ 256 < len)) (hport : ¬ ulMaxPort < port)
    (h : staged buff m len ack port = some buff') :
    llMessageSend fuel checksumBuff messageNum ulMaxPort buff (some m) len ack port =
      (halReadWrite fuel checksumBuff messageNum
        (order 92 ⟨some buff', len + 2, staged_fits h, staged_valid hlen⟩) >>= fun x =>
          pure ((x.1.1, buff'), x.2)) := by
  unfold llMessageSend
  dsimp only
  rw [dif_neg hlen, if_neg hport]
  split
  next hnone =>
    rw [h] at hnone
    cases hnone
  next buff'' hsome =>
    obtain rfl : buff' = buff'' := Option.some.inj (h.symm.trans hsome)
    rfl

end

/-! ## To a module that is called -/

section

variable {μ : Type} {srv : Server μ} {clock : Nat → Int × Time} {starve : Starve} {fuel : Nat}

/-- A message is handed to the server, unless its length or its port is out of range. -/
def handMessage (srv : Server μ) (ulMaxPort : U8) (message : List U8) (ack : Bool) (port : U8)
    (d : Desk μ) : Int × Desk μ :=
  if message = [] ∨ 256 < message.length ∨ ulMaxPort < port then (errorIncorrectParameter, d)
  else
    let payload := messageHeader ack port ++ message
    (((srv d.state 92 payload).1.result (order 92 .nothing)).1,
      ⟨(srv d.state 92 payload).2, d.messageNum + 1,
        d.served ++ [⟨92, d.messageNum.setWidth 8, payload⟩]⟩)

theorem handMessage_sent {ulMaxPort port : U8} {message : List U8} {ack : Bool} {d : Desk μ}
    (hne : message ≠ []) (hlong : ¬ 256 < message.length) (hport : ¬ ulMaxPort < port) :
    handMessage srv ulMaxPort message ack port d =
      (((srv d.state 92 (messageHeader ack port ++ message)).1.result (order 92 .nothing)).1,
        ⟨(srv d.state 92 (messageHeader ack port ++ message)).2, d.messageNum + 1,
          d.served ++ [⟨92, d.messageNum.setWidth 8, messageHeader ack port ++ message⟩]⟩) := by
  refine if_neg ?_
  rintro (h | h | h)
  · exact hne h
  · exact hlong h
  · exact hport h

/-- **A message that is sent is handed to the module**, wherever the caller holds it. -/
theorem llMessageSend_settles (hclock : Prompt clock) (hdry : Dry starve) (hfuel : 65540 ≤ fuel)
    {d : Desk μ} {messageNum : U32} {l : Link μ} (hl : Settled d messageNum l)
    (checksumBuff : List U8) (ulMaxPort : U8) {buff : List U8} (hbuff : buff.length = 258)
    {m : Message} {len : U16} (hthere : len.toNat ≤ (m.bytes buff).length) (ack : Bool) (port : U8) :
    ∃ buff' messageNum' l', buff'.length = 258 ∧
      Ends (remote srv clock starve)
        (llMessageSend fuel checksumBuff messageNum ulMaxPort buff (some m) len ack port) l
        (((handMessage srv ulMaxPort ((m.bytes buff).take len.toNat) ack port d).1, buff'),
          messageNum') l' ∧
      Settled (handMessage srv ulMaxPort ((m.bytes buff).take len.toNat) ack port d).2 messageNum'
        l' := by
  have hlength : ((m.bytes buff).take len.toNat).length = len.toNat := List.length_take_of_le hthere
  have hlong : (256 : U16) < len ↔ 256 < len.toNat := BitVec.lt_def
  have hzero : len = 0 ↔ len.toNat = 0 := (BitVec.toNat_inj (y := 0)).symm
  by_cases hbad : len = 0 ∨ 256 < len ∨ ulMaxPort < port
  · have hrefused : handMessage srv ulMaxPort ((m.bytes buff).take len.toNat) ack port d =
        (errorIncorrectParameter, d) := by
      refine if_pos (hbad.imp (fun h => ?_) (Or.imp_left fun h => ?_))
      · exact List.length_eq_zero_iff.mp (hlength.trans (hzero.mp h))
      · rw [hlength]
        exact hlong.mp h
    rw [llMessageSend_refused hbad, hrefused]
    exact ⟨buff, messageNum, l, hbuff, .done _ _, hl⟩
  · have hlen : ¬ (len = 0 ∨ 256 < len) := fun h => hbad (h.imp_right Or.inl)
    have hport : ¬ ulMaxPort < port := fun h => hbad (Or.inr (Or.inr h))
    have hshort : len.toNat ≤ 256 := Nat.not_lt.mp fun h => hlen (.inr (hlong.mpr h))
    obtain ⟨buff', hstaged, hbytes⟩ := @staged_bytes buff m len ack port hthere
      (show 2 + len.toNat ≤ buff.length by omega)
    rw [llMessageSend_eq hlen hport hstaged, handMessage_sent
      (fun h => hlen (.inl (hzero.mpr (hlength.symm.trans (List.length_eq_zero_iff.mpr h)))))
      (by omega) hport]
    -- The command's payload is the message behind its header.
    have hpayload : (order 92 ⟨some buff', len + 2, staged_fits hstaged, staged_valid hlen⟩).payload =
        messageHeader ack port ++ (m.bytes buff).take len.toNat := by
      rw [← hbytes]
      show buff'.take (len + 2).toNat = _
      rw [BitVec.toNat_add, show (2 : U16).toNat = 2 from rfl, Nat.mod_eq_of_lt (by omega),
        Nat.add_comm]
    obtain ⟨messageNum', l', hends, hl'⟩ := @halReadWrite_settles μ srv clock starve hclock hdry fuel
      hfuel ⟨order 92 ⟨some buff', len + 2, staged_fits hstaged, staged_valid hlen⟩, checksumBuff⟩
      d messageNum l hl
    unfold desk at hends hl'
    dsimp only at hends hl'
    rw [if_pos ⟨staged_valid hlen, rfl⟩, hpayload] at hends hl'
    exact ⟨buff', messageNum', l', (staged_length hstaged).2.trans hbuff, hends.bind (.done _ _),
      hl'⟩

end

end HostInterface.Ifc

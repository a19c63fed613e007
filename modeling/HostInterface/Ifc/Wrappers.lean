import HostInterface.Ifc.Faithful
import HostInterface.Ifc.Serialize
import HostInterface.Ifc.Setter

/-!
# Wrappers around an exchange (`ll_ifc_no_mac.c`)

Seven functions send or receive a packet with a `hal_read_write`, and report what it has
returned: an error as it is, or as -1, or cast to `int8_t`. Only the cast can go wrong. A NACK
has a code up to 255, and 129 and the ones above become positive.

`wrapper_honest_iff` says for which response streams a failed exchange is reported as a
failure: for every stream where a packet is received, and where one is sent, for those that do not
begin with a `Reversed` answer.
-/

namespace HostInterface.Ifc

open Interact Prog Reader Writer

/-- `LL_IFC_ERROR_INCORRECT_RESPONSE_LENGTH`. -/
abbrev errorIncorrectResponseLength : Int := -102

/-- A pointer and a length; a buffer that is there has the bytes its length says. -/
structure Buf where
  ptr : Option (List U8)
  len : U16
  fits : ∀ b, ptr = some b → len.toNat ≤ b.length

/-- What the stack and `checksum_buff` hold in the exchanges of a wrapper. -/
structure Memory where
  checksumBuff : Nat → List U8
  cmdResponse : Local (1 : U16).toNat

theorem timestamp_length (timestampUs : U32) :
    (bytes32 .leftToRight timestampUs).length = (4 : U16).toNat := rfl

/-- The payload of `ll_packet_send_timestamp`. -/
def timestampBytes (timestampUs : U32) : Local (4 : U16).toNat :=
  ⟨bytes32 .leftToRight timestampUs, timestamp_length timestampUs⟩

/-- It is what `write_uint32` leaves in `in_buf`. -/
theorem timestampBytes_written (timestampUs : U32) (inBuf : Local (4 : U16).toNat) :
    (writeUint32 timestampUs).run inBuf.bytes = some (4, (timestampBytes timestampUs).bytes) := by
  have hrun := (writeUint32_writes timestampUs).run (Nat.le_of_eq inBuf.length_eq.symm)
  rw [inBuf.drop_full (timestamp_length timestampUs)] at hrun
  exact hrun

section Wrappers

variable (fuel : Nat) (messageNum : U32)

/-- `hal_read_write_exact`. -/
def halReadWriteExact (checksumBuff : List U8) (c : Command) :
    IfcM ((Int × Option (List U8)) × U32) := do
  let ((ret, out), messageNum) ← halReadWrite fuel checksumBuff messageNum c
  if ret ≥ 0 then
    if ret ≠ c.outLen.toNat then return ((errorIncorrectResponseLength, out), messageNum)
    else return ((0, out), messageNum)
  else return ((ret, out), messageNum)

/-! ## Sending -/

/-- `ll_packet_send`. -/
def llPacketSend (checksumBuff : List U8) (cmdResponse : Local (1 : U16).toNat) (buf : Buf) :
    IfcM (Int × U32) :=
  llPacketSendQueue fuel checksumBuff messageNum cmdResponse buf.ptr buf.len buf.fits

/-- The first exchange of `ll_packet_send_timestamp`. -/
def timestampCommand (timestampUs : U32) : Command :=
  order 132 (.all (timestampBytes timestampUs) four_bytes)

/-- `ll_packet_send_timestamp`. -/
def llPacketSendTimestamp (mem : Memory) (timestampUs : U32) (buf : Buf) : IfcM (Int × U32) := do
  let ((rwResponse, _), messageNum) ←
    halReadWriteExact fuel messageNum (mem.checksumBuff 0) (timestampCommand timestampUs)
  if rwResponse < 0 then return (rwResponse, messageNum)
  llPacketSendQueue fuel (mem.checksumBuff 1) messageNum mem.cmdResponse buf.ptr buf.len buf.fits

/-! ## Receiving -/

/-- The exchange of a function that receives. -/
def receiveCommand (op : U8) (sent : Sent) (buf : Buf) : Command :=
  ⟨op, sent.buf, sent.len, buf.ptr, buf.len, sent.fits, buf.fits⟩

/-- Receive into the caller's buffer; `error` is what is returned for an error. -/
def receive (checksumBuff : List U8) (op : U8) (sent : Sent) (error : Int → Int) (buf : Buf)
    (bytesReceived : Option U8) : IfcM ((Int × Option (List U8) × Option U8) × U32) :=
  if buf.ptr.isNone ∨ buf.len = 0 ∨ bytesReceived.isNone then
    .done ((errorIncorrectParameter, buf.ptr, bytesReceived), messageNum)
  else do
    let ((rwResponse, out), messageNum) ←
      halReadWrite fuel checksumBuff messageNum (receiveCommand op sent buf)
    if rwResponse < 0 then return ((error rwResponse, out, some 0), messageNum)
    else return ((0, out, some (BitVec.ofInt 8 rwResponse)), messageNum)

/-- `num_timeout_symbols`, big-endian. -/
def timeoutSymbols (numTimeoutSymbols : U16) : Local (2 : U16).toNat :=
  ⟨[(numTimeoutSymbols >>> 8).setWidth 8, (numTimeoutSymbols >>> 0).setWidth 8], rfl⟩

/-- The same, and a request for the frequency error. -/
def timeoutSymbolsFreq (numTimeoutSymbols : U16) : Local (3 : U16).toNat :=
  ⟨[(numTimeoutSymbols >>> 8).setWidth 8, numTimeoutSymbols.setWidth 8, 0x01], rfl⟩

def requestType : Local (1 : U16).toNat :=
  ⟨[0x01], rfl⟩

/-- What `ll_packet_recv` sends. -/
def recvSent (numTimeoutSymbols : U16) : Sent :=
  .all (timeoutSymbols numTimeoutSymbols) (by decide)

/-- What `ll_packet_recv_cont` sends. -/
def recvContSent (freqErrorRequested : Bool) : Sent :=
  if freqErrorRequested then .all requestType one_byte else .nothing

/-- What `ll_packet_recv_with_rssi` sends. -/
def recvWithRssiSent (numTimeoutSymbols : U16) (freqErrorRequested : Bool) : Sent :=
  if freqErrorRequested then .all (timeoutSymbolsFreq numTimeoutSymbols) (by decide)
  else .all (timeoutSymbols numTimeoutSymbols) (by decide)

/-- `ll_packet_recv`. -/
def llPacketRecv (checksumBuff : List U8) (numTimeoutSymbols : U16) (buf : Buf)
    (bytesReceived : Option U8) : IfcM ((Int × Option (List U8) × Option U8) × U32) :=
  receive fuel messageNum checksumBuff 40 (recvSent numTimeoutSymbols) (fun _ => -1) buf
    bytesReceived

/-- `ll_packet_recv_cont`. -/
def llPacketRecvCont (checksumBuff : List U8) (buf : Buf) (bytesReceived : Option U8)
    (freqErrorRequested : Bool) : IfcM ((Int × Option (List U8) × Option U8) × U32) :=
  receive fuel messageNum checksumBuff 42 (recvContSent freqErrorRequested) id buf bytesReceived

/-- `ll_packet_recv_with_rssi`. -/
def llPacketRecvWithRssi (checksumBuff : List U8) (numTimeoutSymbols : U16) (buf : Buf)
    (bytesReceived : Option U8) (freqErrorRequested : Bool) :
    IfcM ((Int × Option (List U8) × Option U8) × U32) :=
  receive fuel messageNum checksumBuff 41 (recvWithRssiSent numTimeoutSymbols freqErrorRequested)
    (fun _ => -1) buf bytesReceived

/-- `ll_rssi_scan_get`. -/
def llRssiScanGet (checksumBuff : List U8) (buf : Buf) (bytesReceived : Option U8) :
    IfcM ((Int × Option (List U8) × Option U8) × U32) :=
  receive fuel messageNum checksumBuff 121 .nothing (fun _ => -1) buf bytesReceived

end Wrappers

/-! ## Calls of the wrappers -/

/-- A call of one of the seven, with its arguments. -/
inductive Wrapper where
  | packetSend (buf : Buf)
  | packetSendQueue (buf : Buf)
  | packetSendTimestamp (timestampUs : U32) (buf : Buf)
  | packetRecv (numTimeoutSymbols : U16) (buf : Buf) (bytesReceived : Option U8)
  | packetRecvCont (buf : Buf) (bytesReceived : Option U8) (freqErrorRequested : Bool)
  | packetRecvWithRssi (numTimeoutSymbols : U16) (buf : Buf) (bytesReceived : Option U8)
      (freqErrorRequested : Bool)
  | rssiScanGet (buf : Buf) (bytesReceived : Option U8)

/-- What the call returns. -/
def Wrapper.call (fuel : Nat) (messageNum : U32) (mem : Memory) : Wrapper → IfcM Int
  | .packetSend buf => do
    let r ← llPacketSend fuel messageNum (mem.checksumBuff 0) mem.cmdResponse buf
    return r.1
  | .packetSendQueue buf => do
    let r ← llPacketSendQueue fuel (mem.checksumBuff 0) messageNum mem.cmdResponse buf.ptr buf.len
      buf.fits
    return r.1
  | .packetSendTimestamp timestampUs buf => do
    let r ← llPacketSendTimestamp fuel messageNum mem timestampUs buf
    return r.1
  | .packetRecv numTimeoutSymbols buf bytesReceived => do
    let r ← llPacketRecv fuel messageNum (mem.checksumBuff 0) numTimeoutSymbols buf bytesReceived
    return r.1.1
  | .packetRecvCont buf bytesReceived freqErrorRequested => do
    let r ← llPacketRecvCont fuel messageNum (mem.checksumBuff 0) buf bytesReceived
      freqErrorRequested
    return r.1.1
  | .packetRecvWithRssi numTimeoutSymbols buf bytesReceived freqErrorRequested => do
    let r ← llPacketRecvWithRssi fuel messageNum (mem.checksumBuff 0) numTimeoutSymbols buf
      bytesReceived freqErrorRequested
    return r.1.1
  | .rssiScanGet buf bytesReceived => do
    let r ← llRssiScanGet fuel messageNum (mem.checksumBuff 0) buf bytesReceived
    return r.1.1

/-- The exchange of `ll_packet_send_queue`. -/
def queueCommand (buf : Buf) (cmdResponse : Local (1 : U16).toNat) : Command :=
  ⟨11, buf.ptr, buf.len, some cmdResponse.bytes, 1, buf.fits, local_fits cmdResponse⟩

section Failing

variable {σ : Type} (h : (e : Call) → σ → Reply e × σ)

/-- Against `h`, from `s`, an exchange returns a negative value. -/
def Fails (p : IfcM ((Int × Option (List U8)) × U32)) (s : σ) : Prop :=
  ∃ ret messageNum s', Ends h p s (ret, messageNum) s' ∧ ret.1 < 0

/-- An exchange that the call makes fails. -/
def Wrapper.Failing (fuel : Nat) (messageNum : U32) (mem : Memory) (s : σ) : Wrapper → Prop
  | .packetSend buf | .packetSendQueue buf =>
    Fails h (halReadWrite fuel (mem.checksumBuff 0) messageNum (queueCommand buf mem.cmdResponse)) s
  | .packetSendTimestamp timestampUs buf =>
    Fails h (halReadWriteExact fuel messageNum (mem.checksumBuff 0) (timestampCommand timestampUs))
        s ∨
      ∃ ret messageNum' s₁, Ends h (halReadWriteExact fuel messageNum (mem.checksumBuff 0)
          (timestampCommand timestampUs)) s (ret, messageNum') s₁ ∧ 0 ≤ ret.1 ∧
        Fails h (halReadWrite fuel (mem.checksumBuff 1) messageNum'
          (queueCommand buf mem.cmdResponse)) s₁
  | .packetRecv numTimeoutSymbols buf _ =>
    Fails h (halReadWrite fuel (mem.checksumBuff 0) messageNum
      (receiveCommand 40 (recvSent numTimeoutSymbols) buf)) s
  | .packetRecvCont buf _ freqErrorRequested =>
    Fails h (halReadWrite fuel (mem.checksumBuff 0) messageNum
      (receiveCommand 42 (recvContSent freqErrorRequested) buf)) s
  | .packetRecvWithRssi numTimeoutSymbols buf _ freqErrorRequested =>
    Fails h (halReadWrite fuel (mem.checksumBuff 0) messageNum
      (receiveCommand 41 (recvWithRssiSent numTimeoutSymbols freqErrorRequested) buf)) s
  | .rssiScanGet buf _ =>
    Fails h (halReadWrite fuel (mem.checksumBuff 0) messageNum (receiveCommand 121 .nothing buf)) s

end Failing

/-- On the response stream `B`, a call in which an exchange fails returns a negative value, and
1 is returned for a packet put into the queue only where the module has acknowledged it. -/
structure Wrapper.Honest (w : Wrapper) (messageNum : U32) (B : List U8) : Prop where
  negative : ∀ clock starve, Dry starve → ∀ fuel mem r s',
    Ends (stream clock starve) (w.call fuel messageNum mem) ⟨B, 0, false⟩ r s' →
    w.Failing (stream clock starve) fuel messageNum mem ⟨B, 0, false⟩ → r < 0
  queued : ∀ buf, w = .packetSendQueue buf → ∀ clock starve, Dry starve → ∀ fuel mem s',
    Ends (stream clock starve) (w.call fuel messageNum mem) ⟨B, 0, false⟩ 1 s' →
    ∃ hd tail, Heads B hd tail ∧ hd.Answers 11 (messageNum.setWidth 8)

/-- The first header is that of a NACK with a code that becomes positive. It fits, and the stream
ends before its checksum does, or its checksum is right for some content of a byte that it
may declare. -/
def Reversed (B : List U8) : Prop :=
  ∃ hd tail, Heads B hd tail ∧ 129 ≤ hd.ack.toNat ∧ hd.len ≤ 1 ∧
    (tail.length < 2 ∨ ∃ x hi lo rest, tail = hi :: lo :: rest ∧
      fromBe16 hi lo = computeChecksum hd.bytes ([x].take hd.len))

/-- The call sends its packet, and the answer to it is `Reversed`. -/
def Wrapper.Deceived (messageNum : U32) (B : List U8) : Wrapper → Prop
  | .packetSend buf | .packetSendQueue buf => ¬ (buf.ptr.isNone = true ∨ buf.len = 0) ∧ Reversed B
  | .packetSendTimestamp _ buf => ¬ (buf.ptr.isNone = true ∨ buf.len = 0) ∧
      ∃ rest, Delivers 132 (messageNum.setWidth 8) 0 B [] rest ∧ Reversed rest
  | _ => False

/-! ## Receiving is honest -/

theorem receive_negative {σ : Type} {h : (e : Call) → σ → Reply e × σ} {fuel : Nat}
    {messageNum messageNum' : U32} {checksumBuff : List U8} {op : U8} {sent : Sent}
    {error : Int → Int} (herror : ∀ x, x < 0 → error x < 0) {buf : Buf} {bytesReceived : Option U8}
    {s s' : σ} {r : Int × Option (List U8) × Option U8}
    (hends : Ends h (receive fuel messageNum checksumBuff op sent error buf bytesReceived) s
      (r, messageNum') s')
    (hfails : Fails h (halReadWrite fuel checksumBuff messageNum (receiveCommand op sent buf)) s) :
    r.1 < 0 := by
  unfold receive at hends
  split at hends
  next =>
    obtain ⟨heq, -⟩ := ends_done.mp hends
    obtain ⟨rfl, -⟩ := Prod.mk.inj heq
    exact (by decide : errorIncorrectParameter < 0)
  next =>
    obtain ⟨ret, num, s₁, hexchange, hneg⟩ := hfails
    obtain ⟨x, s₂, hx, hrest⟩ := ends_bind.mp hends
    obtain ⟨rfl, rfl⟩ := hx.unique hexchange
    obtain ⟨rw', out⟩ := ret
    dsimp only at hrest
    rw [if_pos hneg] at hrest
    obtain ⟨heq, -⟩ := ends_done.mp hrest
    obtain ⟨rfl, -⟩ := Prod.mk.inj heq
    exact herror _ hneg

/-! ## Sending is honest where the answer is not reversed -/

section Queue

variable {clock : Nat → Int × Time} {starve : Starve} {fuel : Nat} {messageNum num : U32}
  {checksumBuff : List U8} {cmdResponse : Local (1 : U16).toNat} {buf : Buf} {B : List U8}
  {s s' : Stream} {r : Int}

/-- An error that becomes positive has been heard in a reversed answer. -/
theorem Hears.reversed {starved : Bool} {heard : Heard} {bytes : List U8} {op messageNum : U8}
    (h : Hears op messageNum true 1 B starved heard s') (hlen : bytes.length = 1)
    (hneg : (conclude checksumBuff op messageNum (some bytes) heard).1 < 0)
    (hret : 0 ≤ int8 (conclude checksumBuff op messageNum (some bytes) heard).1) : Reversed B := by
  cases h with
  | @refused code _ hlow hcode => exact absurd hret (int8_error ⟨hlow, hcode⟩)
  | @whole hd payload hi lo s' hhd hfit hread hst =>
    rw [conclude_frame] at hneg hret
    dsimp only at hneg hret
    obtain ⟨hcode, hsum⟩ := concludeFrame_narrow hneg hret
    have hnil : payload = [] :=
      List.eq_nil_of_length_eq_zero (hread.trans (Header.takes_nack (ack_ne_zero hcode)))
    subst hnil
    rw [withPayload_nil] at hsum
    obtain ⟨x, rfl⟩ := List.length_eq_one_iff.mp hlen
    exact ⟨hd, _, hhd, hcode, hfit, .inr ⟨x, hi, lo, _, rfl, hsum⟩⟩
  | @cut hd tail payload sum s' hhd hfit hshort hst hle =>
    rw [conclude_frame] at hneg hret
    dsimp only at hneg hret
    obtain ⟨hcode, -⟩ := concludeFrame_narrow hneg hret
    rw [Header.takes_nack (ack_ne_zero hcode)] at hshort
    exact ⟨hd, tail, hhd, hcode, hfit, .inl hshort⟩

theorem queue_negative (hdry : Dry starve)
    (hB : ¬ (¬ (buf.ptr.isNone = true ∨ buf.len = 0) ∧ Reversed s.rest))
    (hends : Ends (stream clock starve)
      (llPacketSendQueue fuel checksumBuff messageNum cmdResponse buf.ptr buf.len buf.fits) s
      (r, num) s')
    (hfails : Fails (stream clock starve)
      (halReadWrite fuel checksumBuff messageNum (queueCommand buf cmdResponse)) s) : r < 0 := by
  by_cases hargs : buf.ptr.isNone = true ∨ buf.len = 0
  · unfold llPacketSendQueue at hends
    rw [dif_pos hargs] at hends
    obtain ⟨heq, -⟩ := ends_done.mp hends
    obtain ⟨rfl, -⟩ := Prod.mk.inj heq
    decide
  · obtain ⟨ret, num', hexchange, heq⟩ := (sendQueue_ends_iff hargs).mp hends
    obtain ⟨rfl, rfl⟩ := Prod.mk.inj heq
    obtain ⟨ret', num', s₁, hexchange', hneg⟩ := hfails
    obtain ⟨heq, -⟩ := hexchange.unique hexchange'
    obtain ⟨rfl, rfl⟩ := Prod.mk.inj heq
    obtain ⟨-, heard, hheard, rfl⟩ := (query_ends_iff (by decide)).mp hexchange
    unfold queueResult
    rw [if_pos hneg]
    by_contra hpos
    exact hB ⟨hargs, (listen_wlp hdry fuel s heard s' hheard).reversed cmdResponse.length_eq hneg
      (Int.not_lt.mp hpos)⟩

/-- A byte of the module is returned where it has acknowledged the packet. -/
theorem queue_acknowledged (hdry : Dry starve) (hpos : 0 ≤ r)
    (hends : Ends (stream clock starve)
      (llPacketSendQueue fuel checksumBuff messageNum cmdResponse buf.ptr buf.len buf.fits) s
      (r, num) s')
    (hnegative : Fails (stream clock starve)
      (halReadWrite fuel checksumBuff messageNum (queueCommand buf cmdResponse)) s → r < 0) :
    ∃ hd tail, Heads s.rest hd tail ∧ hd.Answers 11 (messageNum.setWidth 8) := by
  by_cases hargs : buf.ptr.isNone = true ∨ buf.len = 0
  · unfold llPacketSendQueue at hends
    rw [dif_pos hargs] at hends
    obtain ⟨heq, -⟩ := ends_done.mp hends
    obtain ⟨rfl, -⟩ := Prod.mk.inj heq
    exact absurd hpos (by decide)
  · obtain ⟨ret, num', hexchange, heq⟩ := (sendQueue_ends_iff hargs).mp hends
    obtain ⟨-, rfl⟩ := Prod.mk.inj heq
    have hret : 0 ≤ ret.1 := by
      by_contra hneg
      have hlt := hnegative ⟨ret, _, s', hexchange, Int.not_le.mp hneg⟩
      omega
    obtain ⟨-, heard, hheard, rfl⟩ := (query_ends_iff (by decide)).mp hexchange
    cases listen_wlp hdry fuel s heard s' hheard with
    | @refused code _ _ hcode =>
      have hret : 0 ≤ code := hret
      omega
    | whole hhd =>
      rw [conclude_frame] at hret
      dsimp only at hret
      rw [concludeFrame_nonneg] at hret
      exact ⟨_, _, hhd, hret.1⟩
    | cut hhd =>
      rw [conclude_frame] at hret
      dsimp only at hret
      rw [concludeFrame_nonneg] at hret
      exact ⟨_, _, hhd, hret.1⟩

/-- The code of a reversed answer can be what `hal_read_write` returns. -/
theorem Reversed.runs (h : Reversed B) (i : Nat) (b : Bool) :
    ∃ (m : Nat) (s' : Stream) (checksumBuff : List U8) (cmdResponse : Local (1 : U16).toNat)
      (c : U8) (l : Option (List U8)), 129 ≤ c.toNat ∧ ∀ n, m ≤ n → ∀ sent : Sent,
      Ends (stream still silent) (halReadWrite n checksumBuff messageNum
          (query 11 sent 1 cmdResponse (Nat.le_refl _))) ⟨B, i, b⟩
        ((-(c.toNat : Int), l), messageNum + 1) s' := by
  obtain ⟨hd, tail, hhd, hcode, hfit, hwhy⟩ := h
  have hack := ack_ne_zero hcode
  rcases hwhy with hshort | ⟨x, hi, lo, rest, rfl, hsum⟩
  · -- The checksum cannot be read, and `checksum_buff` has it already.
    obtain ⟨m, looks, hends⟩ := @nack_cut messageNum B 11 hd tail hhd hack hfit hshort i b
    obtain ⟨sum, hsum⟩ : ∃ sum, sum = computeChecksum hd.bytes
        (((some (Local.fill (1 : U16).toNat 0).bytes).getD []).take hd.len) := ⟨_, rfl⟩
    have hrun : ∀ n, m ≤ n → ∀ sent : Sent, Ends (stream still silent) (halReadWrite n (be16 sum)
        messageNum (query 11 sent 1 (Local.fill (1 : U16).toNat 0) (Nat.le_refl _))) ⟨B, i, b⟩
        ((-(hd.ack.toNat : Int), some (Local.fill (1 : U16).toNat 0).bytes), messageNum + 1)
        ⟨[], looks, true⟩ := by
      intro n hmn sent
      rw [← concludeFrame_nack hack ((fromBe16_unread sum).trans hsum)]
      exact hends n hmn sent (be16 sum) (Local.fill (1 : U16).toNat 0)
    exact ⟨m, _, _, _, hd.ack, _, hcode, hrun⟩
  · obtain ⟨m, looks, hends⟩ := @nack_whole messageNum B 11 hd hi lo rest hhd hack hfit i b
    have hrun : ∀ n, m ≤ n → ∀ sent : Sent, Ends (stream still silent) (halReadWrite n []
        messageNum (query 11 sent 1 (⟨[x], rfl⟩ : Local (1 : U16).toNat) (Nat.le_refl _)))
        ⟨B, i, b⟩ ((-(hd.ack.toNat : Int), some [x]), messageNum + 1) ⟨rest, looks, b⟩ := by
      intro n hmn sent
      rw [← @concludeFrame_nack [] 11 (messageNum.setWidth 8) (some [x]) hd [hi, lo] hack hsum]
      exact hends n hmn sent [] ⟨[x], rfl⟩
    exact ⟨m, _, _, _, hd.ack, _, hcode, hrun⟩

end Queue

section Timestamp

variable {clock : Nat → Int × Time} {starve : Starve} {fuel : Nat} {messageNum num : U32}
  {checksumBuff : List U8} {timestampUs : U32} {B : List U8} {s s' : Stream}

theorem timestamp_ends_iff {ret : Int × Option (List U8)} :
    Ends (stream clock starve)
        (halReadWrite fuel checksumBuff messageNum (timestampCommand timestampUs)) s (ret, num) s' ↔
      num = messageNum + 1 ∧ ∃ heard,
        Ends (stream clock starve) (listen fuel 132 (messageNum.setWidth 8) false 0) s heard s' ∧
        ret = conclude checksumBuff 132 (messageNum.setWidth 8) none heard :=
  halReadWrite_ends_iff (local_valid _ (by decide)) rfl

/-- Where the first exchange succeeds, its answer is there in whole, or the stream is at its end. -/
theorem timestamp_accepted (hdry : Dry starve) {ret : Int × Option (List U8)}
    (hends : Ends (stream clock starve)
      (halReadWriteExact fuel messageNum checksumBuff (timestampCommand timestampUs)) s (ret, num)
      s') (hret : 0 ≤ ret.1) :
    Delivers 132 (messageNum.setWidth 8) 0 s.rest [] s'.rest ∨ s'.rest.length < 2 := by
  obtain ⟨⟨⟨ret', out⟩, num'⟩, s₁, hexchange, hrest⟩ := ends_bind.mp hends
  have hret' : s' = s₁ ∧ 0 ≤ ret' := by
    dsimp only at hrest
    by_cases hpos : ret' ≥ 0
    · refine ⟨?_, hpos⟩
      rw [if_pos hpos] at hrest
      split at hrest
      next => exact (ends_done.mp hrest).2
      next => exact (ends_done.mp hrest).2
    · rw [if_neg hpos] at hrest
      obtain ⟨heq, hs⟩ := ends_done.mp hrest
      obtain ⟨rfl, -⟩ := Prod.mk.inj heq
      exact absurd hret hpos
  obtain ⟨rfl, hpos⟩ := hret'
  obtain ⟨-, heard, hheard, heq⟩ := timestamp_ends_iff.mp hexchange
  have hpos : 0 ≤ (conclude checksumBuff 132 (messageNum.setWidth 8) none heard).1 := by
    rw [← heq]
    exact hpos
  cases listen_wlp hdry fuel s heard s' hheard with
  | @refused code _ _ hcode =>
    have hpos : 0 ≤ code := hpos
    omega
  | @whole hd payload hi lo _ hhd hfit hlen _ =>
    rw [conclude_frame] at hpos
    dsimp only at hpos
    rw [concludeFrame_nonneg] at hpos
    obtain ⟨hanswers, hsum⟩ := hpos
    have hnil : payload = [] :=
      List.eq_nil_of_length_eq_zero (hlen.trans (if_neg fun h => Bool.false_ne_true h.2))
    subst hnil
    have hzero : hd.len = 0 := Nat.le_zero.mp hfit
    rw [withPayload_nil, hzero] at hsum
    have hsum : fromBe16 hi lo = computeChecksum hd.bytes [] := hsum
    refine .inl (delivers_iff.mpr ⟨hd, ?_, hanswers, hzero.symm, hfit⟩)
    rw [← hsum, be16_fromBe16]
    exact hhd
  | @cut hd tail payload sum _ hhd hfit hshort _ hle =>
    have htakes : hd.takes 132 (messageNum.setWidth 8) false = 0 :=
      if_neg fun h => Bool.false_ne_true h.2
    rw [htakes] at hshort
    exact .inr (by omega)

/-- An answer that is there in whole is accepted. -/
theorem timestamp_runs {rest : List U8} (h : Delivers 132 (messageNum.setWidth 8) 0 B [] rest) :
    ∃ m looks, ∀ n, m ≤ n → Ends (stream still silent)
      (halReadWriteExact n messageNum checksumBuff (timestampCommand timestampUs)) ⟨B, 0, false⟩
      ((0, none), messageNum + 1) ⟨rest, looks, false⟩ := by
  obtain ⟨hd, hhd, hanswers, hlen, hfit⟩ := delivers_iff.mp h
  have htakes : ([] : List U8).length = hd.takes 132 (messageNum.setWidth 8) false :=
    (if_neg fun h => Bool.false_ne_true h.2).symm
  obtain ⟨m, looks, hheard⟩ := @listen_whole still silent 132 (messageNum.setWidth 8) false 0 B []
    rest hd _ _ 0 false (still_ok 0) hhd hfit htakes
  have hzero : hd.len = 0 := hlen.symm
  have hconclude : conclude checksumBuff 132 (messageNum.setWidth 8) none
      (.frame hd.bytes [] (be16 (computeChecksum hd.bytes []))) = (0, none) := by
    have hsum := fromBe16_be16 (computeChecksum hd.bytes [])
    have hframe := @concludeFrame_whole checksumBuff 132 (messageNum.setWidth 8) none hd
      ((computeChecksum hd.bytes [] >>> 8).setWidth 8) ((computeChecksum hd.bytes []).setWidth 8)
    rw [Option.getD_none, List.take_nil, if_neg (not_not_intro hsum),
      if_pos (Header.error_eq_zero.mpr hanswers), hzero] at hframe
    exact congrArg (·, none) hframe
  refine ⟨m, looks, fun n hmn => ?_⟩
  have hexchange := (@timestamp_ends_iff still silent n messageNum _ checksumBuff timestampUs
    ⟨B, 0, false⟩ _ _).mpr ⟨rfl, _, (listen_below 132 _ false 0 m n hmn).ends hheard,
      hconclude.symm⟩
  refine hexchange.bind ?_
  exact .done _ _

/-- A stream at its end has no answer. -/
theorem Reversed.length (h : Reversed B) : 6 ≤ B.length := by
  obtain ⟨hd, tail, ⟨junk, -, rfl⟩, -⟩ := h
  simp only [Header.bytes, List.length_append, List.length_cons, List.length_nil]
  omega

end Timestamp

/-! ## All seven -/

section Honest

variable {messageNum : U32} {B : List U8}

theorem wrapper_negative {w : Wrapper} (hB : ¬ w.Deceived messageNum B)
    {clock : Nat → Int × Time} {starve : Starve} (hdry : Dry starve) {fuel : Nat} {mem : Memory}
    {r : Int} {s' : Stream}
    (hends : Ends (stream clock starve) (w.call fuel messageNum mem) ⟨B, 0, false⟩ r s')
    (hfails : w.Failing (stream clock starve) fuel messageNum mem ⟨B, 0, false⟩) : r < 0 := by
  cases w with
  | packetSend buf =>
    obtain ⟨⟨ret, num⟩, s₁, hcall, hrest⟩ := ends_bind.mp hends
    obtain ⟨rfl, -⟩ := ends_done.mp hrest
    have hB : ¬ (¬ (buf.ptr.isNone = true ∨ buf.len = 0) ∧ Reversed B) := hB
    exact queue_negative hdry hB hcall hfails
  | packetSendQueue buf =>
    obtain ⟨⟨ret, num⟩, s₁, hcall, hrest⟩ := ends_bind.mp hends
    obtain ⟨rfl, -⟩ := ends_done.mp hrest
    have hB : ¬ (¬ (buf.ptr.isNone = true ∨ buf.len = 0) ∧ Reversed B) := hB
    exact queue_negative hdry hB hcall hfails
  | packetSendTimestamp timestampUs buf =>
    obtain ⟨⟨ret, num⟩, s₁, hcall, hrest⟩ := ends_bind.mp hends
    obtain ⟨rfl, -⟩ := ends_done.mp hrest
    obtain ⟨⟨⟨ret', out⟩, num'⟩, s₂, hfirst, hsecond⟩ := ends_bind.mp hcall
    dsimp only at hsecond
    by_cases hneg : ret' < 0
    · rw [if_pos hneg] at hsecond
      obtain ⟨heq, -⟩ := ends_done.mp hsecond
      obtain ⟨rfl, -⟩ := Prod.mk.inj heq
      exact hneg
    · rw [if_neg hneg] at hsecond
      rcases hfails with ⟨x, num'', s₃, hfirst', hneg'⟩ | ⟨x, num'', s₃, hfirst', -, hfails⟩
      · obtain ⟨heq, -⟩ := hfirst.unique hfirst'
        obtain ⟨rfl, -⟩ := Prod.mk.inj heq
        exact absurd hneg' hneg
      · obtain ⟨heq, rfl⟩ := hfirst.unique hfirst'
        obtain ⟨-, rfl⟩ := Prod.mk.inj heq
        -- What is left of the stream is not reversed.
        refine queue_negative hdry (fun hdeceived => ?_) hsecond hfails
        rcases timestamp_accepted hdry hfirst (Int.not_lt.mp hneg) with hdelivers | hshort
        · exact hB ⟨hdeceived.1, s₂.rest, hdelivers, hdeceived.2⟩
        · exact absurd hdeceived.2.length (by omega)
  | packetRecv numTimeoutSymbols buf bytesReceived =>
    obtain ⟨⟨ret, num⟩, s₁, hcall, hrest⟩ := ends_bind.mp hends
    obtain ⟨rfl, -⟩ := ends_done.mp hrest
    exact receive_negative (fun _ _ => by decide) hcall hfails
  | packetRecvCont buf bytesReceived freqErrorRequested =>
    obtain ⟨⟨ret, num⟩, s₁, hcall, hrest⟩ := ends_bind.mp hends
    obtain ⟨rfl, -⟩ := ends_done.mp hrest
    exact receive_negative (fun _ h => h) hcall hfails
  | packetRecvWithRssi numTimeoutSymbols buf bytesReceived freqErrorRequested =>
    obtain ⟨⟨ret, num⟩, s₁, hcall, hrest⟩ := ends_bind.mp hends
    obtain ⟨rfl, -⟩ := ends_done.mp hrest
    exact receive_negative (fun _ _ => by decide) hcall hfails
  | rssiScanGet buf bytesReceived =>
    obtain ⟨⟨ret, num⟩, s₁, hcall, hrest⟩ := ends_bind.mp hends
    obtain ⟨rfl, -⟩ := ends_done.mp hrest
    exact receive_negative (fun _ _ => by decide) hcall hfails

/-- On a stream that deceives it, a failed exchange is not reported. -/
theorem Wrapper.Deceived.positive {w : Wrapper} (h : w.Deceived messageNum B) :
    ∃ fuel mem r s', 0 ≤ r ∧
      Ends (stream still silent) (w.call fuel messageNum mem) ⟨B, 0, false⟩ r s' ∧
      w.Failing (stream still silent) fuel messageNum mem ⟨B, 0, false⟩ := by
  have hqueue : ∀ buf : Buf, ¬ (buf.ptr.isNone = true ∨ buf.len = 0) → ∀ {B num i},
      Reversed B → ∃ m checksumBuff cmdResponse s' r l, 0 ≤ queueResult (r, l) ∧ r < 0 ∧
        ∀ n, m ≤ n → Ends (stream still silent)
            (halReadWrite n checksumBuff num (queueCommand buf cmdResponse)) ⟨B, i, false⟩
            ((r, l), num + 1) s' ∧
          Ends (stream still silent)
            (llPacketSendQueue n checksumBuff num cmdResponse buf.ptr buf.len buf.fits)
            ⟨B, i, false⟩ (queueResult (r, l), num + 1) s' := by
    intro buf hargs B num i hrev
    obtain ⟨m, s', checksumBuff, cmdResponse, c, l, hc, hends⟩ := @Reversed.runs num B hrev i false
    refine ⟨m, checksumBuff, cmdResponse, s', _, l, queueResult_nack hc l, by omega,
      fun n hmn => ?_⟩
    have hexchange := hends n hmn ⟨buf.ptr, buf.len, buf.fits, badBuffer_eq_false hargs⟩
    exact ⟨hexchange, (sendQueue_ends_iff hargs).mpr ⟨_, _, hexchange, rfl⟩⟩
  cases w with
  | packetSend buf =>
    obtain ⟨hargs, hrev⟩ := h
    obtain ⟨m, checksumBuff, cmdResponse, s', r, l, hpos, hneg, hends⟩ := hqueue buf hargs hrev
    obtain ⟨hexchange, hcall⟩ := hends m (Nat.le_refl m)
    exact ⟨m, ⟨fun _ => checksumBuff, cmdResponse⟩, _, s', hpos, hcall.bind (.done _ _),
      _, _, s', hexchange, hneg⟩
  | packetSendQueue buf =>
    obtain ⟨hargs, hrev⟩ := h
    obtain ⟨m, checksumBuff, cmdResponse, s', r, l, hpos, hneg, hends⟩ := hqueue buf hargs hrev
    obtain ⟨hexchange, hcall⟩ := hends m (Nat.le_refl m)
    exact ⟨m, ⟨fun _ => checksumBuff, cmdResponse⟩, _, s', hpos, hcall.bind (.done _ _),
      _, _, s', hexchange, hneg⟩
  | packetSendTimestamp timestampUs buf =>
    obtain ⟨hargs, rest, hdelivers, hrev⟩ := h
    obtain ⟨m₁, looks, hfirst⟩ := @timestamp_runs messageNum [] timestampUs B rest hdelivers
    obtain ⟨m₂, checksumBuff, cmdResponse, s', r, l, hpos, hneg, hends⟩ :=
      @hqueue buf hargs rest (messageNum + 1) looks hrev
    obtain ⟨hexchange, hcall⟩ := hends (max m₁ m₂) (Nat.le_max_right m₁ m₂)
    have hfirst := hfirst (max m₁ m₂) (Nat.le_max_left m₁ m₂)
    have hcalls : Ends (stream still silent) (llPacketSendTimestamp (max m₁ m₂) messageNum
        ⟨fun k => if k = 0 then [] else checksumBuff, cmdResponse⟩ timestampUs buf) ⟨B, 0, false⟩
        (queueResult (r, l), messageNum + 1 + 1) s' := by
      refine hfirst.bind ?_
      exact hcall
    exact ⟨max m₁ m₂, ⟨fun k => if k = 0 then [] else checksumBuff, cmdResponse⟩, _, s', hpos,
      hcalls.bind (.done _ _), .inr ⟨_, _, _, hfirst, Int.le_refl 0, _, _, s', hexchange, hneg⟩⟩
  | packetRecv => exact h.elim
  | packetRecvCont => exact h.elim
  | packetRecvWithRssi => exact h.elim
  | rssiScanGet => exact h.elim

end Honest

/-- **A failed exchange is reported as a failure, except where the cast of
`ll_packet_send_queue` reverses the code of a NACK.** -/
theorem wrapper_honest_iff (w : Wrapper) (messageNum : U32) (B : List U8) :
    w.Honest messageNum B ↔ ¬ w.Deceived messageNum B := by
  constructor
  · intro hhonest hdeceived
    obtain ⟨fuel, mem, r, s', hpos, hends, hfails⟩ := hdeceived.positive
    have hneg := hhonest.negative still silent silent_dry fuel mem r s' hends hfails
    omega
  · intro hB
    refine ⟨fun clock starve hdry fuel mem r s' => wrapper_negative hB hdry, ?_⟩
    rintro buf rfl clock starve hdry fuel mem s' hends
    obtain ⟨⟨ret, num⟩, s₁, hcall, hrest⟩ := ends_bind.mp hends
    obtain ⟨rfl, -⟩ := ends_done.mp hrest
    have hB : ¬ (¬ (buf.ptr.isNone = true ∨ buf.len = 0) ∧ Reversed B) := hB
    exact queue_acknowledged hdry (by decide) hcall (queue_negative hdry hB hcall)

def oneByte : Buf :=
  ⟨some [7], 1, fun b h => by cases h; decide⟩

/-- A packet of one byte, refused with the code 255, is reported as queued. -/
theorem sendQueue_refused_queued :
    (∃ fuel mem s', Ends (stream still silent) ((Wrapper.packetSendQueue oneByte).call fuel 0 mem)
      ⟨respFrame 11 0 255 [], 0, false⟩ 1 s') ∧
    ¬ (Wrapper.packetSendQueue oneByte).Honest 0 (respFrame 11 0 255 []) := by
  have hargs : ¬ (oneByte.ptr.isNone = true ∨ oneByte.len = 0) := by decide
  have hhd : Heads (respFrame 11 0 255 []) ⟨11, 0, 255, 0, 0⟩ [155, 13] :=
    ⟨[], List.not_mem_nil, by decide⟩
  obtain ⟨m, looks, hends⟩ := @nack_whole 0 _ 11 _ _ _ _ hhd (by decide) (by decide) 0 false
  have hexchange := hends m (Nat.le_refl m) ⟨oneByte.ptr, oneByte.len, oneByte.fits,
    badBuffer_eq_false hargs⟩ [] ⟨[0], rfl⟩
  rw [concludeFrame_nack (by decide) (by decide)] at hexchange
  have hcall : Ends (stream still silent) ((Wrapper.packetSendQueue oneByte).call m 0
      ⟨fun _ => [], ⟨[0], rfl⟩⟩) ⟨respFrame 11 0 255 [], 0, false⟩ 1 ⟨[], looks, false⟩ :=
    ((sendQueue_ends_iff hargs).mpr ⟨_, _, hexchange, rfl⟩).bind (.done _ _)
  refine ⟨⟨m, _, _, hcall⟩, fun hhonest => ?_⟩
  have hneg := hhonest.negative still silent silent_dry m _ _ _ hcall
    ⟨_, _, _, hexchange, by decide⟩
  exact absurd hneg (by decide)

end HostInterface.Ifc

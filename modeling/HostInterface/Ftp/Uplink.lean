import HostInterface.Ftp.Bitmap

/-!
# Uplinks of the receiver

Every acknowledgement is built in `tx_buf` and then handed to the `uplink`
callback. The three fixed ones differ in two bytes only (`ackGenerate`); the
segment request also lists the missing segments behind them.

An uplink is the calls `sentEvents`: the callback, during which
`ll_ul_max_port` is `LL_FTP_PORT`, and a look at the clock. `LlFtp.touch` is all
it can do to the object: the buffer and the time of the last message change,
nothing a transfer consists of does.
-/

namespace HostInterface.Ftp

open Interact

/-- `UINT32_TO_BYTESTREAM` at index `i` of the uplink buffer. -/
def putU32 (tx : TxBuf) (i : Nat) (x : U32) : TxBuf :=
  (((tx.setIfInBounds i (x.setWidth 8)).setIfInBounds (i + 1) ((x >>> 8).setWidth 8)).setIfInBounds
    (i + 2) ((x >>> 16).setWidth 8)).setIfInBounds (i + 3) ((x >>> 24).setWidth 8)

/-- The packet type, the acknowledge type and the file's identity, as every
acknowledgement starts. -/
def LlFtp.putAckHead (f : LlFtp) (msgType ackType : U8) : LlFtp :=
  { f with
    txBuf :=
      putU32 (putU32 ((f.txBuf.set 0 msgType).set 5 ackType) 6 f.fileId) 10 f.fileVersion }

/-- The CRC over `tx_buf[5 .. len)`, stored in front of it. -/
def LlFtp.putAckCrc (f : LlFtp) (len : Nat) : LlFtp :=
  { f with txBuf := putU32 f.txBuf 1 (crc32 0 ((f.txBuf.toList.take len).drop 5)) }

/-- An acknowledgement without a list. -/
def ackGenerate (f : LlFtp) (msgType ackType : U8) : U8 × LlFtp :=
  (14, (f.putAckHead msgType ackType).putAckCrc baseUlMsgLen)

/-- `ll_ftp_ack_init_generate`: `ACK_INIT` with `ACK_ACK` or `ACK_NAK`. -/
def ackInitGenerate (f : LlFtp) (ack : Bool) : U8 × LlFtp :=
  ackGenerate f 4 (if ack then 0x00 else 0xFF)

/-- `ll_ftp_ack_segs_complete_generate`: `ACK_SEGMENT` with `ACK_ACK`. -/
def ackSegsCompleteGenerate (f : LlFtp) : U8 × LlFtp :=
  ackGenerate f 5 0x00

/-- `ll_ftp_ack_apply_generate`: `ACK_APPLY` with `ACK_ACK`. -/
def ackApplyGenerate (f : LlFtp) : U8 × LlFtp :=
  ackGenerate f 6 0x00

/-- `ll_ftp_ack_segs_request_generate`: `ACK_SEGMENT` with `ACK_NAK_SEGMENT` and the
missing segments, or with `ACK_NAK` for the complete file. -/
def ackSegsRequestGenerate (f : LlFtp) : Option (U8 × LlFtp) :=
  (getMissingSegs (f.putAckHead 5 0xFD) true).map fun x =>
    let numMissingSegs := x.1
    let f := x.2
    if maxNumRetrySegs ≤ numMissingSegs.toNat then
      (14, { f with txBuf := f.txBuf.set 5 0xFF }.putAckCrc baseUlMsgLen)
    else
      let returnLen : U8 := 14 + (numMissingSegs * 2).setWidth 8
      (returnLen, f.putAckCrc returnLen.toNat)

/-- `gettime(&f->time_last_msg)`. -/
def getTimeLastMsg (f : LlFtp) : FtpM LlFtp :=
  .call .gettime fun t => .done { f with timeLastMsg := t }

/-- `ll_ftp_send_uplink`: the max port is changed for the time of the callback. -/
def sendUplink (f : LlFtp) (len : U8) : FtpM (RetCode × LlFtp) :=
  let oldMaxPort := f.ulMaxPort
  let f := { f with ulMaxPort := port }
  .call (.uplink (f.txBuf.toList.take len.toNat) true port f.ulMaxPort) fun ret => do
    let f ← getTimeLastMsg { f with ulMaxPort := oldMaxPort }
    return (ret, f)

/-- Build an acknowledgement and send it; the result of the callback is not looked at. -/
def sendAck (ack : U8 × LlFtp) : FtpM LlFtp := do
  let (_, f) ← sendUplink ack.2 ack.1
  return f

/-- `ll_ftp_reset`: the retry timer and counter start again. -/
def reset (f : LlFtp) : FtpM LlFtp := do
  let f ← getTimeLastMsg f
  return { f with retryCount := 0 }

/-! ## What an uplink does -/

/-- The object after an uplink: another buffer and another time of the last message. -/
def LlFtp.touch (f : LlFtp) (tx : TxBuf) (t : Time) : LlFtp :=
  { f with txBuf := tx, timeLastMsg := t }

/-- The calls of one uplink of the first `len` bytes of `tx`. -/
def sentEvents (tx : TxBuf) (len : U8) (ret : RetCode) (t : Time) : List Ev :=
  [⟨.uplink (tx.toList.take len.toNat) true port port, ret⟩, ⟨.gettime, t⟩]

theorem putAckHead_frame (f : LlFtp) (msgType ackType : U8) :
    ∃ tx, f.putAckHead msgType ackType = f.touch tx f.timeLastMsg := ⟨_, rfl⟩

theorem putAckCrc_frame (f : LlFtp) (len : Nat) :
    ∃ tx, f.putAckCrc len = f.touch tx f.timeLastMsg := ⟨_, rfl⟩

/-- A fixed acknowledgement changes the buffer only. -/
theorem ackGenerate_frame (f : LlFtp) (msgType ackType : U8) :
    ∃ tx, (ackGenerate f msgType ackType).2 = f.touch tx f.timeLastMsg := by
  obtain ⟨tx, htx⟩ := putAckHead_frame f msgType ackType
  obtain ⟨tx', htx'⟩ := putAckCrc_frame (f.putAckHead msgType ackType) baseUlMsgLen
  refine ⟨tx', ?_⟩
  rw [htx] at htx'
  rw [ackGenerate, htx, htx']
  rfl

/-- So does the segment request. -/
theorem ackSegsRequestGenerate_frame {f f' : LlFtp} {len : U8}
    (h : ackSegsRequestGenerate f = some (len, f')) : ∃ tx, f' = f.touch tx f.timeLastMsg := by
  unfold ackSegsRequestGenerate at h
  rw [Option.map_eq_some_iff] at h
  obtain ⟨⟨num, g⟩, hg, heq⟩ := h
  obtain ⟨tx, htx⟩ := putAckHead_frame f 5 0xFD
  have hframe := getMissingSegs_frame hg
  rw [htx] at hframe
  dsimp only at heq
  split at heq
  next =>
    simp only [Prod.mk.injEq] at heq
    obtain ⟨tx', htx'⟩ := putAckCrc_frame { g with txBuf := g.txBuf.set 5 0xFF } baseUlMsgLen
    refine ⟨tx', ?_⟩
    rw [← heq.2, htx', hframe]
    rfl
  next =>
    simp only [Prod.mk.injEq] at heq
    obtain ⟨tx', htx'⟩ := putAckCrc_frame g (14 + (num * 2).setWidth 8 : U8).toNat
    refine ⟨tx', ?_⟩
    rw [← heq.2, htx', hframe]
    rfl

/-- An uplink of what is in the buffer. -/
theorem sendAck_runs {f f' : LlFtp} {len : U8} {tr : List Ev} :
    (sendAck (len, f)).Runs tr f' ↔
      ∃ r t, tr = sentEvents f.txBuf len r t ∧ f' = f.touch f.txBuf t := by
  simp only [sendAck, sendUplink, getTimeLastMsg, Prog.call_bind, Prog.done_bind, Prog.runs_call,
    Prog.pure_eq, Prog.runs_done]
  constructor
  · intro h
    obtain ⟨r, tr', rfl, t, tr'', rfl, rfl, rfl⟩ := h
    exact ⟨r, t, rfl, rfl⟩
  · intro h
    obtain ⟨r, t, rfl, rfl⟩ := h
    exact ⟨r, _, rfl, t, _, rfl, rfl, rfl⟩

theorem reset_runs {f f' : LlFtp} {tr : List Ev} :
    (reset f).Runs tr f' ↔
      ∃ t : Time, tr = [⟨.gettime, t⟩] ∧ f' = { f with timeLastMsg := t, retryCount := 0 } := by
  simp only [reset, getTimeLastMsg, Prog.call_bind, Prog.done_bind, Prog.runs_call, Prog.pure_eq,
    Prog.runs_done]
  constructor
  · intro h
    obtain ⟨t, tr', rfl, rfl, rfl⟩ := h
    exact ⟨t, rfl, rfl⟩
  · intro h
    obtain ⟨t, rfl, rfl⟩ := h
    exact ⟨t, _, rfl, rfl, rfl⟩

/-- An uplink and a look at the clock. -/
def IsSend : Call → Prop
  | .uplink _ _ _ _ => True
  | .gettime => True
  | _ => False

theorem sendAck_only (ack : U8 × LlFtp) : (sendAck ack).Only IsSend := by
  simp [sendAck, sendUplink, getTimeLastMsg, IsSend, Prog.pure_eq]

theorem reset_only (f : LlFtp) : (reset f).Only IsSend := by
  simp [reset, getTimeLastMsg, IsSend, Prog.pure_eq]

end HostInterface.Ftp

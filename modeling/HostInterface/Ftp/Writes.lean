import HostInterface.Ftp.Process
import HostInterface.Ftp.Storage

/-!
# What gets written

`ll_ftp_msg_process` makes at most one write call, for a segment of the current
file in SEGMENT (`msgProcess_only`), and there it always makes it
(`msgProcess_writes`). So where the written bytes come from and where they go is
a question about `writeCall`, i.e. about the parsed message:

* they come from inside the received buffer unless the segment is shorter than
  its header (`payload_inside_iff`);
* they go to a slot of the announced file exactly when the segment number and
  the length are in range, which nothing checks (`write_in_slot_iff`).

Both are about every call the program can make, in runs that fault later too.
-/

namespace HostInterface.Ftp

open Interact Prog

/-- The write call of `ll_ftp_write_segment`. -/
def writeCall (msg : Msg) : Call :=
  .write msg.fileId msg.fileVersion (msg.segmentNumber.setWidth 32 * 107) msg.payload msg.payloadLen

/-- Not a call of the write callback. -/
def NoWrite : Call → Prop
  | .write _ _ _ _ _ => False
  | _ => True

/-- The one message a write call can come from. -/
def WritesMsg (f : LlFtp) (inp : Option RxBuf) (msg : Msg) : Prop :=
  parseRxMsg inp = (.ok, msg) ∧ f.state = .segment ∧ msg.msgType = .txSegment ∧
    isMyFile f msg = true

/-! ## Every handler but one writes nothing -/

theorem sendAck_noWrite (ack : U8 × LlFtp) : (sendAck ack).Only NoWrite :=
  (sendAck_only ack).mono fun e he => by cases e <;> trivial

theorem reset_noWrite (f : LlFtp) : (reset f).Only NoWrite :=
  (reset_only f).mono fun e he => by cases e <;> trivial

theorem verifyFile_noWrite (f : LlFtp) : (verifyFile f).Only NoWrite := by
  refine (verifyFile_only f).mono fun e he => ?_
  obtain ⟨offset, len, rfl⟩ := he
  trivial

theorem idleStart_noWrite (f : LlFtp) : (idleStart f).Only NoWrite := by
  refine .call trivial fun r => .ite ?_ trivial
  exact .call trivial fun _ => trivial

theorem segmentStart_noWrite (f : LlFtp) (msg : Msg) : (segmentStart f msg).Only NoWrite := by
  refine .call trivial fun r => .ite ?_ (.ite ?_ trivial)
  · refine Only.bind ?_ fun _ g _ => .call trivial fun _ => trivial
    exact (reset_noWrite f).bind fun _ _ _ => sendAck_noWrite _
  · exact (sendAck_noWrite _).bind fun _ _ _ => only_pure _

theorem applyStart_noWrite (f : LlFtp) : (applyStart f).Only NoWrite := by
  refine .call trivial fun r => .ite ?_ trivial
  exact (sendAck_noWrite _).bind fun _ _ _ => only_pure _

theorem fileReopen_noWrite (f : LlFtp) : (fileReopen f).Only NoWrite := by
  refine .call trivial fun r => .ite ?_ trivial
  exact .call trivial fun _ => trivial

theorem retryTick_noWrite (f : LlFtp) (generate : LlFtp → Option (U8 × LlFtp)) :
    (retryTick f generate).Only NoWrite := by
  refine .call trivial fun r => .ite (.ite ?_ trivial) trivial
  refine Only.bind (only_ofOption _) fun _ _ _ => ?_
  exact (sendAck_noWrite _).bind fun _ _ _ => only_pure _

theorem transitionOutOfSegment_noWrite (f : LlFtp) (msg : Msg) (s : State) :
    (transitionOutOfSegment f msg s).Only NoWrite := by
  cases s with
  | idle => exact (idleStart_noWrite f).bind fun _ _ _ => only_pure _
  | segment => exact (segmentStart_noWrite f msg).bind fun _ _ _ => only_pure _
  | apply => exact (applyStart_noWrite f).bind fun _ _ _ => only_pure _

theorem transitionOutOfApply_noWrite (f : LlFtp) (msg : Msg) (s : State) (isError : Bool) :
    (transitionOutOfApply f msg s isError).Only NoWrite := by
  unfold transitionOutOfApply
  cases s with
  | idle =>
    simp only [pure_bind]
    exact (idleStart_noWrite f).bind fun _ _ _ => only_pure _
  | segment =>
    simp only [pure_bind]
    exact (segmentStart_noWrite f msg).bind fun _ _ _ => only_pure _
  | apply => trivial

theorem applyFile_noWrite (f : LlFtp) : (applyFile f).Only NoWrite := by
  refine .call trivial fun r => .ite ?_ trivial
  exact (sendAck_noWrite _).bind fun _ _ _ => only_pure _

theorem applyHandleMsg_noWrite (f : LlFtp) (msg : Msg) : (applyHandleMsg f msg).Only NoWrite := by
  unfold applyHandleMsg
  split
  next => trivial
  next => trivial
  next => exact .ite ((reset_noWrite f).bind fun _ _ _ => only_pure _) trivial
  next => exact .ite (applyFile_noWrite f) trivial
  next => exact retryTick_noWrite f _
  next => trivial

/-! ## The one write -/

theorem segmentReceive_only (f : LlFtp) (msg : Msg) :
    (segmentReceive f msg).Only fun e => NoWrite e ∨ e = writeCall msg := by
  have hkeep : ∀ {α : Type} {p : FtpM α}, p.Only NoWrite →
      p.Only fun e => NoWrite e ∨ e = writeCall msg := fun hp => hp.mono fun _ => Or.inl
  unfold segmentReceive
  refine (hkeep (reset_noWrite f)).bind fun _ f₁ _ => ?_
  refine Only.bind (.call (Or.inr rfl) fun r => .ite ?_ trivial) fun _ x _ => ?_
  · exact Only.bind (only_ofOption _) fun _ _ _ => only_pure _
  · obtain ⟨ret, f₂⟩ := x
    refine Only.bind (only_ofOption _) fun _ complete _ => .ite ?_ (only_pure _)
    refine (hkeep (verifyFile_noWrite f₂)).bind fun _ v _ => .ite (only_pure _) ?_
    refine (hkeep (reset_noWrite _)).bind fun _ f₃ _ => ?_
    exact (hkeep (fileReopen_noWrite f₃)).bind fun _ _ _ => only_pure _

/-- Every call of `ll_ftp_msg_process` is no write, or the write of a segment of the
current file that arrived in SEGMENT. -/
theorem msgProcess_only (f : LlFtp) (inp : Option RxBuf) :
    (msgProcess f inp).Only fun e =>
      NoWrite e ∨ ∃ msg, WritesMsg f inp msg ∧ e = writeCall msg := by
  have hkeep : ∀ {α : Type} {p : FtpM α}, p.Only NoWrite →
      p.Only fun e => NoWrite e ∨ ∃ msg, WritesMsg f inp msg ∧ e = writeCall msg :=
    fun hp => hp.mono fun _ => Or.inl
  unfold msgProcess
  -- IDLE and APPLY write nothing; SEGMENT writes in one branch of its handler.
  cases hst : f.state with
  | idle =>
    refine hkeep ?_
    unfold idleProcessMsg
    refine .ite (only_pure _) (.ite (only_pure _) ?_)
    exact (segmentStart_noWrite f _).bind fun _ _ _ => only_pure _
  | segment =>
    dsimp only
    unfold segmentProcessMsg
    cases hparse : parseRxMsg inp with
    | mk ret msg =>
      dsimp only
      by_cases hok : ret = .ok
      · subst hok
        rw [if_neg (by simp)]
        refine Only.bind ?_ fun _ x _ => ?_
        · unfold segmentHandleMsg
          split
          next => trivial
          next => trivial
          next hty =>
            by_cases hmine : isMyFile f msg = true
            · rw [if_pos hmine]
              refine (segmentReceive_only f msg).mono fun e he => ?_
              rcases he with hno | hwrite
              · exact Or.inl hno
              · exact Or.inr ⟨msg, ⟨hparse, hst, hty, hmine⟩, hwrite⟩
            · rw [if_neg hmine]
              trivial
          next =>
            refine Only.bind (only_ofOption _) fun _ ack _ => ?_
            exact (hkeep (sendAck_noWrite ack)).bind fun _ _ _ => only_pure _
          next => exact hkeep (retryTick_noWrite f _)
          next => trivial
        · obtain ⟨ret, next, g⟩ := x
          cases next with
          | none => trivial
          | some s => exact hkeep (transitionOutOfSegment_noWrite g msg s)
      · rw [if_pos hok]
        trivial
  | apply =>
    refine hkeep ?_
    unfold applyProcessMsg
    refine .ite (only_pure _) ?_
    refine (applyHandleMsg_noWrite f _).bind fun _ x _ => ?_
    obtain ⟨ret, next, g⟩ := x
    cases next with
    | none => trivial
    | some s => exact transitionOutOfApply_noWrite g _ s _

/-- And that write is always made. -/
theorem msgProcess_writes {f : LlFtp} {inp : Option RxBuf} {msg : Msg} {G : Call → Prop}
    (hmsg : WritesMsg f inp msg) (h : (msgProcess f inp).Only G) : G (writeCall msg) := by
  obtain ⟨hparse, hst, hty, hmine⟩ := hmsg
  unfold msgProcess segmentProcessMsg segmentHandleMsg segmentReceive reset getTimeLastMsg
    writeSegment at h
  rw [hst, hparse] at h
  simp only [hty, hmine, if_true, ne_eq, not_true_eq_false, if_false, bind_assoc, call_bind,
    only_call] at h
  exact (h.2 ⟨0, 0⟩).1

/-! ## Where the bytes come from -/

/-- A write call takes its payload from inside the received buffer. -/
def WritesFrom (b : RxBuf) (e : Call) : Prop :=
  ∀ id version offset payload len, e = .write id version offset payload len →
    payload.mem = b.mem ∧ payload.off + len.toNat ≤ b.len.toNat

/-- The write that is made takes the payload of the parsed message. -/
theorem writesFrom_payload {f : LlFtp} {b : RxBuf} {msg : Msg} (hmsg : WritesMsg f (some b) msg)
    (h : (msgProcess f (some b)).Only (WritesFrom b)) :
    msg.payload.off + msg.payloadLen.toNat ≤ b.len.toNat :=
  (msgProcess_writes hmsg h _ _ _ _ _ rfl).2

/-- **The payload stays inside the received message** exactly when the message is not a
segment shorter than its header: then every byte the parser reads and every byte
a write callback is given lies in the buffer. -/
theorem payload_inside_iff (f : LlFtp) (b : RxBuf) :
    ((∀ msg, parseRxMsg (some b) = (.ok, msg) → msg.msgType = .txSegment → InsideBuffer b msg) ∧
      (msgProcess f (some b)).Only (WritesFrom b)) ↔ ¬ ShortSegment b := by
  constructor
  · intro h
    exact (parse_segment_inside_iff b).mp h.1
  · intro hns
    have hinside := (parse_segment_inside_iff b).mpr hns
    refine ⟨hinside, (msgProcess_only f (some b)).mono fun e he => ?_⟩
    intro id version offset payload len heq
    rcases he with hno | ⟨msg, ⟨hparse, -, hty, -⟩, hwrite⟩
    · rw [heq] at hno
      exact hno.elim
    · obtain ⟨hlong, -, hlen⟩ := hinside msg hparse hty
      have hpay := (parseRxMsg_ok hparse).payload hty
      rw [hwrite] at heq
      unfold writeCall at heq
      simp only [Call.write.injEq] at heq
      obtain ⟨-, -, -, rfl, rfl⟩ := heq
      rw [hpay, hlen]
      refine ⟨rfl, ?_⟩
      show 21 + (b.len.toNat - 21) ≤ b.len.toNat
      omega

/-- A short segment of the current file is written from outside the buffer. -/
theorem not_writesFrom {f : LlFtp} {b : RxBuf}
    (hmsg : WritesMsg f (some b) (parseRxMsg (some b)).2)
    (hout : b.len.toNat <
      (parseRxMsg (some b)).2.payload.off + (parseRxMsg (some b)).2.payloadLen.toNat) :
    ¬ (msgProcess f (some b)).Only (WritesFrom b) := by
  intro h
  exact absurd (writesFrom_payload hmsg h) (Nat.not_le.mpr hout)

/-- While a file of 153 bytes is received, 17 bytes with its identity, a segment's type and a
matching CRC arrive: the write callback is given 65532 bytes from behind them. -/
theorem short_segment_written :
    let inputs := [some (fileMsg 0 0x73091C41 0x039D42F2 0x99 [])]
    let b := fileMsg 3 0x73091C41 0x039D42F2 0x99 []
    FtpRun (demoHist .willing inputs) (demoEnd .willing inputs) ∧ b.len.toNat = 17 ∧
      ShortSegment b ∧ (parseRxMsg (some b)).2.payloadLen = 65532#16 ∧
      ¬ (msgProcess (demoEnd .willing inputs) (some b)).Only (WritesFrom b) := by
  refine ⟨demo_run (by decide +kernel), by decide +kernel,
    ⟨by decide +kernel, by decide +kernel, by decide +kernel, by decide +kernel⟩,
    by decide +kernel, ?_⟩
  exact not_writesFrom
    ⟨parsed (by decide +kernel), by decide +kernel, by decide +kernel, by decide +kernel⟩
    (by decide +kernel)

/-! ## Where they go -/

/-- A write call goes to one slot of the announced file. -/
def WritesSlot (f : LlFtp) (e : Call) : Prop :=
  ∀ id version offset payload len, e = .write id version offset payload len →
    ∃ k, k < f.numSegs.toNat ∧ offset.toNat = 107 * k ∧ len.toNat ≤ 107

/-- The write that is made goes to the slot of the message's segment number. -/
theorem writesSlot_segment {f : LlFtp} {inp : Option RxBuf} {msg : Msg} (hmsg : WritesMsg f inp msg)
    (h : (msgProcess f inp).Only (WritesSlot f)) :
    msg.segmentNumber.toNat < f.numSegs.toNat ∧ msg.payloadLen.toNat ≤ 107 := by
  obtain ⟨k, hk, hoff, hle⟩ := msgProcess_writes hmsg h _ _ _ _ _ rfl
  rw [segment_offset] at hoff
  have hkn : k = msg.segmentNumber.toNat := by omega
  exact ⟨hkn ▸ hk, hle⟩

/-- **Writes stay inside the announced file's segments** exactly when the segment number
is below the segment count and the message at most 128 bytes long: nothing checks
either. -/
theorem write_in_slot_iff {f : LlFtp} {b : RxBuf} {msg : Msg}
    (hparse : parseRxMsg (some b) = (.ok, msg)) (hty : msg.msgType = .txSegment)
    (hmine : isMyFile f msg = true) (hlen : 21 ≤ b.len.toNat) :
    (msgProcess f (some b)).Only (WritesSlot f) ↔
      (f.state = .segment →
        msg.segmentNumber.toNat < f.numSegs.toNat ∧ b.len.toNat ≤ 128) := by
  have hpay : msg.payloadLen.toNat = b.len.toNat - 21 :=
    (insideBuffer_of_long (parseRxMsg_ok hparse) hty hlen).2.2
  constructor
  · intro h hst
    obtain ⟨hnum, hle⟩ := writesSlot_segment ⟨hparse, hst, hty, hmine⟩ h
    exact ⟨hnum, by omega⟩
  · intro h
    refine (msgProcess_only f (some b)).mono fun e he => ?_
    intro id version offset payload len heq
    rcases he with hno | ⟨msg', ⟨hparse', hst, -, -⟩, hwrite⟩
    · rw [heq] at hno
      exact hno.elim
    · have hsame : msg' = msg := by
        rw [hparse] at hparse'
        exact (Prod.mk.inj hparse').2.symm
      subst hsame
      obtain ⟨hnum, hle⟩ := h hst
      rw [hwrite] at heq
      unfold writeCall at heq
      simp only [Call.write.injEq] at heq
      obtain ⟨-, -, rfl, -, rfl⟩ := heq
      refine ⟨msg'.segmentNumber.toNat, hnum, segment_offset _, ?_⟩
      rw [hpay]
      omega

/-- A segment number past the count is written all the same. -/
theorem not_writesSlot {f : LlFtp} {inp : Option RxBuf} (hmsg : WritesMsg f inp (parseRxMsg inp).2)
    (hout : f.numSegs.toNat ≤ (parseRxMsg inp).2.segmentNumber.toNat) :
    ¬ (msgProcess f inp).Only (WritesSlot f) := by
  intro h
  exact absurd (writesSlot_segment hmsg h).1 (Nat.not_lt.mpr hout)

/-- The file of one segment is sent, and a segment numbered 1 goes to offset 107. -/
theorem write_past_file :
    let f := demoEnd .willing [some tinyInit]
    let b := fileMsg 3 7 1 1 (le16 1 ++ le16 1 ++ [0xAA])
    FtpRun (demoHist .willing [some tinyInit]) f ∧ (parseRxMsg (some b)).1 = .ok ∧
      (parseRxMsg (some b)).2.msgType = .txSegment ∧ isMyFile f (parseRxMsg (some b)).2 = true ∧
      21 ≤ b.len.toNat ∧ ¬ (msgProcess f (some b)).Only (WritesSlot f) := by
  refine ⟨demo_run (by decide +kernel), by decide +kernel, by decide +kernel, by decide +kernel,
    by decide +kernel, ?_⟩
  exact not_writesSlot
    ⟨parsed (by decide +kernel), by decide +kernel, by decide +kernel, by decide +kernel⟩
    (by decide +kernel)

/-- The same file's real segment fits. -/
theorem write_in_slot_tiny :
    let f := demoEnd .willing [some tinyInit]
    let b := tinySegment 5
    (f.state = .segment ∧ f.numSegs.toNat = 1 ∧ b.len.toNat = 38) ∧
      ((msgProcess f (some b)).Only (WritesSlot f) ↔
        (f.state = .segment →
          (parseRxMsg (some b)).2.segmentNumber.toNat < f.numSegs.toNat ∧
            b.len.toNat ≤ 128)) :=
  ⟨by decide +kernel,
    write_in_slot_iff (parsed (by decide +kernel)) (by decide +kernel) (by decide +kernel)
      (by decide +kernel)⟩

end HostInterface.Ftp

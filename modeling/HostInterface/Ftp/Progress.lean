import HostInterface.Ftp.Ack
import HostInterface.Ftp.Invariants

/-!
# Progress of a transfer

Completion is looked at after every segment, also after one that could not be
written. So the bitmap must never be left complete: on every way out of
`ll_ftp_segment_process_msg` either the state changes or the bitmap is cleared.
`Pending` is that invariant, for transfers of at least one byte that fit the
bitmap. What follows from it:

* `segment_pending`: in SEGMENT there is a segment to ask for, and no request
  ever goes out with an empty list;
* `failed_callbacks`: a callback that fails loses nothing. A file that cannot be
  opened leaves the transfer as it was, a segment that cannot be written leaves
  the bitmap as it was (and so, being incomplete, is not verified), a file that
  cannot be closed leaves the whole object as it was.
-/

namespace HostInterface.Ftp

open Interact Prog

instance (f : LlFtp) (msg : Msg) : Decidable (StartsTransfer f msg) :=
  decidable_of_iff
    ((msg.msgType = .txInit ∨ msg.msgType = .txSegment) ∧
      (f.state = .idle ∨ isMyFile f msg = false))
    ⟨fun h => ⟨h.1, h.2⟩, fun h => ⟨h.type, h.other⟩⟩

/-- Of an accepted message: a size that it announces for a new transfer is between 1 and
256800 bytes, a segment number is below `MAX_NUM_SEGMENTS`. -/
def InRange (st : FtpStep) : Prop :=
  (parseRxMsg st.input).1 = .ok →
    (StartsTransfer st.pre (parseRxMsg st.input).2 →
      1 ≤ (parseRxMsg st.input).2.fileSize.toNat ∧
        (parseRxMsg st.input).2.fileSize.toNat ≤ 256800) ∧
    ((parseRxMsg st.input).2.msgType = .txSegment →
      (parseRxMsg st.input).2.segmentNumber.toNat < 2400)

instance (st : FtpStep) : Decidable (InRange st) :=
  inferInstanceAs (Decidable (_ → (_ → _ ∧ _) ∧ (_ → _)))

/-- A transfer is of 1 to `MAX_NUM_SEGMENTS` segments, and in SEGMENT one of them has not
been received. -/
structure Pending (f : LlFtp) : Prop where
  count : f.state ≠ .idle → 1 ≤ f.numSegs.toNat ∧ f.numSegs.toNat ≤ 2400
  missing : f.state = .segment → ∃ k, k < f.numSegs.toNat ∧ segBit f.rxSegs k = false

theorem pending_idle {f : LlFtp} (h : f.state = .idle) : Pending f :=
  ⟨fun hne => absurd h hne, fun hseg => by rw [h] at hseg; cases hseg⟩

/-- The invariant is about the state, the count and the bitmap. -/
theorem Pending.same {f f' : LlFtp} (h : Pending f) (hst : f'.state = f.state)
    (hnum : f'.numSegs = f.numSegs) (hrx : f'.rxSegs = f.rxSegs) : Pending f' := by
  constructor
  · rw [hst, hnum]
    exact h.count
  · rw [hst, hnum, hrx]
    exact h.missing

theorem Pending.leave {f : LlFtp} (h : Pending f) (ret : RetCode) : Pending (f.leave ret) := by
  unfold LlFtp.leave
  split
  next => exact pending_idle rfl
  next => exact h

/-- An empty bitmap misses the first segment. -/
theorem missing_of_clear {f : LlFtp} (hpos : 1 ≤ f.numSegs.toNat)
    (hrx : f.rxSegs = Vector.replicate 75 0) :
    ∃ k, k < f.numSegs.toNat ∧ segBit f.rxSegs k = false :=
  ⟨0, hpos, by rw [hrx, segBit_replicate]⟩

theorem Sent.sameProgress {f f' : LlFtp} {ack : U8 × LlFtp} {tr : List Ev} (h : Sent f ack tr f') :
    f'.state = f.state ∧ f'.numSegs = f.numSegs ∧ f'.rxSegs = f.rxSegs := by
  obtain ⟨r, t, -, rfl⟩ := h
  exact ⟨rfl, rfl, rfl⟩

theorem Pending.sent {f f' : LlFtp} {ack : U8 × LlFtp} {tr : List Ev} (h : Pending f)
    (hs : Sent f ack tr f') : Pending f' :=
  h.same hs.sameProgress.1 hs.sameProgress.2.1 hs.sameProgress.2.2

/-- An incomplete bitmap misses a segment. -/
theorem missing_of_incomplete {f : LlFtp} (hmax : f.numSegs.toNat ≤ 2400)
    (h : transferIsComplete f = some false) :
    ∃ k, k < f.numSegs.toNat ∧ segBit f.rxSegs k = false := by
  rw [transferIsComplete_eq hmax, Option.some.injEq, List.all_eq_false] at h
  obtain ⟨k, hk, hbit⟩ := h
  exact ⟨k, List.mem_range.mp hk, by simpa using hbit⟩

/-- The other way round. -/
theorem incomplete_of_missing {f : LlFtp} (hmax : f.numSegs.toNat ≤ 2400) {k : Nat}
    (hk : k < f.numSegs.toNat) (hbit : segBit f.rxSegs k = false) :
    transferIsComplete f = some false := by
  rw [transferIsComplete_eq hmax, Option.some.injEq, List.all_eq_false]
  exact ⟨k, List.mem_range.mpr hk, by simp [hbit]⟩

/-- The count of a file of 1 to 256800 bytes is not cut by the cast. -/
theorem newFile_count {size : Nat} (hpos : 1 ≤ size) (hmax : size ≤ 256800) :
    1 ≤ (BitVec.ofNat 16 ((size + 106) / 107)).toNat ∧
      (BitVec.ofNat 16 ((size + 106) / 107)).toNat ≤ 2400 := by
  rw [BitVec.toNat_ofNat]
  omega

/-- **One step** whose message is in range keeps a transfer pending. -/
theorem pending_step {st : FtpStep} (hv : st.Valid msgProcess) (hC : InRange st)
    (hpre : Pending st.pre) : Pending st.post := by
  obtain ⟨f, inp, tr, ret, f'⟩ := st
  have hstep : MsgStep f inp tr ret f' := step_msgStep hv
  have hrange : ∀ {msg : Msg}, parseRxMsg inp = (.ok, msg) → StartsTransfer f msg →
      1 ≤ msg.fileSize.toNat ∧ msg.fileSize.toNat ≤ 256800 := by
    intro msg hparse hs
    unfold InRange at hC
    dsimp only at hC
    rw [hparse] at hC
    exact (hC rfl).1 hs
  have hrecv : ∀ {msg : Msg} {trw : List Ev} {r : RetCode} {g : LlFtp}, Receives f msg trw r g →
      g.state = .segment ∧ 1 ≤ g.numSegs.toNat ∧ g.numSegs.toNat ≤ 2400 := by
    intro msg trw r g hr
    rw [hr.sameCount.numSegs]
    exact ⟨hr.state_eq, hpre.count (by simp [hr.state])⟩
  dsimp only at hpre ⊢
  cases hstep with
  | rejected _ _ => exact hpre
  | ignored _ _ => exact hpre
  | @start msg _ _ _ hparse hs hb =>
    cases hb with
    | @accepted t _ _ _ hsent =>
      -- A new file starts with an empty bitmap.
      obtain ⟨hpos, hmax⟩ := hrange hparse hs
      obtain ⟨-, hnum, hrx⟩ := hsent.sameProgress
      have hcount : 1 ≤ ((f.resetAt t).newFile msg).numSegs.toNat ∧
          ((f.resetAt t).newFile msg).numSegs.toNat ≤ 2400 := newFile_count hpos hmax
      rw [← hnum] at hcount
      exact ⟨fun _ => hcount, fun _ => missing_of_clear hcount.1 hrx⟩
    | refused _ hsent => exact hpre.sent hsent
  | cancel _ _ _ _ _ => exact hpre.leave _
  | incomplete _ hr hcomp =>
    obtain ⟨-, hcount⟩ := hrecv hr
    exact ⟨fun _ => hcount, fun _ => missing_of_incomplete hcount.2 hcomp⟩
  | verified _ hr _ _ hs =>
    -- The complete bitmap goes on to APPLY.
    obtain ⟨-, hcount⟩ := hrecv hr
    rw [← hs.sameProgress.2.1] at hcount
    exact ⟨fun _ => hcount, fun hseg => by cases hseg⟩
  | stuck _ _ _ _ _ => exact pending_idle rfl
  | restarted _ hr _ _ _ =>
    obtain ⟨-, hcount⟩ := hrecv hr
    exact ⟨fun _ => hcount, fun _ => missing_of_clear hcount.1 rfl⟩
  | @abandoned _ _ _ _ _ _ _ _ _ g t _ hr _ _ _ _ _ =>
    obtain ⟨-, hcount⟩ := hrecv hr
    have hclear : Pending (g.clearRxSegs.resetAt t) :=
      ⟨fun _ => hcount, fun _ => missing_of_clear hcount.1 rfl⟩
    exact hclear.leave _
  | request _ _ _ _ hs => exact hpre.sent hs
  | early _ _ _ _ => exact hpre
  | retry _ _ _ _ _ _ hs => exact (hpre.sent hs).same rfl rfl rfl
  | giveUp _ _ _ _ _ _ => exact hpre.leave _
  | held _ _ _ _ => exact hpre.same rfl rfl rfl
  | applied _ _ _ _ hs _ => exact (hpre.sent hs).leave _
  | applyRefused _ _ _ _ _ _ => exact hpre.leave _

/-- Runs whose messages are in range keep a transfer pending. -/
theorem pending {hist : List FtpStep} {f : LlFtp} (h : FtpRun hist f)
    (hC : ∀ st ∈ hist, InRange st) : Pending f :=
  h.always_of hC (fun _ => pending_idle rfl) fun _ hv hc hpre => pending_step hv hc hpre

/-! ## There is a segment to ask for -/

/-- An uplink that requests segments and lists none. -/
def EmptyRequest (buf : List U8) : Prop :=
  buf[0]? = some 5 ∧ buf[5]? = some 0xFD ∧ buf.length = 14

/-- Where SEGMENT misses a segment, no acknowledgement is an empty request. -/
theorem IsAck.not_empty {f : LlFtp} {file : U32 × U32} {buf : List U8} (h : IsAck f file buf)
    (hf : Pending f) : ¬ EmptyRequest buf := by
  rintro ⟨htype, hack, hlen⟩
  cases h with
  | init ack => simp [ackMsg, sealMsg] at htype
  | complete => simp [ackMsg, sealMsg, le32] at hack
  | missing hseg _ =>
    rw [length_ackMsg] at hlen
    obtain ⟨k, hk, hbit⟩ := hf.missing hseg
    have hmem := mem_missingSegs.mpr ⟨hk, hbit⟩
    have hnil : missingSegs f.rxSegs f.numSegs.toNat = [] :=
      List.length_eq_zero_iff.mp (by omega)
    rw [hnil] at hmem
    cases hmem
  | all _ _ => simp [ackMsg, sealMsg, le32] at hack
  | apply => simp [ackMsg, sealMsg] at htype

/-- **A transfer in SEGMENT always has something to request.** In runs whose messages
are in range, SEGMENT misses a segment, so the transfer is not complete, the number of
missing segments is between 1 and `num_segs`, and no request lists none. -/
theorem segment_pending {hist : List FtpStep} {f : LlFtp} (h : FtpRun hist f)
    (hC : ∀ st ∈ hist, InRange st) :
    (f.state = .segment →
      (∃ k, k < f.numSegs.toNat ∧ segBit f.rxSegs k = false) ∧
        transferIsComplete f = some false ∧
        ∃ n : Nat, numMissingSegsGet f = some (n : Int) ∧ 1 ≤ n ∧ n ≤ f.numSegs.toNat) ∧
    ∀ st ∈ hist, ∀ buf acked p maxPort r,
      (⟨.uplink buf acked p maxPort, r⟩ : Ev) ∈ st.events → ¬ EmptyRequest buf := by
  constructor
  · intro hseg
    have hf := pending h hC
    obtain ⟨hpos, hmax⟩ := hf.count (by simp [hseg])
    obtain ⟨k, hk, hbit⟩ := hf.missing hseg
    refine ⟨⟨k, hk, hbit⟩, incomplete_of_missing hmax hk hbit, _, numMissingSegsGet_eq hpos hmax,
      ?_, length_missingSegs_le _ _⟩
    exact List.length_pos_of_mem (mem_missingSegs.mpr ⟨hk, hbit⟩)
  · intro st hst buf acked p maxPort r hev
    obtain ⟨i, hi⟩ := List.getElem?_of_mem hst
    obtain ⟨hrun, hv⟩ := h.at_pos hi
    obtain ⟨before, after, htr⟩ := List.append_of_mem hev
    have hacks := msgStep_acks (step_msgStep hv)
    rw [htr] at hacks
    have hpre := pending hrun fun st' hst' => hC st' (List.mem_of_mem_take hst')
    exact hacks.uplink.1.not_empty hpre

/-- The smallest file, announced: its one segment is missing. -/
theorem segment_pending_tiny :
    let hist := demoHist .willing [some tinyInit]
    let f := demoEnd .willing [some tinyInit]
    f.state = .segment ∧
      (f.state = .segment →
        (∃ k, k < f.numSegs.toNat ∧ segBit f.rxSegs k = false) ∧
          transferIsComplete f = some false ∧
          ∃ n : Nat, numMissingSegsGet f = some (n : Int) ∧ 1 ≤ n ∧ n ≤ f.numSegs.toNat) ∧
      ∀ st ∈ hist, ∀ buf acked p maxPort r,
        (⟨.uplink buf acked p maxPort, r⟩ : Ev) ∈ st.events → ¬ EmptyRequest buf :=
  ⟨by decide +kernel, segment_pending (demo_run (by decide +kernel)) (by decide +kernel)⟩

/-! ## Failed callbacks -/

/-- What a transfer has got to: everything but the uplink buffer, the time of the last
message and, where that is said, the retry counter. -/
def SameTransfer (f f' : LlFtp) : Prop :=
  f'.state = f.state ∧ f'.fileId = f.fileId ∧ f'.fileVersion = f.fileVersion ∧
    f'.fileSize = f.fileSize ∧ f'.numSegs = f.numSegs ∧ f'.rxSegs = f.rxSegs

/-- A file that cannot be opened. -/
theorem open_failed {f f' : LlFtp} {msg : Msg} {tr : List Ev} {ret : RetCode}
    (h : Begins f msg tr ret f') (hfail : Kind.openFail ∈ kinds tr) :
    SameTransfer f f' ∧ f'.retryCount = f.retryCount := by
  cases h with
  | accepted hs => simp [hs.kinds_eq] at hfail
  | refused _ hs =>
    obtain ⟨r, t, -, rfl⟩ := hs
    exact ⟨⟨rfl, rfl, rfl, rfl, rfl, rfl⟩, rfl⟩

/-- What SEGMENT does with a segment of the current file: it is received, and where the
bitmap is not complete then nothing else happens. -/
theorem MsgStep.receives {f f' : LlFtp} {inp : Option RxBuf} {msg : Msg} {tr : List Ev}
    {ret : RetCode} (h : MsgStep f inp tr ret f') (hparse : parseRxMsg inp = (.ok, msg))
    (hseg : f.state = .segment) (hty : msg.msgType = .txSegment) (hmine : isMyFile f msg = true) :
    ∃ trw rest rw g, tr = trw ++ rest ∧ Kind.write ∉ kinds rest ∧ Receives f msg trw rw g ∧
      (transferIsComplete g = some true ∨ transferIsComplete g = some false ∧ f' = g) := by
  have hsame : ∀ {msg' : Msg} {r : RetCode}, parseRxMsg inp = (r, msg') → r = .ok ∧ msg' = msg :=
    parse_unique hparse
  have htype : ∀ {P : Prop} {msg' : Msg} {ty : MsgType}, parseRxMsg inp = (.ok, msg') →
      msg'.msgType = ty → ty ≠ .txSegment → P := not_other_type hparse hty
  cases h with
  | rejected hp hne => exact absurd (hsame hp).1 hne
  | ignored hp hi =>
    obtain ⟨-, rfl⟩ := hsame hp
    cases hi with
    | idle hidle _ _ => rw [hseg] at hidle; cases hidle
    | again _ hty' _ => rw [hty] at hty'; cases hty'
    | cancelOther _ hty' _ => rw [hty] at hty'; cases hty'
    | applyOther _ hty' _ => rw [hty] at hty'; cases hty'
    | ack _ hty' => rw [hty] at hty'; rcases hty' with h' | h' | h' <;> cases h'
  | start hp hs _ =>
    obtain ⟨-, rfl⟩ := hsame hp
    rcases hs.other with hidle | hother
    · rw [hseg] at hidle
      cases hidle
    · rw [hmine] at hother
      cases hother
  | cancel hp _ hty' _ _ => exact htype hp hty' (by simp)
  | incomplete hp hr hcomp =>
    obtain ⟨-, rfl⟩ := hsame hp
    exact ⟨tr, [], _, f', (List.append_nil _).symm, by simp, hr, Or.inr ⟨hcomp, rfl⟩⟩
  | verified hp hr hcomp hv hs =>
    obtain ⟨-, rfl⟩ := hsame hp
    obtain ⟨n, hn⟩ := verify_kinds hv
    exact ⟨_, _, _, _, rfl, by simp [hn, hs.kinds_eq], hr, Or.inl hcomp⟩
  | stuck hp hr hcomp hv hne =>
    obtain ⟨-, rfl⟩ := hsame hp
    obtain ⟨n, hn⟩ := verify_kinds hv
    exact ⟨_, _, _, _, rfl, by simp [hn, kind_close_fail hne], hr, Or.inl hcomp⟩
  | restarted hp hr hcomp hv _ =>
    obtain ⟨-, rfl⟩ := hsame hp
    obtain ⟨n, hn⟩ := verify_kinds hv
    exact ⟨_, _, _, _, rfl, by simp [hn], hr, Or.inl hcomp⟩
  | abandoned hp hr hcomp hv _ hfail hcl =>
    obtain ⟨-, rfl⟩ := hsame hp
    obtain ⟨n, hn⟩ := verify_kinds hv
    refine ⟨_, _, _, _, rfl, ?_, hr, Or.inl hcomp⟩
    rcases hfail.kinds_eq with hk | hk <;> simp [hn, hk, hcl.not_mem (k := .write) (by decide)]
  | request hp _ hty' _ _ => exact htype hp hty' (by simp)
  | early hp _ hty' _ => exact htype hp hty' (by simp)
  | retry hp _ hty' _ _ _ _ => exact htype hp hty' (by simp)
  | giveUp hp _ hty' _ _ _ => exact htype hp hty' (by simp)
  | held _ hst _ _ => rw [hseg] at hst; cases hst
  | applied _ hst _ _ _ _ => rw [hseg] at hst; cases hst
  | applyRefused _ hst _ _ _ _ => rw [hseg] at hst; cases hst

/-- A write that does not return OK. -/
def failedWrite : Ev → Bool
  | ⟨.write _ _ _ _ _, r⟩ => r ≠ RetCode.ok
  | _ => false

/-- A write of the step fails. -/
def WriteFails (tr : List Ev) : Prop :=
  ∃ ev ∈ tr, failedWrite ev = true

instance (tr : List Ev) : Decidable (WriteFails tr) :=
  inferInstanceAs (Decidable (∃ ev ∈ tr, failedWrite ev = true))

theorem kind_of_failedWrite {ev : Ev} (h : failedWrite ev = true) : kind ev = .write := by
  obtain ⟨e, r⟩ := ev
  cases e with
  | write _ _ _ _ _ => rfl
  | _ => cases h

/-- A segment that cannot be written. The bitmap stays, and as it is incomplete the
step ends there. -/
theorem write_failed {f f' : LlFtp} {inp : Option RxBuf} {msg : Msg} {tr : List Ev} {ret : RetCode}
    (hf : Pending f) (h : MsgStep f inp tr ret f') (hparse : parseRxMsg inp = (.ok, msg))
    (hseg : f.state = .segment) (hty : msg.msgType = .txSegment) (hmine : isMyFile f msg = true)
    (hfail : WriteFails tr) : SameTransfer f f' := by
  obtain ⟨trw, rest, rw, g, rfl, hrest, hrecv, hout⟩ := h.receives hparse hseg hty hmine
  obtain ⟨ev, hmem, hbad⟩ := hfail
  have hmem' : ev ∈ trw := by
    rcases List.mem_append.mp hmem with hin | hin
    · exact hin
    · refine absurd hin (not_mem_of_kinds ?_)
      rwa [kind_of_failedWrite hbad]
  obtain ⟨t, trw', rfl, hw⟩ := hrecv.write
  have hg : g = f.resetAt t := by
    cases hw with
    | stored _ =>
      -- The one write that is made has succeeded.
      simp only [List.mem_cons, List.not_mem_nil, or_false] at hmem'
      rcases hmem' with rfl | rfl
      · cases hbad
      · simp [failedWrite] at hbad
    | failed _ => rfl
  obtain ⟨k, hk, hbit⟩ := hf.missing hseg
  have hcomp : transferIsComplete g = some false := by
    rw [hg]
    exact incomplete_of_missing (hf.count (by simp [hseg])).2 hk hbit
  rcases hout with hfull | ⟨-, rfl⟩
  · rw [hcomp] at hfull
    cases hfull
  · rw [hg]
    exact ⟨rfl, rfl, rfl, rfl, rfl, rfl⟩

/-- In SEGMENT a `TX_CANCEL` of the current file is an attempt to close it. -/
theorem cancel_runs {f f' : LlFtp} {inp : Option RxBuf} {msg : Msg} {tr : List Ev} {ret : RetCode}
    (h : (msgProcess f inp).Runs tr (ret, f')) (hparse : parseRxMsg inp = (.ok, msg))
    (hseg : f.state = .segment) (hty : msg.msgType = .txCancel) (hmine : isMyFile f msg = true) :
    Closes f tr ret ∧ f' = f.leave ret := by
  unfold msgProcess at h
  rw [hseg] at h
  dsimp only at h
  unfold segmentProcessMsg segmentHandleMsg at h
  simp only [hparse, hty, hmine, if_true, done_bind] at h
  rw [if_neg (by simp)] at h
  exact transitionOutOfSegment_idle hseg h

/-- **Failed callbacks lose no progress.** In runs whose messages are in range, (a) a
message for another file that cannot be opened, (b) a segment that cannot be written and
(c) in SEGMENT a cancel whose file cannot be closed leave the transfer where it is. -/
theorem failed_callbacks {hist : List FtpStep} {f : LlFtp} (h : FtpRun hist f)
    (hC : ∀ st ∈ hist, InRange st) {inp : Option RxBuf} {msg : Msg} {tr : List Ev}
    {ret : RetCode} {f' : LlFtp} (hparse : parseRxMsg inp = (.ok, msg))
    (hrun : (msgProcess f inp).Runs tr (ret, f')) :
    (StartsTransfer f msg → Kind.openFail ∈ kinds tr →
      SameTransfer f f' ∧ f'.retryCount = f.retryCount) ∧
    (f.state = .segment → msg.msgType = .txSegment → isMyFile f msg = true → WriteFails tr →
      SameTransfer f f') ∧
    (f.state = .segment → msg.msgType = .txCancel → isMyFile f msg = true →
      Kind.closeFail ∈ kinds tr → f' = f) := by
  have hstep := msgProcess_runs hrun
  refine ⟨fun hs hfail => open_failed (hstep.begins hparse hs) hfail,
    fun hseg hty hmine hfail => write_failed (pending h hC) hstep hparse hseg hty hmine hfail, ?_⟩
  intro hseg hty hmine hfail
  obtain ⟨hcl, hleft⟩ := cancel_runs hrun hparse hseg hty hmine
  rcases hcl.kinds_eq with ⟨-, hk⟩ | ⟨hne, -⟩
  · rw [hk] at hfail
    simp at hfail
  · rw [hleft]
    unfold LlFtp.leave
    rw [if_neg (by simp [hne, hseg])]

/-- No other file than 7 can be opened, nothing written and nothing closed. -/
def Policy.grudging : Policy :=
  { Policy.willing with
    ret := fun
      | .open id _ _ => if id = 7 then .ok else .error
      | .write _ _ _ _ _ => .error
      | .close _ _ => .error
      | _ => .ok }

/-- The smallest file is announced; then another file, its one segment and its cancel
come to nothing. -/
theorem failed_callbacks_tiny :
    let f := demoEnd .grudging [some tinyInit]
    f.state = .segment ∧
      (∃ tr ret f', (msgProcess f (some (fileMsg 0 9 1 1 []))).Runs tr (ret, f') ∧
        SameTransfer f f' ∧ f'.retryCount = f.retryCount) ∧
      (∃ tr ret f', (msgProcess f (some (tinySegment 5))).Runs tr (ret, f') ∧
        SameTransfer f f') ∧
      ∃ tr ret f', (msgProcess f (some tinyCancel)).Runs tr (ret, f') ∧ f' = f := by
  intro f
  have hrun : FtpRun (demoHist .grudging [some tinyInit]) f := demo_run (by decide +kernel)
  have hC : ∀ st ∈ demoHist .grudging [some tinyInit], InRange st := by decide +kernel
  have hany : ∀ (inp : Option RxBuf) (P : List Ev → Prop) [DecidablePred P],
      ((exec (storage .grudging) (msgProcess f inp) World.empty).any fun x => P x.1) = true →
      ∃ tr ret f', (msgProcess f inp).Runs tr (ret, f') ∧ P tr := by
    intro inp P _ h
    obtain ⟨⟨tr, ⟨ret, f'⟩, w⟩, hx, hP⟩ := (Option.any_eq_true _ _).mp h
    exact ⟨tr, ret, f', exec_runs hx, by simpa using hP⟩
  refine ⟨by decide +kernel, ?_, ?_, ?_⟩
  · obtain ⟨tr, ret, f', hr, hfail⟩ := hany (some (fileMsg 0 9 1 1 []))
      (fun tr => Kind.openFail ∈ kinds tr) (by decide +kernel)
    exact ⟨tr, ret, f', hr,
      (failed_callbacks hrun hC (parsed (by decide +kernel)) hr).1 (by decide +kernel) hfail⟩
  · obtain ⟨tr, ret, f', hr, hfail⟩ := hany (some (tinySegment 5)) WriteFails (by decide +kernel)
    exact ⟨tr, ret, f', hr,
      (failed_callbacks hrun hC (parsed (by decide +kernel)) hr).2.1 (by decide +kernel)
        (by decide +kernel) (by decide +kernel) hfail⟩
  · obtain ⟨tr, ret, f', hr, hfail⟩ := hany (some tinyCancel)
      (fun tr => Kind.closeFail ∈ kinds tr) (by decide +kernel)
    exact ⟨tr, ret, f', hr,
      (failed_callbacks hrun hC (parsed (by decide +kernel)) hr).2.2 (by decide +kernel)
        (by decide +kernel) (by decide +kernel) hfail⟩

end HostInterface.Ftp

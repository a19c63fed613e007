import HostInterface.Ftp.Process

/-!
# What one input can do

`msgProcess_runs` takes a run of `ll_ftp_msg_process` apart once: `MsgStep` has
one constructor for each way through the three handlers, with its guard, the
calls it makes in order, what it returns and the object it leaves. Invariants
of the state machine are case analyses of `MsgStep` and never look at the
handlers again.

The pieces several ways share have relations of their own:

* `Sent`: an acknowledgement goes out;
* `Closes`: `ll_ftp_idle_start`, which ends a transfer if the file can be closed;
* `Begins`: `ll_ftp_segment_start`, which begins one if the file can be opened;
* `Receives`: a segment of the current file is written and tracked.

For one type of message few of the ways are left: `MsgStep.begins`, `MsgStep.tick_cases` and
`MsgStep.apply_cases`.
-/

namespace HostInterface.Ftp

open Interact Prog

/-- The acknowledgement `ack`, built from `f`, goes out with the calls `tr` and
leaves `f'`. -/
def Sent (f : LlFtp) (ack : U8 × LlFtp) (tr : List Ev) (f' : LlFtp) : Prop :=
  ∃ r t, tr = sentEvents ack.2.txBuf ack.1 r t ∧ f' = f.touch ack.2.txBuf t

/-- The calls and the result of `ll_ftp_idle_start`. -/
inductive Closes (f : LlFtp) : List Ev → RetCode → Prop
  | closed (r : RetCode) :
      Closes f [⟨.close f.fileId f.fileVersion, RetCode.ok⟩, ⟨.config false, r⟩] .ok
  | refused {r : RetCode} : r ≠ .ok → Closes f [⟨.close f.fileId f.fileVersion, r⟩] .error

/-- The object with the retry timer and counter started again at `t`. -/
def LlFtp.resetAt (f : LlFtp) (t : Time) : LlFtp :=
  { f with timeLastMsg := t, retryCount := 0 }

/-- `ll_ftp_segment_start` and the state change behind it. -/
inductive Begins (f : LlFtp) (msg : Msg) : List Ev → RetCode → LlFtp → Prop
  | accepted {t : Time} {ts : List Ev} {r : RetCode} {f' : LlFtp} :
      Sent ((f.resetAt t).newFile msg) (ackInitGenerate ((f.resetAt t).newFile msg) true) ts f' →
      Begins f msg
        (⟨.open msg.fileId msg.fileVersion msg.fileSize, RetCode.ok⟩ :: ⟨.gettime, t⟩ ::
          (ts ++ [⟨.config true, r⟩]))
        .ok (f'.stateSet .segment)
  | refused {r : RetCode} {ts : List Ev} {f' : LlFtp} :
      r ≠ .ok → Sent f (ackInitGenerate f false) ts f' →
      Begins f msg (⟨.open msg.fileId msg.fileVersion msg.fileSize, r⟩ :: ts) .noAction f'

/-- `ll_ftp_write_segment`. -/
inductive Writes (f : LlFtp) (msg : Msg) : List Ev → RetCode → LlFtp → Prop
  | stored {f' : LlFtp} : segNumTrack f msg.segmentNumber = some f' →
      Writes f msg [⟨.write msg.fileId msg.fileVersion (msg.segmentNumber.setWidth 32 * 107)
        msg.payload msg.payloadLen, RetCode.ok⟩] .ok f'
  | failed {r : RetCode} : r ≠ .ok →
      Writes f msg [⟨.write msg.fileId msg.fileVersion (msg.segmentNumber.setWidth 32 * 107)
        msg.payload msg.payloadLen, r⟩] .noAction f

/-- In SEGMENT a segment of the current file arrives: the timer restarts and the
segment is written. `g` is the object when completeness is looked at. -/
structure Receives (f : LlFtp) (msg : Msg) (tr : List Ev) (ret : RetCode) (g : LlFtp) : Prop where
  state : f.state = .segment
  type : msg.msgType = .txSegment
  mine : isMyFile f msg = true
  write : ∃ t trw, tr = ⟨.gettime, t⟩ :: trw ∧ Writes (f.resetAt t) msg trw ret g

/-- `ll_ftp_file_reopen` where it fails. -/
inductive ReopenFails (f : LlFtp) : List Ev → RetCode → Prop
  | close {r : RetCode} : r ≠ .ok → ReopenFails f [⟨.close f.fileId f.fileVersion, r⟩] r
  | open {r : RetCode} : r ≠ .ok →
      ReopenFails f [⟨.close f.fileId f.fileVersion, RetCode.ok⟩,
        ⟨.open f.fileId f.fileVersion f.fileSize, r⟩] r

/-- A message that begins a transfer: of any file in IDLE, else of another file. -/
structure StartsTransfer (f : LlFtp) (msg : Msg) : Prop where
  type : msg.msgType = .txInit ∨ msg.msgType = .txSegment
  other : f.state = .idle ∨ isMyFile f msg = false

/-- The messages a state does nothing about, and what it returns for them. -/
inductive Ignores (f : LlFtp) (msg : Msg) : RetCode → Prop
  | idle : f.state = .idle → msg.msgType ≠ .txInit → msg.msgType ≠ .txSegment →
      Ignores f msg .invalidValue
  | again : f.state ≠ .idle → msg.msgType = .txInit → isMyFile f msg = true →
      Ignores f msg .noAction
  | cancelOther : f.state ≠ .idle → msg.msgType = .txCancel → isMyFile f msg = false →
      Ignores f msg .noAction
  | applyOther : f.state = .apply → msg.msgType = .txApply → isMyFile f msg = false →
      Ignores f msg .noAction
  | ack : f.state ≠ .idle →
      msg.msgType = .ackInit ∨ msg.msgType = .ackSegment ∨ msg.msgType = .ackApply →
      Ignores f msg .noAction

/-- What is left of the object when a transfer is to end: SEGMENT forgets it only
with a closed file, APPLY in any case. -/
def LlFtp.leave (f : LlFtp) (ret : RetCode) : LlFtp :=
  if ret = .ok ∨ f.state = .apply then f.reinit else f

/-- The uplink a retry repeats. -/
def retryAck (f : LlFtp) : Option (U8 × LlFtp) :=
  if f.state = .apply then some (ackSegsCompleteGenerate f) else ackSegsRequestGenerate f

/-- The ways `ll_ftp_msg_process` can take on one input. -/
inductive MsgStep (f : LlFtp) (inp : Option RxBuf) : List Ev → RetCode → LlFtp → Prop
  | rejected {ret : RetCode} {msg : Msg} :
      parseRxMsg inp = (ret, msg) → ret ≠ .ok → MsgStep f inp [] ret f
  | ignored {ret : RetCode} {msg : Msg} :
      parseRxMsg inp = (.ok, msg) → Ignores f msg ret → MsgStep f inp [] ret f
  | start {msg : Msg} {tr : List Ev} {ret : RetCode} {f' : LlFtp} :
      parseRxMsg inp = (.ok, msg) → StartsTransfer f msg → Begins f msg tr ret f' →
      MsgStep f inp tr ret f'
  | cancel {msg : Msg} {tr : List Ev} {ret : RetCode} :
      parseRxMsg inp = (.ok, msg) → f.state ≠ .idle → msg.msgType = .txCancel →
      isMyFile f msg = true → Closes f tr ret → MsgStep f inp tr ret (f.leave ret)
  | incomplete {msg : Msg} {tr : List Ev} {ret : RetCode} {g : LlFtp} :
      parseRxMsg inp = (.ok, msg) → Receives f msg tr ret g → transferIsComplete g = some false →
      MsgStep f inp tr ret g
  | verified {msg : Msg} {tr tv ts : List Ev} {ret : RetCode} {g g' : LlFtp} :
      parseRxMsg inp = (.ok, msg) → Receives f msg tr ret g → transferIsComplete g = some true →
      Runs (verifyFile g) tv .ok → Sent g (ackSegsCompleteGenerate g) ts g' →
      MsgStep f inp
        (tr ++ (tv ++ ⟨.close g.fileId g.fileVersion, RetCode.ok⟩ :: ts)) .ok (g'.stateSet .apply)
  | stuck {msg : Msg} {tr tv : List Ev} {ret r : RetCode} {g : LlFtp} :
      parseRxMsg inp = (.ok, msg) → Receives f msg tr ret g → transferIsComplete g = some true →
      Runs (verifyFile g) tv .ok → r ≠ .ok →
      MsgStep f inp (tr ++ (tv ++ [⟨.close g.fileId g.fileVersion, r⟩])) .error (g.stateSet .idle)
  | restarted {msg : Msg} {tr tv : List Ev} {ret v : RetCode} {g : LlFtp} {t : Time} :
      parseRxMsg inp = (.ok, msg) → Receives f msg tr ret g → transferIsComplete g = some true →
      Runs (verifyFile g) tv v → v ≠ .ok →
      MsgStep f inp
        (tr ++ (tv ++ [⟨.gettime, t⟩, ⟨.close g.fileId g.fileVersion, RetCode.ok⟩,
          ⟨.open g.fileId g.fileVersion g.fileSize, RetCode.ok⟩]))
        .ok (g.clearRxSegs.resetAt t)
  | abandoned {msg : Msg} {tr tv tf tc : List Ev} {ret v r c : RetCode} {g : LlFtp} {t : Time} :
      parseRxMsg inp = (.ok, msg) → Receives f msg tr ret g → transferIsComplete g = some true →
      Runs (verifyFile g) tv v → v ≠ .ok → ReopenFails (g.clearRxSegs.resetAt t) tf r →
      Closes (g.clearRxSegs.resetAt t) tc c →
      MsgStep f inp (tr ++ (tv ++ ⟨.gettime, t⟩ :: (tf ++ tc))) c
        ((g.clearRxSegs.resetAt t).leave c)
  | request {msg : Msg} {ack : U8 × LlFtp} {tr : List Ev} {f' : LlFtp} :
      parseRxMsg inp = (.ok, msg) → f.state = .segment → msg.msgType = .txApply →
      ackSegsRequestGenerate f = some ack → Sent f ack tr f' → MsgStep f inp tr .ok f'
  | early {msg : Msg} {t : Time} :
      parseRxMsg inp = (.ok, msg) → f.state ≠ .idle → msg.msgType = .tick →
      ¬ 16 ≤ llDifftime f.timeLastMsg t → MsgStep f inp [⟨.gettime, t⟩] .ok f
  | retry {msg : Msg} {t : Time} {ack : U8 × LlFtp} {ts : List Ev} {f' : LlFtp} :
      parseRxMsg inp = (.ok, msg) → f.state ≠ .idle → msg.msgType = .tick →
      16 ≤ llDifftime f.timeLastMsg t → f.retryCount.toNat < 5 → retryAck f = some ack →
      Sent f ack ts f' →
      MsgStep f inp (⟨.gettime, t⟩ :: ts) .ok { f' with retryCount := f'.retryCount + 1 }
  | giveUp {msg : Msg} {t : Time} {tr : List Ev} {ret : RetCode} :
      parseRxMsg inp = (.ok, msg) → f.state ≠ .idle → msg.msgType = .tick →
      16 ≤ llDifftime f.timeLastMsg t → ¬ f.retryCount.toNat < 5 → Closes f tr ret →
      MsgStep f inp (⟨.gettime, t⟩ :: tr) ret (f.leave ret)
  | held {msg : Msg} {t : Time} :
      parseRxMsg inp = (.ok, msg) → f.state = .apply → msg.msgType = .txSegment →
      isMyFile f msg = true → MsgStep f inp [⟨.gettime, t⟩] .noAction (f.resetAt t)
  | applied {msg : Msg} {ts tr : List Ev} {ret : RetCode} {g : LlFtp} :
      parseRxMsg inp = (.ok, msg) → f.state = .apply → msg.msgType = .txApply →
      isMyFile f msg = true → Sent f (ackApplyGenerate f) ts g → Closes g tr ret →
      MsgStep f inp (⟨.apply f.fileId f.fileVersion f.fileSize, RetCode.ok⟩ :: (ts ++ tr)) ret
        (g.leave ret)
  | applyRefused {msg : Msg} {tr : List Ev} {r ret : RetCode} :
      parseRxMsg inp = (.ok, msg) → f.state = .apply → msg.msgType = .txApply →
      isMyFile f msg = true → r ≠ .ok → Closes f tr ret →
      MsgStep f inp (⟨.apply f.fileId f.fileVersion f.fileSize, r⟩ :: tr) .error (f.leave ret)

/-! ## The pieces -/

theorem sendAck_sent {f f' : LlFtp} {ack : U8 × LlFtp} {tr : List Ev} (ht : Time)
    (hack : ∃ tx, ack.2 = f.touch tx ht) (h : (sendAck ack).Runs tr f') : Sent f ack tr f' := by
  obtain ⟨len, g⟩ := ack
  obtain ⟨tx, htx⟩ := hack
  dsimp only at htx
  obtain ⟨r, t, htr, hf⟩ := sendAck_runs.mp h
  refine ⟨r, t, htr, ?_⟩
  rw [hf, htx]
  rfl

theorem sendAck_fixed {f f' : LlFtp} {msgType ackType : U8} {tr : List Ev}
    (h : (sendAck (ackGenerate f msgType ackType)).Runs tr f') :
    Sent f (ackGenerate f msgType ackType) tr f' :=
  sendAck_sent f.timeLastMsg (ackGenerate_frame f msgType ackType) h

theorem idleStart_runs {f : LlFtp} {tr : List Ev} {ret : RetCode} (h : (idleStart f).Runs tr ret) :
    Closes f tr ret := by
  unfold idleStart at h
  rw [runs_call] at h
  obtain ⟨r, tr', rfl, h⟩ := h
  by_cases hok : r = RetCode.ok
  · rw [if_pos hok, runs_call] at h
    obtain ⟨r', tr'', rfl, h⟩ := h
    obtain ⟨rfl, rfl⟩ := runs_done.mp h
    rw [hok]
    exact .closed r'
  · rw [if_neg hok] at h
    obtain ⟨rfl, rfl⟩ := runs_done.mp h
    exact .refused hok

theorem segmentStart_runs {f f' : LlFtp} {msg : Msg} {tr : List Ev} {ret : RetCode}
    (hty : msg.msgType = .txInit ∨ msg.msgType = .txSegment)
    (h : (segmentStart f msg).Runs tr (ret, f')) :
    Begins f msg tr ret (if ret = .ok then f'.stateSet .segment else f') := by
  unfold segmentStart at h
  rw [runs_call] at h
  obtain ⟨r, tr', rfl, h⟩ := h
  by_cases hok : r = RetCode.ok
  · rw [if_pos hok, runs_bind] at h
    obtain ⟨tr₁, g, tr₂, hg, hc, rfl⟩ := h
    unfold newFileInitialize at hg
    rw [runs_bind] at hg
    obtain ⟨tr₃, g₀, tr₄, hr, hs, rfl⟩ := hg
    obtain ⟨t, rfl, rfl⟩ := reset_runs.mp hr
    rw [runs_call] at hc
    obtain ⟨r', tr₅, rfl, hc⟩ := hc
    obtain ⟨rfl, rfl, rfl⟩ := runs_pair.mp hc
    rw [hok, if_pos rfl]
    exact .accepted (t := t) (sendAck_fixed hs)
  · rw [if_neg hok, if_pos hty, runs_bind] at h
    obtain ⟨tr₁, g, tr₂, hs, hc, rfl⟩ := h
    obtain ⟨rfl, rfl, rfl⟩ := runs_pair.mp hc
    rw [if_neg (by simp), List.append_nil]
    exact .refused hok (sendAck_fixed hs)

theorem applyStart_runs {f f' : LlFtp} {tr : List Ev} {ret : RetCode}
    (h : (applyStart f).Runs tr (ret, f')) :
    (∃ ts, tr = ⟨.close f.fileId f.fileVersion, RetCode.ok⟩ :: ts ∧ ret = .ok ∧
      Sent f (ackSegsCompleteGenerate f) ts f') ∨
    (∃ r : RetCode, r ≠ .ok ∧ tr = [⟨.close f.fileId f.fileVersion, r⟩] ∧ ret = .error ∧
      f' = f) := by
  unfold applyStart at h
  rw [runs_call] at h
  obtain ⟨r, tr', rfl, h⟩ := h
  by_cases hok : r = RetCode.ok
  · rw [if_pos hok, runs_bind] at h
    obtain ⟨tr₁, g, tr₂, hs, hc, rfl⟩ := h
    obtain ⟨rfl, rfl, rfl⟩ := runs_pair.mp hc
    rw [hok, List.append_nil]
    exact Or.inl ⟨tr₁, rfl, rfl, sendAck_fixed hs⟩
  · rw [if_neg hok] at h
    obtain ⟨rfl, rfl, rfl⟩ := runs_pair.mp h
    exact Or.inr ⟨r, hok, rfl, rfl, rfl⟩

theorem writeSegment_runs {f f' : LlFtp} {msg : Msg} {tr : List Ev} {ret : RetCode}
    (h : (writeSegment f msg).Runs tr (ret, f')) : Writes f msg tr ret f' := by
  unfold writeSegment at h
  rw [runs_call] at h
  obtain ⟨r, tr', rfl, h⟩ := h
  by_cases hok : r = RetCode.ok
  · rw [if_pos hok, runs_bind] at h
    obtain ⟨tr₁, g, tr₂, hs, hc, rfl⟩ := h
    obtain ⟨rfl, htrack⟩ := runs_ofOption.mp hs
    obtain ⟨rfl, rfl, rfl⟩ := runs_pair.mp hc
    rw [hok]
    exact .stored htrack
  · rw [if_neg hok] at h
    obtain ⟨rfl, rfl, rfl⟩ := runs_pair.mp h
    exact .failed hok

theorem fileReopen_runs {f : LlFtp} {tr : List Ev} {ret : RetCode}
    (h : (fileReopen f).Runs tr ret) :
    (ret = .ok ∧ tr = [⟨.close f.fileId f.fileVersion, RetCode.ok⟩,
      ⟨.open f.fileId f.fileVersion f.fileSize, RetCode.ok⟩]) ∨
    (ret ≠ .ok ∧ ReopenFails f tr ret) := by
  unfold fileReopen at h
  rw [runs_call] at h
  obtain ⟨r, tr', rfl, h⟩ := h
  by_cases hok : r = RetCode.ok
  · rw [if_pos hok] at h
    unfold perform at h
    rw [runs_call] at h
    obtain ⟨r', tr'', rfl, h⟩ := h
    obtain ⟨rfl, rfl⟩ := runs_done.mp h
    rw [hok]
    by_cases hok' : ret = .ok
    · rw [hok']
      exact Or.inl ⟨rfl, rfl⟩
    · exact Or.inr ⟨hok', .open hok'⟩
  · rw [if_neg hok] at h
    obtain ⟨rfl, rfl⟩ := runs_done.mp h
    exact Or.inr ⟨hok, .close hok⟩

/-- The three outcomes of a tick. -/
theorem retryTick_runs {f f' : LlFtp} {generate : LlFtp → Option (U8 × LlFtp)} {tr : List Ev}
    {ret : RetCode} {next : Option State}
    (h : (retryTick f generate).Runs tr (ret, next, f')) :
    ∃ t ts, tr = ⟨.gettime, t⟩ :: ts ∧ ret = .ok ∧
      ((¬ 16 ≤ llDifftime f.timeLastMsg t ∧ ts = [] ∧ next = none ∧ f' = f) ∨
      (16 ≤ llDifftime f.timeLastMsg t ∧ f.retryCount.toNat < 5 ∧ next = none ∧
        ∃ ack g, generate f = some ack ∧ (sendAck ack).Runs ts g ∧
          f' = { g with retryCount := g.retryCount + 1 }) ∨
      (16 ≤ llDifftime f.timeLastMsg t ∧ ¬ f.retryCount.toNat < 5 ∧ ts = [] ∧
        next = some .idle ∧ f' = f)) := by
  unfold retryTick at h
  rw [runs_call] at h
  obtain ⟨t, ts, rfl, h⟩ := h
  by_cases hdue : retryInterval ≤ llDifftime f.timeLastMsg t
  · rw [if_pos hdue] at h
    by_cases hleft : f.retryCount.toNat < maxNumRetries
    · rw [if_pos hleft, runs_bind] at h
      obtain ⟨tr₁, ack, tr₂, hack, h, rfl⟩ := h
      obtain ⟨rfl, hgen⟩ := runs_ofOption.mp hack
      rw [runs_bind] at h
      obtain ⟨tr₃, g, tr₄, hs, hc, rfl⟩ := h
      obtain ⟨rfl, rfl, rfl, rfl⟩ := runs_triple.mp hc
      rw [List.append_nil, List.nil_append]
      exact ⟨t, tr₃, rfl, rfl, Or.inr (Or.inl ⟨hdue, hleft, rfl, ack, g, hgen, hs, rfl⟩)⟩
    · rw [if_neg hleft] at h
      obtain ⟨rfl, rfl, rfl, rfl⟩ := runs_triple.mp h
      exact ⟨t, [], rfl, rfl, Or.inr (Or.inr ⟨hdue, hleft, rfl, rfl, rfl⟩)⟩
  · rw [if_neg hdue] at h
    obtain ⟨rfl, rfl, rfl, rfl⟩ := runs_triple.mp h
    exact ⟨t, [], rfl, rfl, Or.inl ⟨hdue, rfl, rfl, rfl⟩⟩

/-! ## The handlers -/

theorem idleProcessMsg_runs {f f' : LlFtp} {inp : Option RxBuf} {tr : List Ev} {ret : RetCode}
    (hidle : f.state = .idle) (h : (idleProcessMsg f inp).Runs tr (ret, f')) :
    MsgStep f inp tr ret f' := by
  unfold idleProcessMsg at h
  cases hparse : parseRxMsg inp with
  | mk pret msg =>
    rw [hparse] at h
    dsimp only at h
    by_cases hok : pret = .ok
    · subst hok
      rw [if_neg (by simp)] at h
      -- IDLE only listens to the two messages that can begin a transfer.
      by_cases hty : msg.msgType ≠ .txInit ∧ msg.msgType ≠ .txSegment
      · rw [if_pos hty] at h
        obtain ⟨rfl, rfl, rfl⟩ := runs_pair.mp h
        exact .ignored hparse (.idle hidle hty.1 hty.2)
      · have hty' : msg.msgType = .txInit ∨ msg.msgType = .txSegment := by
          by_cases hinit : msg.msgType = .txInit
          · exact Or.inl hinit
          · by_cases hseg : msg.msgType = .txSegment
            · exact Or.inr hseg
            · exact absurd ⟨hinit, hseg⟩ hty
        rw [if_neg hty, runs_bind] at h
        obtain ⟨tr₁, ⟨r, g⟩, tr₂, hs, hc, rfl⟩ := h
        obtain ⟨rfl, rfl, rfl⟩ := runs_pair.mp hc
        rw [List.append_nil]
        exact .start hparse ⟨hty', Or.inl hidle⟩ (segmentStart_runs hty' hs)
    · rw [if_pos hok] at h
      obtain ⟨rfl, rfl, rfl⟩ := runs_pair.mp h
      exact .rejected hparse hok

/-- `ll_ftp_idle_start` decides what is left of the object. -/
theorem transitionOutOfSegment_idle {f f' : LlFtp} {msg : Msg} {tr : List Ev} {ret : RetCode}
    (hseg : f.state = .segment)
    (h : (transitionOutOfSegment f msg .idle).Runs tr (ret, f')) :
    Closes f tr ret ∧ f' = f.leave ret := by
  unfold transitionOutOfSegment at h
  rw [runs_bind] at h
  obtain ⟨tr₁, r, tr₂, hs, hc, rfl⟩ := h
  obtain ⟨rfl, rfl, rfl⟩ := runs_pair.mp hc
  rw [List.append_nil]
  refine ⟨idleStart_runs hs, ?_⟩
  unfold LlFtp.leave
  simp only [hseg, reduceCtorEq, or_false]
  rfl

theorem transitionOutOfSegment_segment {f f' : LlFtp} {msg : Msg} {tr : List Ev} {ret : RetCode}
    (hty : msg.msgType = .txInit ∨ msg.msgType = .txSegment)
    (h : (transitionOutOfSegment f msg .segment).Runs tr (ret, f')) : Begins f msg tr ret f' := by
  unfold transitionOutOfSegment at h
  rw [runs_bind] at h
  obtain ⟨tr₁, ⟨r, g⟩, tr₂, hs, hc, rfl⟩ := h
  obtain ⟨rfl, rfl, rfl⟩ := runs_pair.mp hc
  rw [List.append_nil]
  exact segmentStart_runs hty hs

/-- The object in SEGMENT keeps its state while it receives. -/
theorem Receives.state_eq {f g : LlFtp} {msg : Msg} {tr : List Ev} {ret : RetCode}
    (h : Receives f msg tr ret g) : g.state = .segment := by
  obtain ⟨t, trw, -, hw⟩ := h.write
  cases hw with
  | stored htrack =>
    rw [segNumTrack_frame htrack]
    exact h.state
  | failed _ => exact h.state

/-- A segment of the current file: received, and where the file is complete now,
verified. -/
theorem segmentReceive_runs {f f' : LlFtp} {inp : Option RxBuf} {msg : Msg} {tr : List Ev}
    {ret : RetCode} (hparse : parseRxMsg inp = (.ok, msg)) (hseg : f.state = .segment)
    (hty : msg.msgType = .txSegment) (hmine : isMyFile f msg = true)
    (h : (segmentReceive f msg >>= fun x =>
      match x.2.1 with
      | none => pure (x.1, x.2.2)
      | some nextState => transitionOutOfSegment x.2.2 msg nextState).Runs tr (ret, f')) :
    MsgStep f inp tr ret f' := by
  rw [runs_bind] at h
  obtain ⟨trs, ⟨r, next, g⟩, trt, hs, ht, rfl⟩ := h
  dsimp only at ht
  unfold segmentReceive at hs
  rw [runs_bind] at hs
  obtain ⟨tr₁, f₁, tr₂, hr, hs, rfl⟩ := hs
  obtain ⟨t, rfl, rfl⟩ := reset_runs.mp hr
  rw [runs_bind] at hs
  obtain ⟨tr₃, ⟨rw, gw⟩, tr₄, hw, hs, rfl⟩ := hs
  have hrecv : Receives f msg (⟨.gettime, t⟩ :: tr₃) rw gw :=
    ⟨hseg, hty, hmine, t, tr₃, rfl, writeSegment_runs hw⟩
  dsimp only at hs
  rw [runs_bind] at hs
  obtain ⟨tr₅, complete, tr₆, hc₀, hs, rfl⟩ := hs
  obtain ⟨rfl, hcomp⟩ := runs_ofOption.mp hc₀
  by_cases hc : complete = true
  · -- Every segment is there: the file is read back.
    subst hc
    rw [if_pos rfl, runs_bind] at hs
    obtain ⟨tv, v, tr₇, hv, hs, rfl⟩ := hs
    by_cases hvok : v = .ok
    · subst hvok
      rw [if_pos rfl] at hs
      obtain ⟨rfl, rfl, rfl, rfl⟩ := runs_triple.mp hs
      -- Verified: the file is closed to enter APPLY, which can fail.
      dsimp only at ht
      unfold transitionOutOfSegment at ht
      rw [runs_bind] at ht
      obtain ⟨ta, ⟨ra, ga⟩, tz, ha, hz, rfl⟩ := ht
      obtain ⟨rfl, rfl, rfl⟩ := runs_pair.mp hz
      rcases applyStart_runs ha with ⟨ts, rfl, rfl, hsent⟩ | ⟨rc, hne, rfl, rfl, rfl⟩
      · have hstep := MsgStep.verified hparse hrecv hcomp hv hsent
        simp only [List.append_nil, List.nil_append, List.cons_append, List.append_assoc] at hstep ⊢
        exact hstep
      · have hstep := MsgStep.stuck hparse hrecv hcomp hv hne
        simp only [List.append_nil, List.nil_append, List.cons_append, List.append_assoc] at hstep ⊢
        exact hstep
    · -- Not verified: the bitmap is cleared and the file opened again, which can fail.
      rw [if_neg hvok, runs_bind] at hs
      obtain ⟨tr₈, f₂, tr₉, hr, hs, rfl⟩ := hs
      obtain ⟨t', rfl, rfl⟩ := reset_runs.mp hr
      rw [runs_bind] at hs
      obtain ⟨tf, rf, trz, hf, hs, rfl⟩ := hs
      obtain ⟨rfl, rfl, rfl, rfl⟩ := runs_triple.mp hs
      rcases fileReopen_runs hf with ⟨rfl, rfl⟩ | ⟨hne, hfail⟩
      · rw [if_neg (by simp)] at ht
        obtain ⟨rfl, rfl, rfl⟩ := runs_pair.mp ht
        have hstep := MsgStep.restarted (t := t') hparse hrecv hcomp hv hvok
        simp only [List.append_nil, List.nil_append, List.cons_append] at hstep ⊢
        exact hstep
      · rw [if_pos hne] at ht
        have hst : (gw.clearRxSegs.resetAt t').state = .segment := hrecv.state_eq
        obtain ⟨hcl, rfl⟩ := transitionOutOfSegment_idle hst ht
        have hstep := MsgStep.abandoned hparse hrecv hcomp hv hvok hfail hcl
        simp only [List.append_nil, List.nil_append, List.cons_append, List.append_assoc] at hstep ⊢
        exact hstep
  · have hfalse : complete = false := by simpa using hc
    -- Segments are missing: the state stays, whatever the write returned.
    subst hfalse
    rw [if_neg (by simp)] at hs
    obtain ⟨rfl, rfl, rfl, rfl⟩ := runs_triple.mp hs
    obtain ⟨rfl, rfl, rfl⟩ := runs_pair.mp ht
    have hstep := MsgStep.incomplete hparse hrecv hcomp
    rw [List.nil_append, List.append_nil, List.append_nil]
    exact hstep

theorem segmentProcessMsg_runs {f f' : LlFtp} {inp : Option RxBuf} {tr : List Ev} {ret : RetCode}
    (hseg : f.state = .segment) (h : (segmentProcessMsg f inp).Runs tr (ret, f')) :
    MsgStep f inp tr ret f' := by
  have hne : f.state ≠ .idle := by simp [hseg]
  have hna : f.state ≠ .apply := by simp [hseg]
  unfold segmentProcessMsg at h
  cases hparse : parseRxMsg inp with
  | mk pret msg =>
    rw [hparse] at h
    dsimp only at h
    by_cases hok : pret = .ok
    · subst hok
      rw [if_neg (by simp)] at h
      unfold segmentHandleMsg at h
      cases hty : msg.msgType with
      | txInit =>
        simp only [hty, done_bind] at h
        cases hmine : isMyFile f msg with
        | true =>
          rw [hmine, if_pos rfl] at h
          obtain ⟨rfl, rfl, rfl⟩ := runs_pair.mp h
          exact .ignored hparse (.again hne hty hmine)
        | false =>
          rw [hmine, if_neg (by simp)] at h
          have hb := transitionOutOfSegment_segment (Or.inl hty) h
          exact .start hparse ⟨Or.inl hty, Or.inr hmine⟩ hb
      | txCancel =>
        simp only [hty, done_bind] at h
        cases hmine : isMyFile f msg with
        | true =>
          rw [hmine, if_pos rfl] at h
          obtain ⟨hcl, rfl⟩ := transitionOutOfSegment_idle hseg h
          exact .cancel hparse hne hty hmine hcl
        | false =>
          rw [hmine, if_neg (by simp)] at h
          obtain ⟨rfl, rfl, rfl⟩ := runs_pair.mp h
          exact .ignored hparse (.cancelOther hne hty hmine)
      | txSegment =>
        simp only [hty] at h
        cases hmine : isMyFile f msg with
        | true =>
          rw [if_pos hmine] at h
          exact segmentReceive_runs hparse hseg hty hmine h
        | false =>
          rw [if_neg (by simp [hmine]), done_bind] at h
          have hb := transitionOutOfSegment_segment (Or.inr hty) h
          exact .start hparse ⟨Or.inr hty, Or.inr hmine⟩ hb
      | txApply =>
        simp only [hty, bind_assoc, pure_bind] at h
        rw [runs_bind] at h
        obtain ⟨tr₁, ack, tr₂, hgen, h, rfl⟩ := h
        obtain ⟨rfl, hack⟩ := runs_ofOption.mp hgen
        rw [runs_bind] at h
        obtain ⟨tr₃, g, tr₄, hs, h, rfl⟩ := h
        obtain ⟨rfl, rfl, rfl⟩ := runs_pair.mp h
        rw [List.append_nil, List.nil_append]
        have hframe := ackSegsRequestGenerate_frame hack
        exact .request hparse hseg hty hack (sendAck_sent f.timeLastMsg hframe hs)
      | tick =>
        simp only [hty] at h
        rw [runs_bind] at h
        obtain ⟨tr₁, ⟨r, next, g⟩, tr₂, htick, h, rfl⟩ := h
        obtain ⟨t, ts, rfl, rfl, hout⟩ := retryTick_runs htick
        rcases hout with ⟨hdue, rfl, rfl, rfl⟩ | ⟨hdue, hleft, rfl, ack, g', hack, hs, rfl⟩ |
          ⟨hdue, hleft, rfl, rfl, rfl⟩
        · obtain ⟨rfl, rfl, rfl⟩ := runs_pair.mp h
          exact .early hparse hne hty hdue
        · obtain ⟨rfl, rfl, rfl⟩ := runs_pair.mp h
          have hgen : retryAck f = some ack := by
            unfold retryAck
            rw [if_neg hna]
            exact hack
          have hframe := ackSegsRequestGenerate_frame hack
          rw [List.append_nil]
          exact .retry hparse hne hty hdue hleft hgen (sendAck_sent f.timeLastMsg hframe hs)
        · obtain ⟨hcl, rfl⟩ := transitionOutOfSegment_idle hseg h
          exact .giveUp hparse hne hty hdue hleft hcl
      | ackInit =>
        simp only [hty, done_bind] at h
        obtain ⟨rfl, rfl, rfl⟩ := runs_pair.mp h
        exact .ignored hparse (.ack hne (Or.inl hty))
      | ackSegment =>
        simp only [hty, done_bind] at h
        obtain ⟨rfl, rfl, rfl⟩ := runs_pair.mp h
        exact .ignored hparse (.ack hne (Or.inr (Or.inl hty)))
      | ackApply =>
        simp only [hty, done_bind] at h
        obtain ⟨rfl, rfl, rfl⟩ := runs_pair.mp h
        exact .ignored hparse (.ack hne (Or.inr (Or.inr hty)))
    · rw [if_pos hok] at h
      obtain ⟨rfl, rfl, rfl⟩ := runs_pair.mp h
      exact .rejected hparse hok

/-- Leaving APPLY forgets the transfer whether or not the file can be closed. -/
theorem transitionOutOfApply_idle {f f' : LlFtp} {msg : Msg} {isError : Bool} {tr : List Ev}
    {ret : RetCode} (happly : f.state = .apply)
    (h : (transitionOutOfApply f msg .idle isError).Runs tr (ret, f')) :
    ∃ r, Closes f tr r ∧ f' = f.leave r ∧ ret = if isError then .error else r := by
  unfold transitionOutOfApply at h
  simp only [pure_bind] at h
  rw [runs_bind] at h
  obtain ⟨tr₁, r, tr₂, hs, hc, rfl⟩ := h
  obtain ⟨rfl, rfl, rfl⟩ := runs_pair.mp hc
  rw [List.append_nil]
  refine ⟨r, idleStart_runs hs, ?_, rfl⟩
  unfold LlFtp.leave
  rw [if_pos (Or.inr happly)]
  split <;> rfl

theorem transitionOutOfApply_segment {f f' : LlFtp} {msg : Msg} {tr : List Ev} {ret : RetCode}
    (hty : msg.msgType = .txInit ∨ msg.msgType = .txSegment)
    (h : (transitionOutOfApply f msg .segment false).Runs tr (ret, f')) :
    Begins f msg tr ret f' := by
  unfold transitionOutOfApply at h
  simp only [pure_bind] at h
  rw [runs_bind] at h
  obtain ⟨tr₁, ⟨r, g⟩, tr₂, hs, hc, rfl⟩ := h
  obtain ⟨rfl, rfl, rfl⟩ := runs_pair.mp hc
  rw [List.append_nil]
  exact segmentStart_runs hty hs

theorem Sent.state_eq {f f' : LlFtp} {ack : U8 × LlFtp} {tr : List Ev} (h : Sent f ack tr f') :
    f'.state = f.state := by
  obtain ⟨r, t, -, rfl⟩ := h
  rfl

theorem applyProcessMsg_runs {f f' : LlFtp} {inp : Option RxBuf} {tr : List Ev} {ret : RetCode}
    (happly : f.state = .apply) (h : (applyProcessMsg f inp).Runs tr (ret, f')) :
    MsgStep f inp tr ret f' := by
  have hne : f.state ≠ .idle := by simp [happly]
  unfold applyProcessMsg at h
  cases hparse : parseRxMsg inp with
  | mk pret msg =>
    rw [hparse] at h
    dsimp only at h
    by_cases hok : pret = .ok
    · subst hok
      rw [if_neg (by simp)] at h
      unfold applyHandleMsg at h
      cases hty : msg.msgType with
      | txInit =>
        simp only [hty, done_bind] at h
        cases hmine : isMyFile f msg with
        | true =>
          rw [hmine, if_pos rfl] at h
          obtain ⟨rfl, rfl, rfl⟩ := runs_pair.mp h
          exact .ignored hparse (.again hne hty hmine)
        | false =>
          rw [hmine, if_neg (by simp)] at h
          have hb := transitionOutOfApply_segment (Or.inl hty) h
          exact .start hparse ⟨Or.inl hty, Or.inr hmine⟩ hb
      | txCancel =>
        simp only [hty, done_bind] at h
        cases hmine : isMyFile f msg with
        | true =>
          rw [hmine, if_pos rfl] at h
          obtain ⟨r, hcl, rfl, rfl⟩ := transitionOutOfApply_idle happly h
          exact .cancel hparse hne hty hmine hcl
        | false =>
          rw [hmine, if_neg (by simp)] at h
          obtain ⟨rfl, rfl, rfl⟩ := runs_pair.mp h
          exact .ignored hparse (.cancelOther hne hty hmine)
      | txSegment =>
        simp only [hty] at h
        cases hmine : isMyFile f msg with
        | true =>
          rw [if_pos hmine, bind_assoc, runs_bind] at h
          obtain ⟨tr₁, g, tr₂, hr, h, rfl⟩ := h
          obtain ⟨t, rfl, rfl⟩ := reset_runs.mp hr
          obtain ⟨rfl, rfl, rfl⟩ := runs_pair.mp h
          exact .held hparse happly hty hmine
        | false =>
          rw [if_neg (by simp [hmine]), done_bind] at h
          have hb := transitionOutOfApply_segment (Or.inr hty) h
          exact .start hparse ⟨Or.inr hty, Or.inr hmine⟩ hb
      | txApply =>
        simp only [hty] at h
        cases hmine : isMyFile f msg with
        | true =>
          rw [if_pos hmine] at h
          unfold applyFile at h
          rw [call_bind, runs_call] at h
          obtain ⟨r, tr', rfl, h⟩ := h
          by_cases hr : r = RetCode.ok
          · rw [if_pos hr, bind_assoc, runs_bind] at h
            obtain ⟨ts, g, tr₂, hs, h, rfl⟩ := h
            have hsent := sendAck_fixed hs
            rw [pure_bind] at h
            obtain ⟨r', hcl, rfl, rfl⟩ :=
              transitionOutOfApply_idle (hsent.state_eq.trans happly) h
            rw [hr]
            exact .applied hparse happly hty hmine hsent hcl
          · rw [if_neg hr, done_bind] at h
            obtain ⟨r', hcl, rfl, rfl⟩ := transitionOutOfApply_idle happly h
            exact .applyRefused hparse happly hty hmine hr hcl
        | false =>
          rw [if_neg (by simp [hmine]), done_bind] at h
          obtain ⟨rfl, rfl, rfl⟩ := runs_pair.mp h
          exact .ignored hparse (.applyOther happly hty hmine)
      | tick =>
        simp only [hty] at h
        rw [runs_bind] at h
        obtain ⟨tr₁, ⟨r, next, g⟩, tr₂, htick, h, rfl⟩ := h
        obtain ⟨t, ts, rfl, rfl, hout⟩ := retryTick_runs htick
        rcases hout with ⟨hdue, rfl, rfl, rfl⟩ | ⟨hdue, hleft, rfl, ack, g', hack, hs, rfl⟩ |
          ⟨hdue, hleft, rfl, rfl, rfl⟩
        · obtain ⟨rfl, rfl, rfl⟩ := runs_pair.mp h
          exact .early hparse hne hty hdue
        · obtain ⟨rfl, rfl, rfl⟩ := runs_pair.mp h
          obtain rfl : ackSegsCompleteGenerate f = ack := by simpa using hack
          have hgen : retryAck f = some (ackSegsCompleteGenerate f) := by
            unfold retryAck
            rw [if_pos happly]
          rw [List.append_nil]
          exact .retry hparse hne hty hdue hleft hgen (sendAck_fixed hs)
        · obtain ⟨r', hcl, rfl, rfl⟩ := transitionOutOfApply_idle happly h
          exact .giveUp hparse hne hty hdue hleft hcl
      | ackInit =>
        simp only [hty, done_bind] at h
        obtain ⟨rfl, rfl, rfl⟩ := runs_pair.mp h
        exact .ignored hparse (.ack hne (Or.inl hty))
      | ackSegment =>
        simp only [hty, done_bind] at h
        obtain ⟨rfl, rfl, rfl⟩ := runs_pair.mp h
        exact .ignored hparse (.ack hne (Or.inr (Or.inl hty)))
      | ackApply =>
        simp only [hty, done_bind] at h
        obtain ⟨rfl, rfl, rfl⟩ := runs_pair.mp h
        exact .ignored hparse (.ack hne (Or.inr (Or.inr hty)))
    · rw [if_pos hok] at h
      obtain ⟨rfl, rfl, rfl⟩ := runs_pair.mp h
      exact .rejected hparse hok

/-- **One input, taken apart**: every run of `ll_ftp_msg_process` is one of the ways
of `MsgStep`. -/
theorem msgProcess_runs {f f' : LlFtp} {inp : Option RxBuf} {tr : List Ev} {ret : RetCode}
    (h : (msgProcess f inp).Runs tr (ret, f')) : MsgStep f inp tr ret f' := by
  unfold msgProcess at h
  cases hst : f.state with
  | idle => exact idleProcessMsg_runs hst (by rwa [hst] at h)
  | segment => exact segmentProcessMsg_runs hst (by rwa [hst] at h)
  | apply => exact applyProcessMsg_runs hst (by rwa [hst] at h)

/-- The same of a recorded step. -/
theorem step_msgStep {st : FtpStep} (h : st.Valid msgProcess) :
    MsgStep st.pre st.input st.events st.out st.post :=
  msgProcess_runs h

/-! ## The state a step leaves -/

/-- Ending a transfer never leads to APPLY. -/
theorem leave_not_apply (f : LlFtp) (ret : RetCode) : (f.leave ret).state ≠ .apply := by
  unfold LlFtp.leave
  split
  next => simp
  next h =>
    intro hap
    exact h (Or.inr hap)

/-- A message that may begin a transfer leads to SEGMENT, or changes no field of the
current one. -/
theorem Begins.post {f f' : LlFtp} {msg : Msg} {tr : List Ev} {ret : RetCode}
    (h : Begins f msg tr ret f') : f'.state = .segment ∨ ∃ tx t, f' = f.touch tx t := by
  cases h with
  | accepted _ => exact Or.inl rfl
  | refused _ hs =>
    obtain ⟨r, t, -, rfl⟩ := hs
    exact Or.inr ⟨_, t, rfl⟩

/-- A message that begins a transfer does nothing else. -/
theorem MsgStep.begins {f f' : LlFtp} {inp : Option RxBuf} {msg : Msg} {tr : List Ev}
    {ret : RetCode} (h : MsgStep f inp tr ret f') (hparse : parseRxMsg inp = (.ok, msg))
    (hs : StartsTransfer f msg) : Begins f msg tr ret f' := by
  have hsame : ∀ {msg' : Msg} {r : RetCode}, parseRxMsg inp = (r, msg') → r = .ok ∧ msg' = msg :=
    parse_unique hparse
  have htype : msg.msgType ≠ .txCancel ∧ msg.msgType ≠ .txApply ∧ msg.msgType ≠ .tick := by
    rcases hs.type with hty | hty <;> simp [hty]
  have hother : ∀ {P : Prop}, f.state ≠ .idle → isMyFile f msg = true → P := by
    intro P hne hmine
    rcases hs.other with hidle | hfalse
    · exact absurd hidle hne
    · rw [hmine] at hfalse
      cases hfalse
  have hrecv : ∀ {P : Prop} {msg' : Msg} {tr : List Ev} {r : RetCode} {g : LlFtp},
      parseRxMsg inp = (.ok, msg') → Receives f msg' tr r g → P := by
    intro P msg' tr r g h' hr
    obtain ⟨-, rfl⟩ := hsame h'
    exact hother (by simp [hr.state]) hr.mine
  -- Every other way is for another type of message, or for a segment of the current file.
  cases h with
  | rejected hp hne => exact absurd (hsame hp).1 hne
  | ignored hp hi =>
    obtain ⟨-, rfl⟩ := hsame hp
    cases hi with
    | idle _ hni hns => rcases hs.type with hty | hty <;> contradiction
    | again hne _ hmine => exact hother hne hmine
    | cancelOther _ hty _ => exact absurd hty htype.1
    | applyOther _ hty _ => exact absurd hty htype.2.1
    | ack _ hty =>
      rcases hs.type with h | h <;> rw [h] at hty <;> rcases hty with hty | hty | hty <;> cases hty
  | start hp _ hb =>
    obtain ⟨-, rfl⟩ := hsame hp
    exact hb
  | cancel hp _ hty _ _ => exact absurd hty ((hsame hp).2 ▸ htype.1)
  | incomplete hp hr _ => exact hrecv hp hr
  | verified hp hr _ _ _ => exact hrecv hp hr
  | stuck hp hr _ _ _ => exact hrecv hp hr
  | restarted hp hr _ _ _ => exact hrecv hp hr
  | abandoned hp hr _ _ _ _ _ => exact hrecv hp hr
  | request hp _ hty _ _ => exact absurd hty ((hsame hp).2 ▸ htype.2.1)
  | early hp _ hty _ => exact absurd hty ((hsame hp).2 ▸ htype.2.2)
  | retry hp _ hty _ _ _ _ => exact absurd hty ((hsame hp).2 ▸ htype.2.2)
  | giveUp hp _ hty _ _ _ => exact absurd hty ((hsame hp).2 ▸ htype.2.2)
  | held hp hst _ hmine =>
    obtain ⟨-, rfl⟩ := hsame hp
    exact hother (by simp [hst]) hmine
  | applied hp _ hty _ _ _ => exact absurd hty ((hsame hp).2 ▸ htype.2.1)
  | applyRefused hp _ hty _ _ _ => exact absurd hty ((hsame hp).2 ▸ htype.2.1)

/-! ## Ticks and applications -/

/-- What a tick does: nothing in IDLE or too early, else a retry or the end of the transfer. -/
theorem MsgStep.tick_cases {f f' : LlFtp} {inp : Option RxBuf} {tr : List Ev} {ret : RetCode}
    (h : MsgStep f inp tr ret f') (hok : (parseRxMsg inp).1 = .ok)
    (hty : (parseRxMsg inp).2.msgType = .tick) :
    (f.state = .idle ∧ tr = [] ∧ f' = f) ∨
    (f.state ≠ .idle ∧ ∃ t, tr = [⟨.gettime, t⟩] ∧ f' = f) ∨
    (f.state ≠ .idle ∧ f.retryCount.toNat < 5 ∧ ∃ t ack ts g, 16 ≤ llDifftime f.timeLastMsg t ∧
      retryAck f = some ack ∧ Sent f ack ts g ∧ tr = ⟨.gettime, t⟩ :: ts ∧
      f' = { g with retryCount := g.retryCount + 1 }) ∨
    (f.state ≠ .idle ∧ ¬ f.retryCount.toNat < 5 ∧ ∃ t tc, 16 ≤ llDifftime f.timeLastMsg t ∧
      Closes f tc ret ∧ tr = ⟨.gettime, t⟩ :: tc ∧ f' = f.leave ret) := by
  have htype : ∀ {P : Prop} {msg' : Msg} {ty : MsgType}, parseRxMsg inp = (.ok, msg') →
      msg'.msgType = ty → ty ≠ .tick → P := not_other_type (parsed hok) hty
  cases h with
  | rejected hp hne => exact absurd (parse_unique (parsed hok) hp).1 hne
  | ignored hp hi =>
    cases hi with
    | idle hidle _ _ => exact Or.inl ⟨hidle, rfl, rfl⟩
    | again _ hty' _ => exact htype hp hty' (by simp)
    | cancelOther _ hty' _ => exact htype hp hty' (by simp)
    | applyOther _ hty' _ => exact htype hp hty' (by simp)
    | ack _ hty' =>
      rcases hty' with h' | h' | h'
      · exact htype hp h' (by simp)
      · exact htype hp h' (by simp)
      · exact htype hp h' (by simp)
  | start hp hs _ =>
    rcases hs.type with h' | h'
    · exact htype hp h' (by simp)
    · exact htype hp h' (by simp)
  | cancel hp _ hty' _ _ => exact htype hp hty' (by simp)
  | incomplete hp hr _ => exact htype hp hr.type (by simp)
  | verified hp hr _ _ _ => exact htype hp hr.type (by simp)
  | stuck hp hr _ _ _ => exact htype hp hr.type (by simp)
  | restarted hp hr _ _ _ => exact htype hp hr.type (by simp)
  | abandoned hp hr _ _ _ _ _ => exact htype hp hr.type (by simp)
  | request hp _ hty' _ _ => exact htype hp hty' (by simp)
  | early _ hne _ _ => exact Or.inr (Or.inl ⟨hne, _, rfl, rfl⟩)
  | retry _ hne _ hdue hleft hack hs =>
    exact Or.inr (Or.inr (Or.inl ⟨hne, hleft, _, _, _, _, hdue, hack, hs, rfl, rfl⟩))
  | giveUp _ hne _ hdue hleft hcl =>
    exact Or.inr (Or.inr (Or.inr ⟨hne, hleft, _, _, hdue, hcl, rfl, rfl⟩))
  | held hp _ hty' _ => exact htype hp hty' (by simp)
  | applied hp _ hty' _ _ _ => exact htype hp hty' (by simp)
  | applyRefused hp _ hty' _ _ _ => exact htype hp hty' (by simp)

/-- What a `TX_APPLY` does: in SEGMENT the missing segments are asked for, in APPLY the
current file is applied, and the callback may refuse that. -/
theorem MsgStep.apply_cases {f f' : LlFtp} {inp : Option RxBuf} {tr : List Ev} {ret : RetCode}
    (h : MsgStep f inp tr ret f') (hok : (parseRxMsg inp).1 = .ok)
    (hty : (parseRxMsg inp).2.msgType = .txApply) :
    (f.state = .segment ∧ ∃ ack, ackSegsRequestGenerate f = some ack ∧ Sent f ack tr f') ∨
    (f.state = .apply ∧ isMyFile f (parseRxMsg inp).2 = true ∧
      ((∃ ts g tc, Sent f (ackApplyGenerate f) ts g ∧ Closes g tc ret ∧ f' = g.leave ret ∧
          tr = ⟨.apply f.fileId f.fileVersion f.fileSize, RetCode.ok⟩ :: (ts ++ tc)) ∨
        ∃ r tc, r ≠ RetCode.ok ∧ tr = ⟨.apply f.fileId f.fileVersion f.fileSize, r⟩ :: tc)) ∨
    (f.state ≠ .segment ∧ (f.state = .apply → isMyFile f (parseRxMsg inp).2 = false) ∧
      tr = [] ∧ f' = f) := by
  have htype : ∀ {P : Prop} {msg' : Msg} {ty : MsgType}, parseRxMsg inp = (.ok, msg') →
      msg'.msgType = ty → ty ≠ .txApply → P := not_other_type (parsed hok) hty
  cases h with
  | rejected hp hne => exact absurd (parse_unique (parsed hok) hp).1 hne
  | ignored hp hi =>
    obtain ⟨-, rfl⟩ := parse_unique (parsed hok) hp
    cases hi with
    | idle hidle _ _ => exact Or.inr (Or.inr ⟨by simp [hidle], by simp [hidle], rfl, rfl⟩)
    | again _ hty' _ => exact htype hp hty' (by simp)
    | cancelOther _ hty' _ => exact htype hp hty' (by simp)
    | applyOther happly _ hother =>
      exact Or.inr (Or.inr ⟨by simp [happly], fun _ => hother, rfl, rfl⟩)
    | ack _ hty' =>
      rcases hty' with h' | h' | h'
      · exact htype hp h' (by simp)
      · exact htype hp h' (by simp)
      · exact htype hp h' (by simp)
  | start hp hs _ =>
    rcases hs.type with h' | h'
    · exact htype hp h' (by simp)
    · exact htype hp h' (by simp)
  | cancel hp _ hty' _ _ => exact htype hp hty' (by simp)
  | incomplete hp hr _ => exact htype hp hr.type (by simp)
  | verified hp hr _ _ _ => exact htype hp hr.type (by simp)
  | stuck hp hr _ _ _ => exact htype hp hr.type (by simp)
  | restarted hp hr _ _ _ => exact htype hp hr.type (by simp)
  | abandoned hp hr _ _ _ _ _ => exact htype hp hr.type (by simp)
  | request _ hst _ hack hs => exact Or.inl ⟨hst, _, hack, hs⟩
  | early hp _ hty' _ => exact htype hp hty' (by simp)
  | retry hp _ hty' _ _ _ _ => exact htype hp hty' (by simp)
  | giveUp hp _ hty' _ _ _ => exact htype hp hty' (by simp)
  | held hp _ hty' _ => exact htype hp hty' (by simp)
  | applied hp happly _ hmine hs hcl =>
    obtain ⟨-, rfl⟩ := parse_unique (parsed hok) hp
    exact Or.inr (Or.inl ⟨happly, hmine, Or.inl ⟨_, _, _, hs, hcl, rfl, rfl⟩⟩)
  | applyRefused hp happly _ hmine hne _ =>
    obtain ⟨-, rfl⟩ := parse_unique (parsed hok) hp
    exact Or.inr (Or.inl ⟨happly, hmine, Or.inr ⟨_, _, hne, rfl⟩⟩)

end HostInterface.Ftp

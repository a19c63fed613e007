import HostInterface.Ftp.Parse
import HostInterface.Ftp.Verify

/-!
# The state machine (`ll_ftp_msg_process`)

One input is a received buffer or, without a buffer, a tick. Each of the three
states has a handler, which parses the input, acts on the message and names the
next state or none (`-1` in the source); the transition itself, with the
callbacks that go with it, is a second function of each handler.

`FtpRun` is what the rest of the development is about: the histories of
`ll_ftp_msg_process` from an object fresh out of `ll_ftp_init`, with any inputs
and any results of the callbacks.
-/

namespace HostInterface.Ftp

open Interact Prog

/-- `IS_MY_FILE`. -/
def isMyFile (f : LlFtp) (msg : Msg) : Bool :=
  msg.fileId = f.fileId && msg.fileVersion = f.fileVersion

theorem isMyFile_iff {f : LlFtp} {msg : Msg} :
    isMyFile f msg = true ↔ msg.fileId = f.fileId ∧ msg.fileVersion = f.fileVersion := by
  unfold isMyFile
  rw [Bool.and_eq_true, decide_eq_true_eq, decide_eq_true_eq]

/-! ## Callbacks of a transfer -/

/-- `ll_ftp_file_reopen`. -/
def fileReopen (f : LlFtp) : FtpM RetCode :=
  .call (.close f.fileId f.fileVersion) fun cbRet =>
    if cbRet = RetCode.ok then perform (Call.open f.fileId f.fileVersion f.fileSize)
    else .done cbRet

/-- The fields `ll_ftp_new_file_initialize` takes from the message. The quotient is
rounded up before the cast to `uint16_t` drops its high bits. -/
def LlFtp.newFile (f : LlFtp) (msg : Msg) : LlFtp :=
  { f with
    fileId := msg.fileId
    fileVersion := msg.fileVersion
    fileSize := msg.fileSize
    numSegs := BitVec.ofNat 16 ((msg.fileSize.toNat + 106) / maxFileSegmentBytes)
    rxSegs := Vector.replicate 75 0 }

/-- `ll_ftp_new_file_initialize`. -/
def newFileInitialize (f : LlFtp) (msg : Msg) : FtpM LlFtp := do
  let f ← reset f
  sendAck (ackInitGenerate (f.newFile msg) true)

/-- `ll_ftp_idle_start`. -/
def idleStart (f : LlFtp) : FtpM RetCode :=
  .call (.close f.fileId f.fileVersion) fun cbRet =>
    if cbRet = RetCode.ok then .call (.config false) fun _ => .done .ok
    else .done .error

/-- `ll_ftp_segment_start`. -/
def segmentStart (f : LlFtp) (msg : Msg) : FtpM (RetCode × LlFtp) :=
  .call (.open msg.fileId msg.fileVersion msg.fileSize) fun cbRet =>
    if cbRet = RetCode.ok then do
      let f ← newFileInitialize f msg
      .call (.config true) fun _ => .done (.ok, f)
    else if msg.msgType = .txInit ∨ msg.msgType = .txSegment then do
      let f ← sendAck (ackInitGenerate f false)
      return (.noAction, f)
    else .done (.noAction, f)

/-- `ll_ftp_apply_start`. -/
def applyStart (f : LlFtp) : FtpM (RetCode × LlFtp) :=
  .call (.close f.fileId f.fileVersion) fun cbRet =>
    if cbRet = RetCode.ok then do
      let f ← sendAck (ackSegsCompleteGenerate f)
      return (.ok, f)
    else .done (.error, f)

/-- `ll_ftp_write_segment`. -/
def writeSegment (f : LlFtp) (msg : Msg) : FtpM (RetCode × LlFtp) :=
  .call (.write msg.fileId msg.fileVersion (msg.segmentNumber.setWidth 32 * 107) msg.payload
      msg.payloadLen) fun cbRet =>
    if cbRet = RetCode.ok then do
      let f ← ofOption (segNumTrack f msg.segmentNumber)
      return (.ok, f)
    else .done (.noAction, f)

/-- The offset of a segment's write does not wrap. -/
theorem segment_offset (segNum : U16) :
    (segNum.setWidth 32 * 107 : U32).toNat = 107 * segNum.toNat := by
  rw [BitVec.toNat_mul, BitVec.toNat_setWidth, show (107 : U32).toNat = 107 from rfl]
  omega

/-- The `TICK` branch, the same in SEGMENT and APPLY but for the uplink it repeats. -/
def retryTick (f : LlFtp) (generate : LlFtp → Option (U8 × LlFtp)) :
    FtpM (RetCode × Option State × LlFtp) :=
  .call .gettime fun timeNow =>
    if retryInterval ≤ llDifftime f.timeLastMsg timeNow then
      if f.retryCount.toNat < maxNumRetries then do
        let ack ← ofOption (generate f)
        let f ← sendAck ack
        return (.ok, none, { f with retryCount := f.retryCount + 1 })
      else .done (.ok, some .idle, f)
    else .done (.ok, none, f)

/-! ## IDLE -/

/-- `ll_ftp_idle_process_msg`. -/
def idleProcessMsg (f : LlFtp) (inp : Option RxBuf) : FtpM (RetCode × LlFtp) := do
  let (ret, ftpMsg) := parseRxMsg inp
  if ret ≠ .ok then return (ret, f)
  if ftpMsg.msgType ≠ .txInit ∧ ftpMsg.msgType ≠ .txSegment then return (.invalidValue, f)
  let (ret, f) ← segmentStart f ftpMsg
  return (ret, if ret = .ok then f.stateSet .segment else f)

/-! ## SEGMENT -/

/-- `ll_ftp_transition_out_of_segment`. -/
def transitionOutOfSegment (f : LlFtp) (msg : Msg) : State → FtpM (RetCode × LlFtp)
  | .idle => do
    let ret ← idleStart f
    return (ret, if ret = .ok then (f.stateSet .idle).reinit else f)
  | .segment => do
    let (ret, f) ← segmentStart f msg
    return (ret, if ret = .ok then f.stateSet .segment else f)
  | .apply => do
    let (ret, f) ← applyStart f
    return (ret, if ret = .ok then f.stateSet .apply else f.stateSet .idle)

/-- The branch of `ll_ftp_segment_process_msg` for a segment of the current file. -/
def segmentReceive (f : LlFtp) (msg : Msg) : FtpM (RetCode × Option State × LlFtp) := do
  let f ← reset f
  let (ret, f) ← writeSegment f msg
  let complete ← ofOption (transferIsComplete f)
  if complete then
    let verified ← verifyFile f
    if verified = .ok then return (ret, some .apply, f)
    else
      -- keep file transfer, but clear file progress and request all segs
      let f ← reset f.clearRxSegs
      let ret ← fileReopen f
      return (ret, if ret ≠ .ok then some .idle else none, f)
  else return (ret, none, f)

/-- The middle of `ll_ftp_segment_process_msg`: the result, the next state and the object. -/
def segmentHandleMsg (f : LlFtp) (msg : Msg) : FtpM (RetCode × Option State × LlFtp) :=
  match msg.msgType with
  | .txInit => .done (.noAction, if isMyFile f msg then none else some .segment, f)
  | .txCancel => .done (.noAction, if isMyFile f msg then some .idle else none, f)
  | .txSegment =>
    if isMyFile f msg then segmentReceive f msg
    else .done (.noAction, some .segment, f) -- attempt to restart SEGMENT state
  | .txApply => do
    -- Only able to apply in APPLY state
    let ack ← ofOption (ackSegsRequestGenerate f)
    let f ← sendAck ack
    return (.ok, none, f)
  | .tick => retryTick f ackSegsRequestGenerate
  | _ => .done (.noAction, none, f)

/-- `ll_ftp_segment_process_msg`. -/
def segmentProcessMsg (f : LlFtp) (inp : Option RxBuf) : FtpM (RetCode × LlFtp) := do
  let (ret, ftpMsg) := parseRxMsg inp
  if ret ≠ .ok then return (ret, f)
  let (ret, nextState, f) ← segmentHandleMsg f ftpMsg
  match nextState with
  | none => return (ret, f)
  | some nextState => transitionOutOfSegment f ftpMsg nextState

/-! ## APPLY -/

/-- `ll_ftp_transition_out_of_apply`. -/
def transitionOutOfApply (f : LlFtp) (msg : Msg) (nextState : State) (isError : Bool) :
    FtpM (RetCode × LlFtp) := do
  let (ret, f) ←
    match nextState with
    | .idle => do
      let ret ← idleStart f
      let f := f.reinit
      pure (ret, if ret = .ok then f.stateSet .idle else f)
    | .segment => do
      let (ret, f) ← segmentStart f msg
      pure (ret, if ret = .ok then f.stateSet .segment else f)
    | .apply => pure (.noAction, f)
  return (if isError then .error else ret, f)

/-- The branch of `ll_ftp_apply_process_msg` that applies the current file. -/
def applyFile (f : LlFtp) : FtpM (RetCode × Option State × LlFtp) :=
  .call (.apply f.fileId f.fileVersion f.fileSize) fun cbRet =>
    if cbRet = RetCode.ok then do
      let f ← sendAck (ackApplyGenerate f)
      return (.noAction, some .idle, f)
    else .done (.error, some .idle, f) -- Apply rejected. Forget File.

/-- The middle of `ll_ftp_apply_process_msg`. -/
def applyHandleMsg (f : LlFtp) (msg : Msg) : FtpM (RetCode × Option State × LlFtp) :=
  match msg.msgType with
  | .txInit => .done (.noAction, if isMyFile f msg then none else some .segment, f)
  | .txCancel => .done (.noAction, if isMyFile f msg then some .idle else none, f)
  | .txSegment =>
    if isMyFile f msg then do
      let f ← reset f
      return (.noAction, none, f)
    else .done (.noAction, some .segment, f)
  | .txApply => if isMyFile f msg then applyFile f else .done (.noAction, none, f)
  | .tick => retryTick f fun f => some (ackSegsCompleteGenerate f)
  | _ => .done (.noAction, none, f)

/-- `ll_ftp_apply_process_msg`. -/
def applyProcessMsg (f : LlFtp) (inp : Option RxBuf) : FtpM (RetCode × LlFtp) := do
  let (ret, ftpMsg) := parseRxMsg inp
  if ret ≠ .ok then return (ret, f)
  let (ret, nextState, f) ← applyHandleMsg f ftpMsg
  match nextState with
  | none => return (ret, f)
  | some nextState => transitionOutOfApply f ftpMsg nextState (ret = .error)

/-! ## Runs -/

/-- `ll_ftp_msg_process`. -/
def msgProcess (f : LlFtp) (inp : Option RxBuf) : FtpM (RetCode × LlFtp) :=
  match f.state with
  | .idle => idleProcessMsg f inp
  | .segment => segmentProcessMsg f inp
  | .apply => applyProcessMsg f inp

/-- What the parser refuses is refused in every state, without a call. -/
theorem msgProcess_refused {f : LlFtp} {inp : Option RxBuf} {ret : RetCode}
    (h : (parseRxMsg inp).1 = ret) (hret : ret ≠ .ok) : msgProcess f inp = .done (ret, f) := by
  have hparse : parseRxMsg inp = (ret, (parseRxMsg inp).2) := Prod.ext h rfl
  unfold msgProcess idleProcessMsg segmentProcessMsg applyProcessMsg
  rw [hparse]
  cases f.state with
  | idle => simp only [if_pos hret]; rfl
  | segment => simp only [if_pos hret]; rfl
  | apply => simp only [if_pos hret]; rfl

/-- One processed input, with everything that was called meanwhile. -/
abbrev FtpStep := Interact.Step Reply LlFtp (Option RxBuf) RetCode

/-- The run `hist` from an object fresh out of `ll_ftp_init` to `f`. -/
def FtpRun (hist : List FtpStep) (f : LlFtp) : Prop :=
  ∃ g cb f₀, init g cb = (.ok, f₀) ∧ Interact.Run msgProcess f₀ hist f

/-- A successful `ll_ftp_init` leaves the fields as `reinit` does. -/
theorem init_ok {g f₀ : LlFtp} {cb : CallbackTable} (h : init g cb = (.ok, f₀)) :
    f₀ = g.reinit := by
  unfold init at h
  split at h
  next =>
    simp only [Prod.mk.injEq, true_and] at h
    exact h.symm
  next => cases h

namespace FtpRun

variable {hist : List FtpStep} {f : LlFtp}

/-- What each step keeps of the history and the object holds of every run. -/
theorem invariant {P : List FtpStep → LlFtp → Prop} (h : FtpRun hist f)
    (h₀ : ∀ g : LlFtp, P [] g.reinit)
    (hstep : ∀ (hist : List FtpStep) (st : FtpStep),
      st.Valid msgProcess → P hist st.pre → P (hist ++ [st]) st.post) : P hist f := by
  obtain ⟨g, cb, f₀, hinit, hrun⟩ := h
  refine hrun.invariant ?_ hstep
  rw [init_ok hinit]
  exact h₀ g

/-- An invariant of the steps that meet `C` holds along every run of such steps. -/
theorem always_of {P : LlFtp → Prop} {C : FtpStep → Prop} (h : FtpRun hist f)
    (hC : ∀ st ∈ hist, C st) (h₀ : ∀ g : LlFtp, P g.reinit)
    (hstep : ∀ st : FtpStep, st.Valid msgProcess → C st → P st.pre → P st.post) : P f := by
  obtain ⟨g, cb, f₀, hinit, hrun⟩ := h
  refine hrun.always_of hC ?_ hstep
  rw [init_ok hinit]
  exact h₀ g

/-- A property kept by exactly the steps that meet `C` holds all the way along a run if
and only if all its steps meet it. -/
theorem throughout_iff {P : List FtpStep → LlFtp → Prop} {C : FtpStep → Prop} (h : FtpRun hist f)
    (h₀ : ∀ g : LlFtp, P [] g.reinit)
    (hstep : ∀ (hist : List FtpStep) (st : FtpStep),
      st.Valid msgProcess → P hist st.pre → (P (hist ++ [st]) st.post ↔ C st)) :
    (∀ i st, hist[i]? = some st → P (hist.take (i + 1)) st.post) ↔ ∀ st ∈ hist, C st := by
  obtain ⟨g, cb, f₀, hinit, hrun⟩ := h
  refine hrun.throughout_iff ?_ hstep
  rw [init_ok hinit]
  exact h₀ g

/-- The object before a step of a run is reached by the steps before it. -/
theorem at_pos (h : FtpRun hist f) {i : Nat} {st : FtpStep} (hi : hist[i]? = some st) :
    FtpRun (hist.take i) st.pre ∧ st.Valid msgProcess := by
  obtain ⟨g, cb, f₀, hinit, hrun⟩ := h
  obtain ⟨hpre, hv⟩ := hrun.at_pos hi
  exact ⟨⟨g, cb, f₀, hinit, hpre⟩, hv⟩

end FtpRun

end HostInterface.Ftp

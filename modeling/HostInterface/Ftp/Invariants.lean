import HostInterface.Ftp.Shape
import HostInterface.Ftp.Storage

/-!
# Invariants of the object

Three facts one expects of every reachable object, each with the steps that
break it:

* the segment count is the announced size over `MAX_FILE_SEGMENT_BYTES`, rounded
  up, and fits the bitmap. Nothing checks the announced size, so this is true
  of exactly the runs that only open files of at most 256800 bytes
  (`segCount_iff`);
* IDLE means reset (`idle_reset`), except where a file has been verified and then
  cannot be closed: `ll_ftp_transition_out_of_segment` sets IDLE there and skips
  `ll_ftp_init`;
* the downlink mode follows the transfer (`downlink_iff`), except there and where
  APPLY is left with a file that cannot be closed: both go to IDLE without
  `config(false)`.
-/

namespace HostInterface.Ftp

open Interact Prog

/-! ## Segment count -/

/-- The number of segments a file of `size` bytes is cut into. -/
def ceilSegs (size : Nat) : Nat :=
  (size + 106) / 107

/-- In a transfer the segment count is the size over the segment length, rounded up,
at most `MAX_NUM_SEGMENTS`, and no bitmap loop run with it leaves the array. -/
def SegCount (f : LlFtp) : Prop :=
  f.state ≠ .idle →
    f.numSegs.toNat = ceilSegs f.fileSize.toNat ∧ f.numSegs.toNat ≤ maxNumSegments ∧
      ∀ g : LlFtp, g.numSegs = f.numSegs →
        (transferIsComplete g).isSome ∧ ∀ fillBuf, (getMissingSegs g fillBuf).isSome

/-- The announced size of every open that succeeds in the step is at most
`MAX_NUM_SEGMENTS * MAX_FILE_SEGMENT_BYTES`. -/
def OpensFit (st : FtpStep) : Prop :=
  ∀ id version size, (⟨.open id version size, RetCode.ok⟩ : Ev) ∈ st.events → size.toNat ≤ 256800

/-- Counts that fit keep the loops in the array. -/
theorem segCount_of {f : LlFtp} (hnum : f.numSegs.toNat = ceilSegs f.fileSize.toNat)
    (hmax : f.numSegs.toNat ≤ 2400) : SegCount f := by
  intro _
  refine ⟨hnum, hmax, fun g hg => ?_⟩
  have hg' : g.numSegs.toNat ≤ 2400 := by rw [hg]; exact hmax
  constructor
  · rw [transferIsComplete_eq hg']
    rfl
  · intro fillBuf
    obtain ⟨x, hx⟩ := getMissingSegs_isSome fillBuf hg'
    rw [hx]
    rfl

/-- The fields a transfer is counted by are the same. -/
structure SameCount (f f' : LlFtp) : Prop where
  numSegs : f'.numSegs = f.numSegs
  fileSize : f'.fileSize = f.fileSize

theorem SegCount.same {f f' : LlFtp} (h : SegCount f) (hst : f.state ≠ .idle)
    (hs : SameCount f f') : SegCount f' := by
  intro _
  obtain ⟨hnum, hmax, hloops⟩ := h hst
  rw [hs.numSegs, hs.fileSize]
  exact ⟨hnum, hmax, hloops⟩

theorem Sent.sameCount {f f' : LlFtp} {ack : U8 × LlFtp} {tr : List Ev} (h : Sent f ack tr f') :
    SameCount f f' := by
  obtain ⟨r, t, -, rfl⟩ := h
  exact ⟨rfl, rfl⟩

theorem Receives.sameCount {f g : LlFtp} {msg : Msg} {tr : List Ev} {ret : RetCode}
    (h : Receives f msg tr ret g) : SameCount f g := by
  obtain ⟨t, trw, -, hw⟩ := h.write
  cases hw with
  | stored htrack =>
    rw [segNumTrack_frame htrack]
    exact ⟨rfl, rfl⟩
  | failed _ => exact ⟨rfl, rfl⟩

theorem leave_segCount {f : LlFtp} {ret : RetCode} (h : SegCount f) : SegCount (f.leave ret) := by
  unfold LlFtp.leave
  split
  next => intro hst; exact absurd rfl hst
  next => exact h

/-- The cast to `uint16_t` and the bitmap hold the count of exactly the sizes up to
`MAX_NUM_SEGMENTS * MAX_FILE_SEGMENT_BYTES`. -/
theorem newFile_segCount {f : LlFtp} (hst : f.state ≠ .idle)
    (hnum : f.numSegs = BitVec.ofNat 16 (ceilSegs f.fileSize.toNat)) :
    SegCount f ↔ f.fileSize.toNat ≤ 256800 := by
  have hcast : f.numSegs.toNat = ceilSegs f.fileSize.toNat % 65536 := by
    rw [hnum, BitVec.toNat_ofNat]
  unfold ceilSegs at hcast
  constructor
  · intro h
    obtain ⟨hceil, hmax, -⟩ := h hst
    have hmax' : f.numSegs.toNat ≤ 2400 := hmax
    unfold ceilSegs at hceil
    omega
  · intro hsize
    refine segCount_of ?_ ?_
    · unfold ceilSegs
      omega
    · omega

/-- A step without a successful open keeps the count. -/
theorem segCount_keep {f f' : LlFtp} {inp : Option RxBuf} {tr : List Ev} {ret : RetCode}
    (h : MsgStep f inp tr ret f') (hno : Kind.openOk ∉ kinds tr) (hpre : SegCount f) :
    SegCount f' := by
  cases h with
  | rejected _ _ => exact hpre
  | ignored _ _ => exact hpre
  | start _ _ hb =>
    cases hb with
    | accepted _ => simp at hno
    | refused _ hs =>
      intro hst
      rw [hs.state_eq] at hst
      exact hpre.same hst hs.sameCount (by rw [hs.state_eq]; exact hst)
  | cancel _ _ _ _ _ => exact leave_segCount hpre
  | incomplete _ hrecv _ => exact hpre.same (by simp [hrecv.state]) hrecv.sameCount
  | verified _ hrecv _ _ hs =>
    have hg := hpre.same (by simp [hrecv.state]) hrecv.sameCount
    have hg' := hg.same (by simp [hrecv.state_eq]) hs.sameCount
    exact fun _ => hg' (by simp [hs.state_eq, hrecv.state_eq])
  | stuck _ _ _ _ _ => intro hst; exact absurd rfl hst
  | restarted _ _ _ _ _ => simp at hno
  | abandoned _ hrecv _ _ _ _ _ =>
    have hg := hpre.same (by simp [hrecv.state]) hrecv.sameCount
    exact leave_segCount fun _ => hg (by simp [hrecv.state_eq])
  | request _ hst _ _ hs => exact hpre.same (by simp [hst]) hs.sameCount
  | early _ _ _ _ => exact hpre
  | retry _ hne _ _ _ _ hs =>
    have hs' := hs.sameCount
    exact hpre.same hne ⟨hs'.numSegs, hs'.fileSize⟩
  | giveUp _ _ _ _ _ _ => exact leave_segCount hpre
  | held _ _ _ _ => exact hpre
  | applied _ hst _ _ hs _ => exact leave_segCount (hpre.same (by simp [hst]) hs.sameCount)
  | applyRefused _ _ _ _ _ _ => exact leave_segCount hpre

/-- A step makes one successful open at most, of the file it leaves, whose count is
cast from the announced size or was there before. -/
theorem opened_post {f f' : LlFtp} {inp : Option RxBuf} {tr : List Ev} {ret : RetCode}
    (h : MsgStep f inp tr ret f') (hopen : Kind.openOk ∈ kinds tr) :
    f'.state = .segment ∧
      (∃ id version, (⟨.open id version f'.fileSize, RetCode.ok⟩ : Ev) ∈ tr) ∧
      (∀ id version size, (⟨.open id version size, RetCode.ok⟩ : Ev) ∈ tr → size = f'.fileSize) ∧
      (f'.numSegs = BitVec.ofNat 16 (ceilSegs f'.fileSize.toNat) ∨
        f.state ≠ .idle ∧ SameCount f f') := by
  have hends : ∀ {g : LlFtp} {tc : List Ev} {c : RetCode}, Closes g tc c →
      Kind.openOk ∉ kinds tc := fun hcl => hcl.not_mem (by decide)
  cases h with
  | rejected _ _ => simp at hopen
  | ignored _ _ => simp at hopen
  | @start msg _ _ _ _ _ hb =>
    cases hb with
    | accepted hs =>
      obtain ⟨r, t, rfl, rfl⟩ := hs
      refine ⟨rfl, ⟨msg.fileId, msg.fileVersion, List.mem_cons_self ..⟩, ?_, Or.inl rfl⟩
      intro id version size hmem
      rcases List.mem_cons.mp hmem with heq | hmem
      · simp only [Sigma.mk.injEq, Call.open.injEq] at heq
        exact heq.1.2.2
      · refine absurd hmem (not_mem_of_kinds ?_)
        simp [sentEvents]
    | refused hne hs => simp [kind_open_fail hne, hs.kinds_eq] at hopen
  | cancel _ _ _ _ hcl => exact absurd hopen (hends hcl)
  | incomplete _ hrecv _ => simp [hrecv.kinds_eq] at hopen
  | verified _ hrecv _ hv hs =>
    obtain ⟨n, hn⟩ := verify_kinds hv
    simp [hrecv.kinds_eq, hn, hs.kinds_eq] at hopen
  | stuck _ hrecv _ hv hne =>
    obtain ⟨n, hn⟩ := verify_kinds hv
    simp [hrecv.kinds_eq, hn, kind_close_fail hne] at hopen
  | @restarted _ tr tv _ _ g t _ hrecv _ hv _ =>
    obtain ⟨n, hn⟩ := verify_kinds hv
    have hs := hrecv.sameCount
    refine ⟨hrecv.state_eq, ⟨g.fileId, g.fileVersion, ?_⟩, ?_,
      Or.inr ⟨by simp [hrecv.state], hs.numSegs, hs.fileSize⟩⟩
    · refine List.mem_append_right _ (List.mem_append_right _ ?_)
      exact List.mem_cons_of_mem _ (List.mem_cons_of_mem _ (List.mem_singleton.mpr rfl))
    · intro id version size hmem
      have hread : (⟨.open id version size, RetCode.ok⟩ : Ev) ∉ tr ++ tv :=
        not_mem_of_kinds (by simp [hrecv.kinds_eq, hn])
      rw [← List.append_assoc, List.mem_append] at hmem
      rcases hmem with hmem | hmem
      · exact absurd hmem hread
      · simp only [List.mem_cons, List.not_mem_nil, or_false] at hmem
        rcases hmem with heq | heq | heq
        · cases heq
        · cases heq
        · simp only [Sigma.mk.injEq, Call.open.injEq] at heq
          exact heq.1.2.2
  | abandoned _ hrecv _ hv _ hfail hcl =>
    obtain ⟨n, hn⟩ := verify_kinds hv
    simp only [kinds_append, kinds_cons, hrecv.kinds_eq, hn, kind_gettime, List.mem_append,
      List.mem_cons, hends hcl, or_false] at hopen
    rcases hfail.kinds_eq with hk | hk <;> simp [hk] at hopen
  | request _ _ _ _ hs => simp [hs.kinds_eq] at hopen
  | early _ _ _ _ => simp at hopen
  | retry _ _ _ _ _ _ hs => simp [hs.kinds_eq] at hopen
  | giveUp _ _ _ _ _ hcl => simp [hends hcl] at hopen
  | held _ _ _ _ => simp at hopen
  | applied _ _ _ _ hs hcl => simp [hs.kinds_eq, hends hcl] at hopen
  | applyRefused _ _ _ _ _ hcl => simp [hends hcl] at hopen

/-- A step keeps the segment count right exactly when what it opens fits. -/
theorem segCount_step {st : FtpStep} (hv : st.Valid msgProcess) (hpre : SegCount st.pre) :
    SegCount st.post ↔ OpensFit st := by
  have hstep := step_msgStep hv
  by_cases hopen : Kind.openOk ∈ kinds st.events
  · obtain ⟨hseg, ⟨id, version, hmem⟩, huniq, hcount⟩ := opened_post hstep hopen
    have hne : st.post.state ≠ .idle := by simp [hseg]
    have hfit : OpensFit st ↔ st.post.fileSize.toNat ≤ 256800 := by
      constructor
      · intro hall
        exact hall id version _ hmem
      · intro hsize id' version' size' hmem'
        rw [huniq id' version' size' hmem']
        exact hsize
    rw [hfit]
    -- A new file is counted anew; a file that is opened again keeps its count.
    rcases hcount with hnum | ⟨hst, hsame⟩
    · exact newFile_segCount hne hnum
    · have hpost := hpre.same hst hsame
      refine iff_of_true hpost ?_
      obtain ⟨hceil, hmax, -⟩ := hpost hne
      have hmax' : st.post.numSegs.toNat ≤ 2400 := hmax
      unfold ceilSegs at hceil
      omega
  · refine iff_of_true (segCount_keep hstep hopen hpre) ?_
    intro id version size hmem
    exact absurd (List.mem_map_of_mem (f := kind) hmem) hopen

/-- **Segment count**: the count is right in every state of a run if and only if every
file the run opened is at most 256800 bytes long. -/
theorem segCount_iff {hist : List FtpStep} {f : LlFtp} (h : FtpRun hist f) :
    (∀ (i : Nat) (st : FtpStep), hist[i]? = some st → SegCount st.post) ↔ ∀ st ∈ hist, OpensFit st := by
  refine h.throughout_iff (P := fun _ => SegCount) ?_ fun _ _ hv hpre => segCount_step hv hpre
  intro g hst
  exact absurd rfl hst

/-- A `TX_INIT` that announces `2 ^ 32 - 1` bytes is accepted, and the count is what the
cast leaves. -/
theorem segCount_overflow :
    let inputs := [some (fileMsg 0 7 1 0xFFFFFFFF [])]
    FtpRun (demoHist .willing inputs) (demoEnd .willing inputs) ∧
      ¬ SegCount (demoEnd .willing inputs) := by
  refine ⟨demo_run (by decide +kernel), fun h => ?_⟩
  have hcount := (h (by decide +kernel)).1
  revert hcount
  decide +kernel

/-- The smallest file is counted right all the way. -/
theorem segCount_tiny :
    let hist := demoHist .willing [some tinyInit, some (tinySegment 5), some tinyApply]
    hist.length = 3 ∧
      ((∀ (i : Nat) (st : FtpStep), hist[i]? = some st → SegCount st.post) ↔
        ∀ st ∈ hist, OpensFit st) :=
  ⟨by decide +kernel, segCount_iff (demo_run (by decide +kernel))⟩

/-! ## IDLE means reset -/

/-- In IDLE the fields of a transfer are as `ll_ftp_init` leaves them. -/
def IdleReset (f : LlFtp) : Prop :=
  f.state = .idle →
    f.numSegs = 0 ∧ f.fileId = 0 ∧ f.fileVersion = 0 ∧ f.fileSize = 0 ∧ f.retryCount = 0 ∧
      f.rxSegs = Vector.replicate 75 0

/-- In the step a close that comes right after the reads of a verification fails: the
file was verified, and cannot be closed to enter APPLY. -/
def ApplyCloseFails (st : FtpStep) : Prop :=
  ∃ ks, kinds st.events = ks ++ [.read, .closeFail]

instance (st : FtpStep) : Decidable (ApplyCloseFails st) :=
  decidable_of_iff ([Kind.read, .closeFail] <:+ kinds st.events)
    ⟨fun ⟨ks, h⟩ => ⟨ks, h.symm⟩, fun ⟨ks, h⟩ => ⟨ks, h.symm⟩⟩

theorem reinit_idleReset (f : LlFtp) : IdleReset f.reinit :=
  fun _ => ⟨rfl, rfl, rfl, rfl, rfl, rfl⟩

theorem leave_idleReset {f : LlFtp} {ret : RetCode} (hne : f.state ≠ .idle) :
    IdleReset (f.leave ret) := by
  unfold LlFtp.leave
  split
  next => exact reinit_idleReset f
  next => intro hst; exact absurd hst hne

/-- A step that does not get stuck with a verified file leaves IDLE reset. -/
theorem idleReset_step {f f' : LlFtp} {inp : Option RxBuf} {tr : List Ev} {ret : RetCode}
    (h : MsgStep f inp tr ret f') (hC : ¬ ∃ ks, kinds tr = ks ++ [.read, .closeFail])
    (hpre : IdleReset f) : IdleReset f' := by
  cases h with
  | rejected _ _ => exact hpre
  | ignored _ _ => exact hpre
  | start _ _ hb =>
    cases hb with
    | accepted _ => intro hst; cases hst
    | refused _ hs =>
      obtain ⟨r, t, -, rfl⟩ := hs
      exact hpre
  | cancel _ hne _ _ _ => exact leave_idleReset hne
  | incomplete _ hrecv _ => intro hst; simp [hrecv.state_eq] at hst
  | verified _ _ _ _ _ => intro hst; cases hst
  | stuck _ hrecv _ hv hne =>
    obtain ⟨n, hn⟩ := verify_kinds hv
    refine absurd ⟨[.gettime, .write] ++ List.replicate n .read, ?_⟩ hC
    rw [kinds_append, kinds_append, kinds_cons, kinds_nil, hrecv.kinds_eq, hn,
      kind_close_fail hne, List.replicate_succ']
    simp
  | @restarted _ _ _ _ _ g t _ hrecv _ _ _ =>
    intro hst
    have hseg : (g.clearRxSegs.resetAt t).state = .segment := hrecv.state_eq
    rw [hseg] at hst
    cases hst
  | @abandoned _ _ _ _ _ _ _ _ _ g t _ hrecv _ _ _ _ _ =>
    have hseg : (g.clearRxSegs.resetAt t).state = .segment := hrecv.state_eq
    exact leave_idleReset (by simp [hseg])
  | request _ hst _ _ hs => intro hidle; simp [hs.state_eq, hst] at hidle
  | early _ _ _ _ => exact hpre
  | retry _ hne _ _ _ _ hs => intro hidle; exact absurd (hs.state_eq.symm.trans hidle) hne
  | giveUp _ hne _ _ _ _ => exact leave_idleReset hne
  | held _ hst _ _ => intro hidle; exact absurd (hst.symm.trans hidle) (by simp)
  | applied _ hst _ _ hs _ => exact leave_idleReset (by simp [hs.state_eq, hst])
  | applyRefused _ hst _ _ _ _ => exact leave_idleReset (by simp [hst])

/-- **IDLE means reset** in every run in which no verified file fails to be closed. -/
theorem idle_reset {hist : List FtpStep} {f : LlFtp} (h : FtpRun hist f)
    (hC : ∀ st ∈ hist, ¬ ApplyCloseFails st) : IdleReset f :=
  h.always_of hC reinit_idleReset fun _ hv hc hpre => idleReset_step (step_msgStep hv) hc hpre

/-- The smallest file is received and verified, and its close fails: IDLE, with a
segment count. -/
theorem idle_not_reset :
    let inputs := [some tinyInit, some (tinySegment 5)]
    FtpRun (demoHist .neverCloses inputs) (demoEnd .neverCloses inputs) ∧
      ¬ IdleReset (demoEnd .neverCloses inputs) := by
  refine ⟨demo_run (by decide +kernel), fun h => ?_⟩
  have hnum := (h (by decide +kernel)).1
  revert hnum
  decide +kernel

/-- The smallest file sent and applied, and then another one sent and cancelled. -/
theorem idle_reset_tiny :
    let inputs := [some tinyInit, some (tinySegment 5), some tinyApply, some tinyInit,
      some tinyCancel]
    (demoEnd .willing inputs).state = .idle ∧ IdleReset (demoEnd .willing inputs) :=
  ⟨by decide +kernel, idle_reset (demo_run (by decide +kernel)) (by decide +kernel)⟩

/-! ## Downlink mode follows the transfer -/

/-- What a config call sets. -/
def Kind.config : Kind → Option Bool
  | .configOn => some true
  | .configOff => some false
  | _ => none

/-- The argument of the last config call, if there was any. -/
def lastConfig (ks : List Kind) : Option Bool :=
  (ks.filterMap Kind.config).getLast?

/-- The kinds of all calls of a history. -/
def histKinds (hist : List FtpStep) : List Kind :=
  hist.flatMap fun st => kinds st.events

/-- A transfer has switched the downlink on; in IDLE it is not on. -/
def Downlink (hist : List FtpStep) (f : LlFtp) : Prop :=
  (f.state ≠ .idle → lastConfig (histKinds hist) = some true) ∧
    (f.state = .idle → lastConfig (histKinds hist) ≠ some true)

/-- The closes that end a transfer hold: the one that enters APPLY does not fail, and
none in APPLY does. -/
def ClosesHold (st : FtpStep) : Prop :=
  ¬ ApplyCloseFails st ∧ (st.pre.state = .apply → Kind.closeFail ∉ kinds st.events)

instance (st : FtpStep) : Decidable (ClosesHold st) :=
  inferInstanceAs (Decidable (_ ∧ _))

theorem lastConfig_append (ks ks' : List Kind) :
    lastConfig (ks ++ ks') = (lastConfig ks').or (lastConfig ks) := by
  unfold lastConfig
  rw [List.filterMap_append, List.getLast?_append]

/-- Reads set nothing. -/
@[simp] theorem lastConfig_reads (n : Nat) : lastConfig (List.replicate n .read) = none := by
  unfold lastConfig
  rw [List.filterMap_replicate]
  rfl

/-- Receiving a segment and verifying the file sets nothing, so what counts comes after. -/
theorem lastConfig_received (n : Nat) (ks : List Kind) :
    lastConfig ([.gettime, .write] ++ (List.replicate (n + 1) .read ++ ks)) = lastConfig ks := by
  rw [lastConfig_append, lastConfig_append, lastConfig_reads]
  cases lastConfig ks <;> rfl

/-- The last two kinds, read off the reversed list. -/
theorem ends_iff {ks : List Kind} :
    (∃ ks', ks = ks' ++ [.read, .closeFail]) ↔
      ∃ rest, ks.reverse = .closeFail :: .read :: rest := by
  constructor
  · intro h
    obtain ⟨ks', rfl⟩ := h
    exact ⟨ks'.reverse, by simp⟩
  · intro h
    obtain ⟨rest, hrest⟩ := h
    refine ⟨rest.reverse, ?_⟩
    have := congrArg List.reverse hrest
    simpa using this

/-- Before the close that ends a transfer nothing is set, no read comes last, and in
APPLY no close has failed. -/
theorem BeforeEnd.facts {s : State} {ks : List Kind} (h : BeforeEnd s ks) :
    lastConfig ks = none ∧ s ≠ .idle ∧ (∀ rest, ks.reverse ≠ .read :: rest) ∧
      (s = .apply → Kind.closeFail ∉ ks) := by
  cases h with
  | cancel hne => exact ⟨rfl, hne, by simp, by simp⟩
  | giveUp hne => exact ⟨rfl, hne, by simp, by simp⟩
  | applied => exact ⟨rfl, by simp, by simp, by simp⟩
  | applyRefused => exact ⟨rfl, by simp, by simp, by simp⟩
  | @abandoned n ks hks =>
    rcases hks with rfl | rfl
    · exact ⟨lastConfig_received n _, by simp, by simp, by simp⟩
    · exact ⟨lastConfig_received n _, by simp, by simp, by simp⟩

/-- In the skeleton the downlink mode keeps up with the state exactly as long as the
closes hold. -/
theorem shape_config {s s' : State} {ks : List Kind} (h : Shape s ks s') {last : Option Bool}
    (hpre : (s ≠ .idle → last = some true) ∧ (s = .idle → last ≠ some true)) :
    ((s' ≠ .idle → (lastConfig ks).or last = some true) ∧
        (s' = .idle → (lastConfig ks).or last ≠ some true)) ↔
      (¬ ∃ ks', ks = ks' ++ [.read, .closeFail]) ∧ (s = .apply → Kind.closeFail ∉ ks) := by
  rw [ends_iff]
  cases h with
  | nothing s => exact iff_of_true hpre ⟨by simp, by simp⟩
  | begin s => exact iff_of_true ⟨fun _ => rfl, fun hidle => by cases hidle⟩ ⟨by simp, by simp⟩
  | refused s => exact iff_of_true hpre ⟨by simp, by simp⟩
  | look _ => exact iff_of_true hpre ⟨by simp, by simp⟩
  | retry _ => exact iff_of_true hpre ⟨by simp, by simp⟩
  | request => exact iff_of_true hpre ⟨by simp, by simp⟩
  | receive => exact iff_of_true hpre ⟨by simp, by simp⟩
  | verified n =>
    rw [lastConfig_received, show lastConfig [.closeOk, .uplink, .gettime] = none from rfl]
    exact iff_of_true ⟨fun _ => hpre.1 (by simp), fun hidle => by cases hidle⟩ ⟨by simp, by simp⟩
  | stuck n =>
    rw [lastConfig_received, show lastConfig [.closeFail] = none from rfl]
    refine iff_of_false (fun hpost => hpost.2 rfl (hpre.1 (by simp))) fun hC => hC.1 ?_
    rw [List.replicate_succ']
    simp
  | restarted n =>
    rw [lastConfig_received, show lastConfig [.gettime, .closeOk, .openOk] = none from rfl]
    exact iff_of_true ⟨fun _ => hpre.1 (by simp), fun hidle => by cases hidle⟩ ⟨by simp, by simp⟩
  | ended hb =>
    obtain ⟨-, -, -, hno⟩ := hb.facts
    rw [lastConfig_append, show lastConfig [.closeOk, .configOff] = some false from rfl]
    refine iff_of_true ⟨fun hne => absurd rfl hne, fun _ => by simp⟩ ⟨by simp, fun hst => ?_⟩
    simp [hno hst]
  | @endRefused _ ks hb =>
    -- A refused close sets nothing: right as long as SEGMENT is kept, wrong once APPLY is left.
    obtain ⟨hnone, hne, hread, -⟩ := hb.facts
    have hkeep : lastConfig (ks ++ [.closeFail]) = none := by
      rw [lastConfig_append, hnone]
      rfl
    rw [hkeep]
    cases hs : s with
    | idle => exact absurd hs hne
    | segment =>
      refine iff_of_true ⟨fun _ => hpre.1 hne, fun hidle => by cases hidle⟩ ⟨?_, by simp⟩
      intro hex
      obtain ⟨rest, hrest⟩ := hex
      rw [List.reverse_append] at hrest
      simp only [List.reverse_singleton, List.singleton_append, List.cons.injEq, true_and] at hrest
      exact hread rest hrest
    | apply =>
      refine iff_of_false (fun hpost => hpost.2 rfl (hpre.1 hne)) fun hC => hC.2 rfl ?_
      simp

/-- **Downlink mode follows the transfer** all the way along a run if and only if the
closes that end its transfers hold. -/
theorem downlink_iff {hist : List FtpStep} {f : LlFtp} (h : FtpRun hist f) :
    (∀ (i : Nat) (st : FtpStep), hist[i]? = some st → Downlink (hist.take (i + 1)) st.post) ↔
      ∀ st ∈ hist, ClosesHold st := by
  refine h.throughout_iff (P := Downlink) ?_ ?_
  · intro g
    exact ⟨fun hne => absurd rfl hne, fun _ => by simp [histKinds, lastConfig]⟩
  · intro hist st hv hpre
    have happend : histKinds (hist ++ [st]) = histKinds hist ++ kinds st.events := by
      simp [histKinds]
    unfold Downlink
    rw [happend, lastConfig_append]
    exact shape_config (msgStep_shape (step_msgStep hv)) hpre

/-- The same run that leaves IDLE unreset leaves the downlink on. -/
theorem downlink_left_on :
    let inputs := [some tinyInit, some (tinySegment 5)]
    FtpRun (demoHist .neverCloses inputs) (demoEnd .neverCloses inputs) ∧
      ¬ Downlink (demoHist .neverCloses inputs) (demoEnd .neverCloses inputs) := by
  refine ⟨demo_run (by decide +kernel), fun h => h.2 (by decide +kernel) ?_⟩
  decide +kernel

/-- A transfer from `TX_INIT` to `TX_APPLY` with closes that hold. -/
theorem downlink_tiny :
    let hist := demoHist .willing [some tinyInit, some (tinySegment 5), some tinyApply]
    (∀ st ∈ hist, ClosesHold st) ∧
      ((∀ (i : Nat) (st : FtpStep), hist[i]? = some st →
          Downlink (hist.take (i + 1)) st.post) ↔
        ∀ st ∈ hist, ClosesHold st) :=
  ⟨by decide +kernel, downlink_iff (demo_run (by decide +kernel))⟩

end HostInterface.Ftp

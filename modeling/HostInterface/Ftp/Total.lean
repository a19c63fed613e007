import HostInterface.Ftp.Invariants
import HostInterface.Ftp.Request
import HostInterface.Ftp.Tracking
import HostInterface.Interact.Loop

/-!
# Which input leaves its bounds

A fault of the model is an access outside the bitmap or the uplink buffer, or a CRC
loop that never ends. `msgProcess_total_iff` finds the only one left in runs whose
files fit: a segment of the current file with the number `MAX_NUM_SEGMENTS`. Every
other input is processed to its end in every reachable state, whatever the callbacks
answer. A read behind a received message is no fault of the model; with it counted,
a segment shorter than its header is the second such input (`msgProcess_inBounds_iff`).

The lemmas go through the functions of the state machine in the order of their
calls, one for each that can fault at all.
-/

namespace HostInterface.Ftp

open Interact Prog

/-- The sizes and counts with which no loop faults. -/
structure Fits (f : LlFtp) : Prop where
  count : f.numSegs.toNat ≤ 2400
  size : f.fileSize.toNat ≤ 256800

/-- The input is a segment of the object's file with the number `MAX_NUM_SEGMENTS`, in
SEGMENT, where it is tracked. -/
def TracksPast (f : LlFtp) (inp : Option RxBuf) : Prop :=
  ∃ msg, parseRxMsg inp = (.ok, msg) ∧ f.state = .segment ∧ msg.msgType = .txSegment ∧
    isMyFile f msg = true ∧ msg.segmentNumber.toNat = 2400

instance (f : LlFtp) (inp : Option RxBuf) : Decidable (TracksPast f inp) :=
  decidable_of_iff
    ((parseRxMsg inp).1 = .ok ∧ f.state = .segment ∧ (parseRxMsg inp).2.msgType = .txSegment ∧
      isMyFile f (parseRxMsg inp).2 = true ∧ (parseRxMsg inp).2.segmentNumber.toNat = 2400)
    ⟨fun ⟨hok, hrest⟩ => ⟨_, parsed hok, hrest⟩,
      fun ⟨msg, hparse, hrest⟩ => by rw [hparse]; exact ⟨rfl, hrest⟩⟩

theorem Fits.same {f f' : LlFtp} (h : Fits f) (hs : SameCount f f') : Fits f' := by
  refine ⟨?_, ?_⟩
  · rw [hs.numSegs]
    exact h.count
  · rw [hs.fileSize]
    exact h.size

/-! ## The pieces -/

theorem sendAck_total (ack : U8 × LlFtp) : (sendAck ack).Total :=
  fun _ _ => trivial

theorem reset_total (f : LlFtp) : (reset f).Total :=
  fun _ => trivial

theorem idleStart_total (f : LlFtp) : (idleStart f).Total :=
  fun _ => .ite (fun _ _ => trivial) fun _ => trivial

theorem applyStart_total (f : LlFtp) : (applyStart f).Total :=
  fun _ => .ite (fun _ => (sendAck_total _).bind fun _ _ _ => trivial) fun _ => trivial

theorem fileReopen_total (f : LlFtp) : (fileReopen f).Total :=
  fun _ => .ite (fun _ _ => trivial) fun _ => trivial

theorem segmentStart_total (f : LlFtp) (msg : Msg) : (segmentStart f msg).Total := by
  refine fun _ => .ite (fun _ => ?_) fun _ => .ite (fun _ => ?_) fun _ => trivial
  · refine Total.bind ((reset_total f).bind fun _ _ _ => sendAck_total _) fun _ _ _ => ?_
    exact fun _ => trivial
  · exact (sendAck_total _).bind fun _ _ _ => trivial

theorem readChunks_total (f : LlFtp) (cs : List (Nat × Nat)) (crc : U32) :
    (readChunks f cs crc).Total := by
  induction cs generalizing crc with
  | nil => trivial
  | cons c cs ih => exact fun _ => ih _

theorem verifyFileInfo_total (f : LlFtp) : (verifyFileInfo f).Total := by
  unfold verifyFileInfo readWord
  refine fun _ => .ite (fun _ => trivial) fun _ _ => .ite (fun _ => trivial) fun _ _ =>
    .ite (fun _ => trivial) fun _ _ => .ite (fun _ => trivial) fun _ => ?_
  exact .ite (fun _ => trivial) fun _ => trivial

/-- The CRC loop ends for every file that fits. -/
theorem verifyFile_total {f : LlFtp} (h : Fits f) : (verifyFile f).Total := by
  have hsize := h.size
  unfold verifyFile
  refine (verifyFileInfo_total f).bind fun _ _ _ => .ite (fun _ => ?_) fun _ => trivial
  rw [computeFileCrc_eq (by omega)]
  refine Total.bind ((readChunks_total f _ _).bind fun _ _ _ => trivial) fun _ _ _ => ?_
  exact .ite (fun _ => trivial) fun _ => trivial

/-- A repeated uplink faults only if it cannot be built. -/
theorem retryTick_total {f : LlFtp} {generate : LlFtp → Option (U8 × LlFtp)}
    (h : ∃ ack, generate f = some ack) : (retryTick f generate).Total := by
  refine fun _ => .ite (fun _ => .ite (fun _ => ?_) fun _ => trivial) fun _ => trivial
  refine Total.bind (total_ofOption.mpr h) fun _ _ _ => ?_
  exact (sendAck_total _).bind fun _ _ _ => trivial

theorem request_total {f : LlFtp} (h : Fits f) : ∃ ack, ackSegsRequestGenerate f = some ack := by
  obtain ⟨len, g, hreq⟩ := ackSegsRequestGenerate_isSome h.count
  exact ⟨(len, g), hreq⟩

/-- A write is tracked in the array exactly if its number is not the one behind it. -/
theorem writeSegment_total_iff {f : LlFtp} {msg : Msg} :
    (writeSegment f msg).Total ↔ msg.segmentNumber.toNat ≠ 2400 := by
  have hiff : (∃ f', segNumTrack f msg.segmentNumber = some f') ↔
      msg.segmentNumber.toNat ≠ 2400 := segNumTrack_isSome_iff.trans trackedWord_lt_iff
  rw [← hiff]
  constructor
  · intro h
    have hok := h RetCode.ok
    dsimp only at hok
    rw [if_pos rfl] at hok
    exact total_ofOption.mp hok.of_bind_left
  · intro h
    refine fun _ => .ite (fun _ => ?_) fun _ => trivial
    exact Total.bind (total_ofOption.mpr h) fun _ _ _ => trivial

theorem transitionOutOfSegment_total (f : LlFtp) (msg : Msg) (s : State) :
    (transitionOutOfSegment f msg s).Total := by
  cases s with
  | idle => exact (idleStart_total f).bind fun _ _ _ => trivial
  | segment => exact (segmentStart_total f msg).bind fun _ _ _ => trivial
  | apply => exact (applyStart_total f).bind fun _ _ _ => trivial

theorem transitionOutOfApply_total (f : LlFtp) (msg : Msg) (s : State) (isError : Bool) :
    (transitionOutOfApply f msg s isError).Total := by
  unfold transitionOutOfApply
  cases s with
  | idle => exact (idleStart_total f).bind fun _ _ _ => trivial
  | segment => exact (segmentStart_total f msg).bind fun _ _ _ => trivial
  | apply => trivial

/-- Writing a segment changes neither the size nor the count. -/
theorem writeSegment_sameCount {f g : LlFtp} {msg : Msg} {tr : List Ev} {ret : RetCode}
    (h : (writeSegment f msg).Runs tr (ret, g)) : SameCount f g := by
  cases writeSegment_runs h with
  | stored htrack =>
    rw [segNumTrack_frame htrack]
    exact ⟨rfl, rfl⟩
  | failed _ => exact ⟨rfl, rfl⟩

/-- A segment of the current file is processed to the end exactly if it can be tracked. -/
theorem segmentReceive_total_iff {f : LlFtp} {msg : Msg} (h : Fits f) :
    (segmentReceive f msg).Total ↔ msg.segmentNumber.toNat ≠ 2400 := by
  unfold segmentReceive
  constructor
  · intro htotal
    have hreset : (reset f).Runs [⟨.gettime, ⟨0, 0⟩⟩] (f.resetAt ⟨0, 0⟩) :=
      reset_runs.mpr ⟨_, rfl, rfl⟩
    exact writeSegment_total_iff.mp (htotal.of_bind hreset).of_bind_left
  · intro hnum
    refine (reset_total f).bind fun tr f₁ hr => ?_
    refine (writeSegment_total_iff.mpr hnum).bind fun tr' x hw => ?_
    obtain ⟨ret, g⟩ := x
    obtain ⟨t, -, rfl⟩ := reset_runs.mp hr
    have hf : Fits (f.resetAt t) := h.same ⟨rfl, rfl⟩
    have hg : Fits g := hf.same (writeSegment_sameCount hw)
    refine Total.bind (total_ofOption.mpr ⟨_, transferIsComplete_eq hg.count⟩) fun _ _ _ => ?_
    refine .ite (fun _ => ?_) fun _ => trivial
    refine (verifyFile_total hg).bind fun _ _ _ => .ite (fun _ => trivial) fun _ => ?_
    refine (reset_total _).bind fun _ _ _ => ?_
    exact (fileReopen_total _).bind fun _ _ _ => trivial

/-! ## The handlers -/

theorem idleProcessMsg_total (f : LlFtp) (inp : Option RxBuf) : (idleProcessMsg f inp).Total := by
  unfold idleProcessMsg
  refine .ite (fun _ => trivial) fun _ => .ite (fun _ => trivial) fun _ => ?_
  exact (segmentStart_total f _).bind fun _ _ _ => trivial

/-- APPLY has nothing to track and nothing to list. -/
theorem applyProcessMsg_total (f : LlFtp) (inp : Option RxBuf) : (applyProcessMsg f inp).Total := by
  unfold applyProcessMsg
  refine .ite (fun _ => trivial) fun _ => Total.bind ?_ fun _ x _ => ?_
  · unfold applyHandleMsg
    split
    next => trivial
    next => trivial
    next => exact .ite (fun _ => (reset_total f).bind fun _ _ _ => trivial) fun _ => trivial
    next =>
      refine .ite (fun _ _ => .ite (fun _ => ?_) fun _ => trivial) fun _ => trivial
      exact (sendAck_total _).bind fun _ _ _ => trivial
    next => exact retryTick_total ⟨_, rfl⟩
    next => trivial
  · obtain ⟨ret, next, g⟩ := x
    cases next with
    | none => trivial
    | some s => exact transitionOutOfApply_total g _ s _

theorem segmentProcessMsg_total_iff {f : LlFtp} {inp : Option RxBuf} (h : Fits f)
    (hst : f.state = .segment) : (segmentProcessMsg f inp).Total ↔ ¬ TracksPast f inp := by
  unfold segmentProcessMsg
  cases hparse : parseRxMsg inp with
  | mk pret msg =>
    dsimp only
    by_cases hok : pret = .ok
    · subst hok
      rw [if_neg (by simp)]
      -- What is behind the handler never faults, so the handler decides.
      have hhandle : (segmentHandleMsg f msg).Total ↔ ¬ TracksPast f inp := by
        have hpast : TracksPast f inp ↔
            msg.msgType = .txSegment ∧ isMyFile f msg = true ∧ msg.segmentNumber.toNat = 2400 := by
          unfold TracksPast
          constructor
          · rintro ⟨msg', hp, -, hrest⟩
            rw [hparse, Prod.mk.injEq] at hp
            rw [hp.2]
            exact hrest
          · intro hrest
            exact ⟨msg, hparse, hst, hrest⟩
        rw [hpast]
        unfold segmentHandleMsg
        split
        next hty => exact iff_of_true trivial (by simp [hty])
        next hty => exact iff_of_true trivial (by simp [hty])
        next hty =>
          by_cases hmine : isMyFile f msg = true
          · rw [if_pos hmine, segmentReceive_total_iff h]
            simp [hty, hmine]
          · rw [if_neg hmine]
            exact iff_of_true trivial (by simp [hmine])
        next hty =>
          refine iff_of_true ?_ (by simp [hty])
          refine Total.bind (total_ofOption.mpr (request_total h)) fun _ _ _ => ?_
          exact (sendAck_total _).bind fun _ _ _ => trivial
        next hty => exact iff_of_true (retryTick_total (request_total h)) (by simp [hty])
        next _ _ hseg _ _ => exact iff_of_true trivial fun hrest => hseg hrest.1
      rw [← hhandle]
      refine ⟨fun htotal => htotal.of_bind_left, fun htotal => htotal.bind fun _ x _ => ?_⟩
      obtain ⟨ret, next, g⟩ := x
      cases next with
      | none => trivial
      | some s => exact transitionOutOfSegment_total g _ s
    · rw [if_pos hok]
      refine iff_of_true trivial ?_
      rintro ⟨msg', hp, -⟩
      rw [hparse, Prod.mk.injEq] at hp
      exact hok hp.1

/-! ## Runs -/

/-- Files that fit are transferred with counts that fit. -/
theorem fits_run {hist : List FtpStep} {f : LlFtp} (h : FtpRun hist f)
    (hfit : ∀ st ∈ hist, OpensFit st) (hne : f.state ≠ .idle) : Fits f := by
  have hcount : SegCount f :=
    h.always_of hfit (fun _ hst => absurd rfl hst) fun st hv hC hpre =>
      (segCount_step hv hpre).mpr hC
  obtain ⟨hnum, hmax, -⟩ := hcount hne
  have hmax' : f.numSegs.toNat ≤ 2400 := hmax
  unfold ceilSegs at hnum
  exact ⟨hmax', by omega⟩

/-- **Which input faults.** In every state reached by a run whose files fit, an input is
processed to its end, without an access outside an array and whatever the callbacks
answer, exactly if it is not a segment of the current file numbered
`MAX_NUM_SEGMENTS` that arrives in SEGMENT. -/
theorem msgProcess_total_iff {hist : List FtpStep} {f : LlFtp} (h : FtpRun hist f)
    (hfit : ∀ st ∈ hist, OpensFit st) (inp : Option RxBuf) :
    (msgProcess f inp).Total ↔ ¬ TracksPast f inp := by
  have hnot : f.state ≠ .segment → ¬ TracksPast f inp := by
    rintro hne ⟨-, -, hst, -⟩
    exact hne hst
  unfold msgProcess
  cases hst : f.state with
  | idle => exact iff_of_true (idleProcessMsg_total f inp) (hnot (by simp [hst]))
  | segment =>
    exact segmentProcessMsg_total_iff (fits_run h hfit (by simp [hst])) hst
  | apply => exact iff_of_true (applyProcessMsg_total f inp) (hnot (by simp [hst]))

/-- What `OpensFit` asks of one call. -/
def openFits : Ev → Bool
  | ⟨.open _ _ size, _⟩ => decide (size.toNat ≤ 256800)
  | _ => true

/-- Nothing is accessed out of bounds: the bitmap and the uplink buffer, the bytes the parser
reads of a message, and those the write callback is given of it. -/
structure InBounds (f : LlFtp) (inp : Option RxBuf) : Prop where
  total : (msgProcess f inp).Total
  reads : ∀ b, inp = some b → ∀ i ∈ parseReads b, i < b.len.toNat
  writes : ∀ b, inp = some b → (msgProcess f inp).Only (WritesFrom b)

/-- **Which input leaves its bounds.** In every state reached by a run whose files fit, an input
is processed to its end without an access out of bounds, whatever the callbacks answer, exactly
if it is neither a segment of the current file numbered `MAX_NUM_SEGMENTS` that arrives in
SEGMENT nor a segment shorter than its header. -/
theorem msgProcess_inBounds_iff {hist : List FtpStep} {f : LlFtp} (h : FtpRun hist f)
    (hfit : ∀ st ∈ hist, OpensFit st) (inp : Option RxBuf) :
    InBounds f inp ↔ ¬ TracksPast f inp ∧ ∀ b, inp = some b → ¬ CutHeader b := by
  have htotal := msgProcess_total_iff h hfit inp
  constructor
  · intro hin
    exact ⟨htotal.mp hin.total, fun b hb => (parseReads_inside_iff b).mp (hin.reads b hb)⟩
  · rintro ⟨hpast, hcut⟩
    refine ⟨htotal.mpr hpast, fun b hb => (parseReads_inside_iff b).mpr (hcut b hb), ?_⟩
    rintro b rfl
    -- A segment that is written from behind the message has its header cut.
    refine ((payload_inside_iff f b).mpr fun hshort => ?_).2
    obtain ⟨h3, hlong, hlt, -⟩ := hshort
    exact hcut b rfl ⟨h3, hlong, hlt⟩

/-- The segment numbered 2400 of the smallest file: the state behind its announcement has
no end for it. A segment of 17 bytes is no better. -/
theorem msgProcess_inBounds_tiny :
    let f := demoEnd .willing [some tinyInit]
    let inp := some (fileMsg 3 7 1 1 (le16 2400 ++ le16 1 ++ tinyImage 5))
    let cut := fileMsg 3 7 1 1 []
    TracksPast f inp ∧ CutHeader cut ∧
      (InBounds f inp ↔ ¬ TracksPast f inp ∧ ∀ b, inp = some b → ¬ CutHeader b) ∧
      (InBounds f (some cut) ↔
        ¬ TracksPast f (some cut) ∧ ∀ b, some cut = some b → ¬ CutHeader b) := by
  intro f inp cut
  have hopens : ∀ st ∈ demoHist .willing [some tinyInit], ∀ ev ∈ st.events,
      openFits ev = true := by decide +kernel
  have hfit : ∀ st ∈ demoHist .willing [some tinyInit], OpensFit st := by
    intro st hst id version size hmem
    exact of_decide_eq_true (hopens st hst _ hmem)
  have hrun : FtpRun (demoHist .willing [some tinyInit]) f := demo_run (by decide +kernel)
  exact ⟨by decide +kernel, ⟨by decide +kernel, by decide +kernel, by decide +kernel⟩,
    msgProcess_inBounds_iff hrun hfit inp, msgProcess_inBounds_iff hrun hfit (some cut)⟩

end HostInterface.Ftp

import HostInterface.Ftp.Apply
import HostInterface.Ftp.Delivery
import HostInterface.Ftp.Files

/-!
# Many files over one channel

A sender publishes images (`Catalogue`, no two under one id and version) and their
messages reach the device as the channel likes: lost, repeated, late, those of
different files mixed, with garbage the parser refuses and ticks in between
(`Genuine`). The callbacks may answer anything, so transfers are also refused,
interrupted, given up and begun again.

`contents` is what the callbacks have been told to store: the bytes of the writes
that succeeded since the file was last opened. `Kept` is the invariant: no byte is
in the wrong place of any published file, and in a transfer the slots of the
tracked segments are there. `published_applied` is what follows for the apply
callback.
-/

namespace HostInterface.Ftp

open Interact Prog

/-- The published images. An id and a version name one of them at most. -/
structure Catalogue where
  has : Image → Prop
  unique : ∀ I J, has I → has J → I.fileId = J.fileId → I.fileVersion = J.fileVersion → I = J

/-- What can reach the device: a tick or a message that begins nothing and carries
nothing, a buffer the parser refuses, and the announcements and segments of the
published images. -/
inductive Genuine (cat : Catalogue) (inp : Option RxBuf) : Prop
  | refused : (parseRxMsg inp).1 ≠ .ok → Genuine cat inp
  | other : (parseRxMsg inp).2.msgType ≠ .txInit → (parseRxMsg inp).2.msgType ≠ .txSegment →
      Genuine cat inp
  | init {I : Image} {b : RxBuf} : inp = some b → cat.has I → InitOf I b → Genuine cat inp
  | segment {I : Image} {b : RxBuf} : inp = some b → cat.has I → SegmentOf I b →
      (parseRxMsg (some b)).2.fileSize = I.fileSize → Genuine cat inp

/-! ## What has been stored -/

/-- The bytes of each file, by id, version and offset; `none` where nothing has been
written since the file was last opened. -/
abbrev Contents := U32 → U32 → Nat → Option U8

/-- Other bytes of one file. -/
def Contents.setFile (c : Contents) (id version : U32) (new : Nat → Option U8) : Contents :=
  fun id' version' => if id' = id ∧ version' = version then new else c id' version'

@[simp] theorem contents_setFile (c : Contents) (id version : U32) (new : Nat → Option U8) :
    c.setFile id version new id version = new := by
  simp [Contents.setFile]

theorem contents_setFile_ne {c : Contents} {id version id' version' : U32}
    {new : Nat → Option U8} (h : ¬ (id' = id ∧ version' = version)) :
    c.setFile id version new id' version' = c id' version' := if_neg h

/-- The bytes `c` with `len` bytes of `payload` written at `offset`. -/
def putSome (c : Nat → Option U8) (offset : Nat) (payload : Ptr) (len : Nat) : Nat → Option U8 :=
  fun i =>
    if offset ≤ i ∧ i < offset + len then some (payload.mem (payload.off + (i - offset))) else c i

/-- One call: a file that has been opened is empty, a write that succeeded is there. -/
def contentsStep (c : Contents) : Ev → Contents
  | ⟨.open id version _, r⟩ => if r = RetCode.ok then c.setFile id version fun _ => none else c
  | ⟨.write id version offset payload len, r⟩ =>
    if r = RetCode.ok then
      c.setFile id version (putSome (c id version) offset.toNat payload len.toNat)
    else c
  | _ => c

/-- What the calls make of the bytes. -/
def contentsFrom (c : Contents) (evs : List Ev) : Contents := evs.foldl contentsStep c

/-- What the calls have stored. -/
def contents (evs : List Ev) : Contents := contentsFrom (fun _ _ _ => none) evs

@[simp] theorem contentsFrom_nil (c : Contents) : contentsFrom c [] = c := rfl

@[simp] theorem contentsFrom_cons (c : Contents) (ev : Ev) (evs : List Ev) :
    contentsFrom c (ev :: evs) = contentsFrom (contentsStep c ev) evs := rfl

@[simp] theorem contentsFrom_append (c : Contents) (evs evs' : List Ev) :
    contentsFrom c (evs ++ evs') = contentsFrom (contentsFrom c evs) evs' := List.foldl_append

theorem contents_append (evs evs' : List Ev) :
    contents (evs ++ evs') = contentsFrom (contents evs) evs' := contentsFrom_append _ _ _

theorem contentsStep_opened (c : Contents) (id version size : U32) :
    contentsStep c ⟨.open id version size, RetCode.ok⟩ = c.setFile id version fun _ => none := by
  simp [contentsStep]

theorem contentsStep_written (c : Contents) (id version offset : U32) (payload : Ptr) (len : U16) :
    contentsStep c ⟨.write id version offset payload len, RetCode.ok⟩ =
      c.setFile id version (putSome (c id version) offset.toNat payload len.toNat) := by
  simp [contentsStep]

theorem contentsStep_failed {c : Contents} {id version offset : U32} {payload : Ptr} {len : U16}
    {r : RetCode} (h : r ≠ .ok) :
    contentsStep c ⟨.write id version offset payload len, r⟩ = c := if_neg h

/-- A call of a kind that leaves every byte as it is. -/
def Kind.inert : Kind → Bool
  | .openOk => false
  | .write => false
  | _ => true

theorem contentsStep_inert {c : Contents} {ev : Ev} (h : (kind ev).inert = true) :
    contentsStep c ev = c := by
  obtain ⟨e, r⟩ := ev
  cases e with
  | «open» id version size =>
    by_cases hr : r = RetCode.ok
    · subst hr
      simp [Kind.inert] at h
    · exact if_neg hr
  | write id version offset payload len => cases h
  | read id version offset len => rfl
  | close id version => rfl
  | apply id version size => rfl
  | uplink buf acked port maxPort => rfl
  | config downlinkOn => rfl
  | gettime => rfl

theorem contentsFrom_inert {c : Contents} {evs : List Ev}
    (h : (kinds evs).all Kind.inert = true) : contentsFrom c evs = c := by
  induction evs with
  | nil => rfl
  | cons ev evs ih =>
    rw [kinds_cons, List.all_cons, Bool.and_eq_true] at h
    rw [contentsFrom_cons, contentsStep_inert h.1]
    exact ih h.2

/-! ## The pieces of a step that store nothing -/

theorem Sent.inert {f f' : LlFtp} {ack : U8 × LlFtp} {tr : List Ev} (h : Sent f ack tr f')
    (c : Contents) : contentsFrom c tr = c :=
  contentsFrom_inert (by rw [h.kinds_eq]; rfl)

theorem Closes.inert {f : LlFtp} {tr : List Ev} {ret : RetCode} (h : Closes f tr ret)
    (c : Contents) : contentsFrom c tr = c := by
  refine contentsFrom_inert ?_
  rcases h.kinds_eq with ⟨-, hk⟩ | ⟨-, hk⟩ <;> rw [hk] <;> rfl

theorem verify_inert {f : LlFtp} {tr : List Ev} {ret : RetCode} (h : Runs (verifyFile f) tr ret)
    (c : Contents) : contentsFrom c tr = c := by
  obtain ⟨n, hn⟩ := verify_kinds h
  refine contentsFrom_inert ?_
  rw [hn]
  simp [Kind.inert]

theorem ReopenFails.inert {f : LlFtp} {tr : List Ev} {ret : RetCode} (h : ReopenFails f tr ret)
    (c : Contents) : contentsFrom c tr = c := by
  refine contentsFrom_inert ?_
  rcases h.kinds_eq with hk | hk <;> rw [hk] <;> rfl

/-! ## The invariant -/

/-- No byte of a published file is stored in the wrong place. -/
def Contents.Agrees (cat : Catalogue) (c : Contents) : Prop :=
  ∀ I, cat.has I → ∀ i x, c I.fileId I.fileVersion i = some x → x = I.bytes i

/-- The object transfers `I`, and `c` are the bytes of its file: the slots of the
tracked segments are there, in APPLY all of the image. -/
structure Transfers (I : Image) (f : LlFtp) (c : Nat → Option U8) : Prop where
  id : f.fileId = I.fileId
  version : f.fileVersion = I.fileVersion
  size : f.fileSize = I.fileSize
  count : f.numSegs.toNat = I.count
  stored : ∀ k, k < I.count → segBit f.rxSegs k = true →
    ∀ i, 107 * k ≤ i → i < I.slotEnd k → c i = some (I.bytes i)
  whole : f.state = .apply → ∀ i, i < I.length → c i = some (I.bytes i)

/-- What every step with genuine input keeps. -/
structure Kept (cat : Catalogue) (f : LlFtp) (c : Contents) : Prop where
  agrees : c.Agrees cat
  transfers : f.state ≠ .idle →
    ∃ I, cat.has I ∧ Transfers I f (c I.fileId I.fileVersion)

section Steps

variable {cat : Catalogue} {f f' : LlFtp} {inp : Option RxBuf} {msg : Msg} {c : Contents}
  {tr : List Ev} {ret : RetCode}

/-- An accepted message that can begin a transfer names a published image. -/
theorem Genuine.names (h : Genuine cat inp) (hparse : parseRxMsg inp = (.ok, msg))
    (hty : msg.msgType = .txInit ∨ msg.msgType = .txSegment) :
    ∃ I, cat.has I ∧ msg.fileId = I.fileId ∧ msg.fileVersion = I.fileVersion ∧
      msg.fileSize = I.fileSize := by
  cases h with
  | refused hne => exact absurd (by rw [hparse]) hne
  | other hinit hseg =>
    rw [hparse] at hinit hseg
    exact absurd hty (not_or.mpr ⟨hinit, hseg⟩)
  | @init I b hb hI h =>
    subst hb
    have hid := h.id
    have hversion := h.version
    have hsize := h.size
    rw [hparse] at hid hversion hsize
    exact ⟨I, hI, hid, hversion, hsize⟩
  | @segment I b hb hI h hsize =>
    subst hb
    have hid := h.id
    have hversion := h.version
    rw [hparse] at hid hversion hsize
    exact ⟨I, hI, hid, hversion, hsize⟩

/-- An accepted segment is one of a published image. -/
theorem Genuine.carries (h : Genuine cat inp) (hparse : parseRxMsg inp = (.ok, msg))
    (hty : msg.msgType = .txSegment) :
    ∃ I b, inp = some b ∧ cat.has I ∧ SegmentOf I b := by
  cases h with
  | refused hne => exact absurd (by rw [hparse]) hne
  | other _ hseg =>
    rw [hparse] at hseg
    exact absurd hty hseg
  | init hb _ h =>
    subst hb
    have hinit := h.type
    rw [hparse, hty] at hinit
    cases hinit
  | segment hb hI h _ => exact ⟨_, _, hb, hI, h⟩

/-- A transfer does not depend on the buffer, the clock and the retry counter. -/
theorem Kept.same (h : Kept cat f c) (hst : f'.state = f.state) (hid : f'.fileId = f.fileId)
    (hversion : f'.fileVersion = f.fileVersion) (hsize : f'.fileSize = f.fileSize)
    (hnum : f'.numSegs = f.numSegs) (hrx : f'.rxSegs = f.rxSegs) : Kept cat f' c := by
  refine ⟨h.agrees, fun hne => ?_⟩
  rw [hst] at hne
  obtain ⟨I, hI, ht⟩ := h.transfers hne
  refine ⟨I, hI, hid.trans ht.id, hversion.trans ht.version, hsize.trans ht.size, ?_, ?_, ?_⟩
  · rw [hnum]
    exact ht.count
  · rw [hrx]
    exact ht.stored
  · rw [hst]
    exact ht.whole

theorem Kept.sent {ack : U8 × LlFtp} (h : Kept cat f c) (hs : Sent f ack tr f') :
    Kept cat f' c := by
  obtain ⟨r, t, -, rfl⟩ := hs
  exact h.same rfl rfl rfl rfl rfl rfl

/-- In IDLE nothing is asked of the object. -/
theorem Kept.idle (h : c.Agrees cat) (hst : f.state = .idle) : Kept cat f c :=
  ⟨h, fun hne => absurd hst hne⟩

theorem Kept.leave (h : Kept cat f c) (ret : RetCode) : Kept cat (f.leave ret) c := by
  unfold LlFtp.leave
  split
  next => exact .idle h.agrees rfl
  next => exact h

/-- An opened file is empty, so no byte of it is wrong. -/
theorem Contents.Agrees.opened (h : c.Agrees cat) (id version : U32) :
    (c.setFile id version fun _ => none).Agrees cat := by
  intro I hI i x hx
  by_cases hsame : I.fileId = id ∧ I.fileVersion = version
  · obtain ⟨rfl, rfl⟩ := hsame
    rw [contents_setFile] at hx
    cases hx
  · rw [contents_setFile_ne hsame] at hx
    exact h I hI i x hx

/-- A cleared bitmap promises nothing. -/
theorem Transfers.cleared {I : Image} {d : Nat → Option U8} (hst : f.state = .segment)
    (hid : f.fileId = I.fileId) (hversion : f.fileVersion = I.fileVersion)
    (hsize : f.fileSize = I.fileSize) (hnum : f.numSegs.toNat = I.count)
    (hrx : f.rxSegs = Vector.replicate 75 0) : Transfers I f d := by
  refine ⟨hid, hversion, hsize, hnum, ?_, ?_⟩
  · intro k _ hbit
    rw [hrx, segBit_replicate] at hbit
    cases hbit
  · intro happly
    rw [hst] at happly
    cases happly

/-- A transfer begins, or it is refused and everything stays. -/
theorem Kept.begins (h : Kept cat f c) (hgen : Genuine cat inp)
    (hparse : parseRxMsg inp = (.ok, msg)) (hs : StartsTransfer f msg)
    (hb : Begins f msg tr ret f') : Kept cat f' (contentsFrom c tr) := by
  cases hb with
  | @accepted t ts r f' hsent =>
    obtain ⟨I, hI, hid, hversion, hsize⟩ := hgen.names hparse hs.type
    have hcount := I.count_bounds
    have hcontents : contentsFrom c
        (⟨.open msg.fileId msg.fileVersion msg.fileSize, RetCode.ok⟩ :: ⟨.gettime, t⟩ ::
          (ts ++ [⟨.config true, r⟩])) =
        c.setFile msg.fileId msg.fileVersion fun _ => none := by
      rw [contentsFrom_cons, contentsStep_opened, contentsFrom_cons, contentsStep_inert rfl,
        contentsFrom_append, hsent.inert]
      rfl
    rw [hcontents]
    obtain ⟨r, t', -, rfl⟩ := hsent
    refine ⟨h.agrees.opened _ _, fun _ => ⟨I, hI, .cleared rfl hid hversion hsize ?_ rfl⟩⟩
    show (BitVec.ofNat 16 (ceilSegs msg.fileSize.toNat)).toNat = I.count
    rw [hsize, BitVec.toNat_ofNat]
    show I.count % 65536 = I.count
    omega
  | refused hne hsent =>
    rw [contentsFrom_cons, contentsStep_inert (by rw [kind_open_fail hne]; rfl), hsent.inert]
    exact h.sent hsent

/-- What a write of a genuine segment stores is its slot. -/
theorem putSome_slot {I : Image} {b : RxBuf} {d : Nat → Option U8} (hb : SegmentOf I b) (i : Nat) :
    putSome d ((parseRxMsg (some b)).2.segmentNumber.setWidth 32 * 107 : U32).toNat
        (parseRxMsg (some b)).2.payload (parseRxMsg (some b)).2.payloadLen.toNat i =
      if 107 * segNum b ≤ i ∧ i < I.slotEnd (segNum b) then some (I.bytes i) else d i := by
  have hend : I.slotEnd (segNum b) ≤ 107 * segNum b + 107 := Nat.min_le_left ..
  have hoff : ((parseRxMsg (some b)).2.segmentNumber.setWidth 32 * 107 : U32).toNat =
      107 * segNum b := segment_offset _
  have hlen := hb.len
  unfold putSome
  rw [hoff]
  by_cases hin : 107 * segNum b ≤ i ∧ i < I.slotEnd (segNum b)
  · rw [if_pos hin, if_pos (by omega), hb.payload _ (by omega),
      show 107 * segNum b + (i - 107 * segNum b) = i by omega]
  · rw [if_neg hin, if_neg (by omega)]

/-- **A segment arrives.** It belongs to the image of the transfer, and what is written
of it is its slot. -/
theorem Kept.receives {g : LlFtp} (h : Kept cat f c) (hgen : Genuine cat inp)
    (hparse : parseRxMsg inp = (.ok, msg)) (hr : Receives f msg tr ret g) :
    Kept cat g (contentsFrom c tr) := by
  obtain ⟨I, hI, ht⟩ := h.transfers (by rw [hr.state]; simp)
  obtain ⟨J, b, rfl, hJ, hb⟩ := hgen.carries hparse hr.type
  have hmsg : msg = (parseRxMsg (some b)).2 := by rw [hparse]
  subst hmsg
  have hfile := isMyFile_iff.mp hr.mine
  -- The file of the transfer has one image, so the segment is one of it.
  obtain rfl : J = I := cat.unique J I hJ hI
    (hb.id.symm.trans (hfile.1.trans ht.id)) (hb.version.symm.trans (hfile.2.trans ht.version))
  obtain ⟨t, trw, rfl, hw⟩ := hr.write
  rw [contentsFrom_cons, show contentsStep c ⟨.gettime, t⟩ = c from rfl]
  cases hw with
  | failed hne =>
    rw [contentsFrom_cons, contentsFrom_nil, contentsStep_failed hne]
    exact h.same rfl rfl rfl rfl rfl rfl
  | @stored g htrack =>
    rw [contentsFrom_cons, contentsFrom_nil, contentsStep_written]
    have hcount := J.count_bounds
    have hnum : (parseRxMsg (some b)).2.segmentNumber.toNat < 2400 :=
      Nat.lt_of_lt_of_le hb.num hcount.2
    have hframe := segNumTrack_frame htrack
    rw [hb.id, hb.version]
    refine ⟨?_, fun _ => ⟨J, hJ, ?_⟩⟩
    · intro K hK i x hx
      by_cases hsame : K.fileId = J.fileId ∧ K.fileVersion = J.fileVersion
      · obtain rfl := cat.unique K J hK hJ hsame.1 hsame.2
        rw [contents_setFile, putSome_slot hb] at hx
        split at hx
        next => exact (Option.some.inj hx).symm
        next => exact h.agrees K hK i x hx
      · rw [contents_setFile_ne hsame] at hx
        exact h.agrees K hK i x hx
    · rw [contents_setFile]
      refine ⟨?_, ?_, ?_, ?_, ?_, ?_⟩
      · rw [hframe]
        exact ht.id
      · rw [hframe]
        exact ht.version
      · rw [hframe]
        exact ht.size
      · rw [hframe]
        exact ht.count
      · intro k hk hbit i hlo hhi
        rw [putSome_slot hb]
        rw [segNumTrack_bit hnum htrack (by omega), Bool.or_eq_true, decide_eq_true_eq] at hbit
        split
        next => rfl
        next hout =>
          rcases hbit with hbit | rfl
          · exact ht.stored k hk hbit i hlo hhi
          · exact absurd ⟨hlo, hhi⟩ hout
      · intro happly
        rw [hframe] at happly
        exact absurd (hr.state.symm.trans happly) (by simp)

/-- A complete bitmap means the whole image. -/
theorem Transfers.complete {I : Image} {d : Nat → Option U8} (h : Transfers I f d)
    (hcomp : transferIsComplete f = some true) {i : Nat} (hi : i < I.length) :
    d i = some (I.bytes i) := by
  have hcount := I.count_bounds
  have hcarried : I.length ≤ 107 * I.count := I.carried
  have hbits := (transferIsComplete_true_iff (f := f) (by rw [h.count]; exact hcount.2)).mp hcomp
  refine h.stored (i / 107) (by omega) (hbits _ (by rw [h.count]; omega)) i (by omega) ?_
  unfold Image.slotEnd
  omega

/-- What is left of a transfer whose bitmap is cleared. -/
theorem Kept.clear (h : Kept cat f c) (hst : f.state = .segment) (t : Time) :
    Kept cat (f.clearRxSegs.resetAt t) c := by
  obtain ⟨I, hI, ht⟩ := h.transfers (by rw [hst]; simp)
  exact ⟨h.agrees, fun _ => ⟨I, hI, .cleared hst ht.id ht.version ht.size ht.count rfl⟩⟩

/-- **One step** with genuine input keeps the invariant, whatever the callbacks answer. -/
theorem Kept.step (h : Kept cat f c) (hgen : Genuine cat inp) (hm : MsgStep f inp tr ret f') :
    Kept cat f' (contentsFrom c tr) := by
  cases hm with
  | rejected _ _ => exact h
  | ignored _ _ => exact h
  | start hparse hs hb => exact h.begins hgen hparse hs hb
  | cancel _ _ _ _ hcl =>
    rw [hcl.inert]
    exact h.leave ret
  | incomplete hparse hr _ => exact h.receives hgen hparse hr
  | @verified _ trs tv ts _ g g' hparse hr hcomp hv hs =>
    have hg := h.receives hgen hparse hr
    rw [contentsFrom_append, contentsFrom_append, verify_inert hv, contentsFrom_cons,
      contentsStep_inert rfl, hs.inert]
    obtain ⟨I, hI, ht⟩ := hg.transfers (by rw [hr.state_eq]; simp)
    obtain ⟨r, t, -, rfl⟩ := hs
    exact ⟨hg.agrees, fun _ => ⟨I, hI, ht.id, ht.version, ht.size, ht.count, ht.stored,
      fun _ i hi => ht.complete hcomp hi⟩⟩
  | stuck hparse hr _ hv hne =>
    have hg := h.receives hgen hparse hr
    rw [contentsFrom_append, contentsFrom_append, verify_inert hv, contentsFrom_cons,
      contentsStep_inert (by rw [kind_close_fail hne]; rfl)]
    exact .idle hg.agrees rfl
  | @restarted _ _ _ _ _ g t hparse hr _ hv _ =>
    have hg := h.receives hgen hparse hr
    rw [contentsFrom_append, contentsFrom_append, verify_inert hv, contentsFrom_cons,
      contentsStep_inert rfl, contentsFrom_cons, contentsStep_inert rfl, contentsFrom_cons,
      contentsFrom_nil, contentsStep_opened]
    obtain ⟨I, hI, ht⟩ := hg.transfers (by rw [hr.state_eq]; simp)
    exact ⟨hg.agrees.opened _ _, fun _ =>
      ⟨I, hI, .cleared hr.state_eq ht.id ht.version ht.size ht.count rfl⟩⟩
  | @abandoned _ _ _ _ _ _ _ _ _ g t hparse hr _ hv _ hfail hcl =>
    have hg := h.receives hgen hparse hr
    rw [contentsFrom_append, contentsFrom_append, verify_inert hv, contentsFrom_cons,
      contentsFrom_append, contentsStep_inert rfl, hfail.inert, hcl.inert]
    exact (hg.clear hr.state_eq t).leave ret
  | request _ _ _ _ hs =>
    rw [hs.inert]
    exact h.sent hs
  | early _ _ _ _ => exact h
  | retry _ _ _ _ _ _ hs =>
    rw [contentsFrom_cons, contentsStep_inert rfl, hs.inert]
    exact (h.sent hs).same rfl rfl rfl rfl rfl rfl
  | giveUp _ _ _ _ _ hcl =>
    rw [contentsFrom_cons, contentsStep_inert rfl, hcl.inert]
    exact h.leave ret
  | held _ _ _ _ => exact h.same rfl rfl rfl rfl rfl rfl
  | applied _ _ _ _ hs hcl =>
    rw [contentsFrom_cons, contentsStep_inert rfl, contentsFrom_append, hs.inert, hcl.inert]
    exact (h.sent hs).leave ret
  | applyRefused _ _ _ _ _ hcl =>
    rw [contentsFrom_cons, contentsStep_inert rfl, hcl.inert]
    exact h.leave _

end Steps

/-! ## Runs -/

/-- The inputs of a demonstration are those it was given. -/
theorem demo_input {p : Policy} {inputs : List (Option RxBuf)} {st : FtpStep}
    (h : (demo p inputs).isSome = true) (hst : st ∈ demoHist p inputs) : st.input ∈ inputs := by
  obtain ⟨⟨hist, f, w⟩, hx⟩ := Option.isSome_iff_exists.mp h
  unfold demoHist at hst
  rw [hx] at hst
  rw [← execAll_inputs hx]
  exact List.mem_map_of_mem hst

/-- The messages of an image say its size. -/
theorem Image.segmentMsg_size (I : Image) (k : Nat) :
    (parseRxMsg (some (I.segmentMsg k))).2.fileSize = I.fileSize := by
  have hslot := I.slot_length k
  obtain ⟨msg, hparse, -, -, -, hsize⟩ :=
    @fileMsg_parsed 3 I.fileId I.fileVersion I.fileSize
      (le16 (BitVec.ofNat 16 k) ++ (le16 (BitVec.ofNat 16 I.count) ++ I.slot k)) .txSegment
      (by simp only [le16, List.length_append, List.length_cons, List.length_nil]; omega) rfl
  unfold segmentMsg
  rw [hparse]
  exact hsize

variable {cat : Catalogue} {hist : List FtpStep} {f : LlFtp}

/-- The invariant holds along every run with genuine inputs. -/
theorem kept (h : FtpRun hist f) (hgen : ∀ st ∈ hist, Genuine cat st.input) :
    Kept cat f (contents (allEvents hist)) := by
  refine h.invariant (P := fun hist f => (∀ st ∈ hist, Genuine cat st.input) →
    Kept cat f (contents (allEvents hist))) ?_ ?_ hgen
  · intro g _
    exact .idle (fun _ _ _ _ hx => by cases hx) rfl
  · intro hist st hv ih hgen
    have hpre := ih fun st' hst' => hgen st' (List.mem_append_left _ hst')
    have hevents : allEvents (hist ++ [st]) = allEvents hist ++ st.events := by
      simp [allEvents]
    rw [hevents, contents_append]
    exact hpre.step (hgen st (by simp)) (step_msgStep hv)

/-- **Only published files are applied.** Whatever the channel does with the messages of
the published images and whatever the callbacks answer: no byte is ever stored in the
wrong place of a published file, and each apply call names a published image, all of
which has been stored since its file was last opened. -/
theorem published_applied (h : FtpRun hist f) (hgen : ∀ st ∈ hist, Genuine cat st.input) :
    (∀ I, cat.has I → ∀ i x,
      contents (allEvents hist) I.fileId I.fileVersion i = some x → x = I.bytes i) ∧
    ∀ j id version size before, ApplyAt hist j id version size before →
      ∃ I, cat.has I ∧ I.fileId = id ∧ I.fileVersion = version ∧ I.fileSize = size ∧
        ∀ i, i < I.length →
          contents (allEvents (hist.take j) ++ before) id version i = some (I.bytes i) := by
  refine ⟨(kept h hgen).agrees, ?_⟩
  intro j id version size before hap
  obtain ⟨rfl, -⟩ := apply_rests h hap
  obtain ⟨st, r, after, hj, hev⟩ := hap
  obtain ⟨hrun, hv⟩ := h.at_pos hj
  have hpre := kept hrun fun st' hst' => hgen st' (List.mem_of_mem_take hst')
  obtain ⟨hst, r', rest, htr, -⟩ := apply_call (step_msgStep hv) (by rw [hev]; simp)
  rw [htr] at hev
  simp only [List.nil_append, List.cons.injEq, Sigma.mk.injEq, Call.apply.injEq] at hev
  obtain ⟨⟨⟨rfl, rfl, rfl⟩, -⟩, -⟩ := hev
  obtain ⟨I, hI, ht⟩ := hpre.transfers (by rw [hst]; simp)
  refine ⟨I, hI, ht.id.symm, ht.version.symm, ht.size.symm, fun i hi => ?_⟩
  rw [List.append_nil, ht.id, ht.version]
  exact ht.whole hst i hi

/-- Two files of one byte. -/
def sevenImage : Image :=
  .ofFile 7 1 [3] (by decide) (by decide) (by decide)

def nineImage : Image :=
  .ofFile 9 1 [5] (by decide) (by decide) (by decide)

/-- Both are published. -/
def pairCatalogue : Catalogue where
  has I := I = sevenImage ∨ I = nineImage
  unique := by
    rintro I J (rfl | rfl) (rfl | rfl) hid hversion
    · rfl
    · exact absurd hid (by decide)
    · exact absurd hid (by decide)
    · rfl

/-- A transfer of the first file is interrupted by the second, which interrupts it in
turn and is applied in the end. -/
def crossedInputs : List (Option RxBuf) :=
  [some sevenImage.initMsg, none, some (nineImage.segmentMsg 0), some (sevenImage.segmentMsg 0),
    some (nineImage.segmentMsg 0), some (nineImage.segmentMsg 0), some (fileMsg 2 9 1 1 [])]

theorem crossed_genuine : ∀ inp ∈ crossedInputs, Genuine pairCatalogue inp := by
  have hseven : Genuine pairCatalogue (some (sevenImage.segmentMsg 0)) := by
    obtain ⟨h, -⟩ := sevenImage.segmentMsg_spec (show 0 < sevenImage.count by decide)
    exact .segment rfl (Or.inl rfl) h (sevenImage.segmentMsg_size 0)
  have hnine : Genuine pairCatalogue (some (nineImage.segmentMsg 0)) := by
    obtain ⟨h, -⟩ := nineImage.segmentMsg_spec (show 0 < nineImage.count by decide)
    exact .segment rfl (Or.inr rfl) h (nineImage.segmentMsg_size 0)
  intro inp hinp
  simp only [crossedInputs, List.mem_cons, List.not_mem_nil, or_false] at hinp
  rcases hinp with rfl | rfl | rfl | rfl | rfl | rfl | rfl
  · exact .init rfl (Or.inl rfl) sevenImage.initMsg_spec
  · exact .other (by decide) (by decide)
  · exact hnine
  · exact hseven
  · exact hnine
  · exact hnine
  · exact .other (by decide +kernel) (by decide +kernel)

/-- The one apply call of that run is of the second file. -/
theorem published_applied_crossed :
    let hist := demoHist .willing crossedInputs
    (hist[6]?.map fun st => kinds st.events) =
        some [.apply, .uplink, .gettime, .closeOk, .configOff] ∧
      (∀ I, pairCatalogue.has I → ∀ i x,
        contents (allEvents hist) I.fileId I.fileVersion i = some x → x = I.bytes i) ∧
      ∀ j id version size before, ApplyAt hist j id version size before →
        ∃ I, pairCatalogue.has I ∧ I.fileId = id ∧ I.fileVersion = version ∧ I.fileSize = size ∧
          ∀ i, i < I.length →
            contents (allEvents (hist.take j) ++ before) id version i = some (I.bytes i) := by
  intro hist
  have hsome : (demo .willing crossedInputs).isSome = true := by decide +kernel
  refine ⟨by decide +kernel, published_applied (demo_run hsome) fun st hst => ?_⟩
  exact crossed_genuine _ (demo_input hsome hst)

end HostInterface.Ftp

import HostInterface.Ftp.Progress
import HostInterface.Ftp.Total

/-!
# One file at a time

Two things a receiver owes the file it is receiving, each with the branch of the
state machine that forgets it:

* it is closed before another file is opened. The application is told so
  (`ll_ftp_close_t`: "called once all segments have been received, when a file
  transfer is interrupted, or a file transfer is canceled"), and
  `ll_ftp_file_reopen` closes before it opens. But `ll_ftp_segment_start` does not:
  a `TX_INIT` or `TX_SEGMENT` of another file that arrives in SEGMENT opens the
  new file over the old one. `files_closed_iff` says that this is the only way in
  which a file stays open, as long as no segment is tracked behind the bitmap: the
  object's `file_id` lies there, and the name under which the file is closed
  (`renamed_left_open`);
* control messages of other files do not touch it. Each branch of the handlers
  tests `IS_MY_FILE` for itself, and the one for `TX_APPLY` in SEGMENT does not
  (`other_file_ignored_iff`).

In a run whose callbacks all succeed the files that are open are known
from the object: the current file in SEGMENT, none else (`expectedOpen`).
-/

namespace HostInterface.Ftp

open Interact Prog

/-! ## Which files are open -/

/-- A file as the callbacks name it: id and version. -/
abbrev File := U32 × U32

/-- Whether `file` is open after a call, from whether it was before. -/
def openStep (file : File) (isOpen : Bool) : Ev → Bool
  | ⟨.open id version _, r⟩ => if (id, version) = file ∧ r = RetCode.ok then true else isOpen
  | ⟨.close id version, _⟩ => if (id, version) = file then false else isOpen
  | _ => isOpen

/-- Whether each file is open after the calls, where `was` says which were before. -/
def openAfter (was : File → Bool) (evs : List Ev) : File → Bool :=
  fun file => evs.foldl (openStep file) (was file)

/-- No file is open. -/
def noFile : File → Bool := fun _ => false

/-- Whenever the open callback is called, no file opened by the calls before is still open. -/
def ClosedBeforeOpen (evs : List Ev) : Prop :=
  ∀ before id version size r after,
    evs = before ++ (⟨.open id version size, r⟩ : Ev) :: after →
    ∀ file, openAfter noFile before file = false

/-- A call of the open callback. -/
def isOpenCall : Ev → Bool
  | ⟨.open _ _ _, _⟩ => true
  | _ => false

/-- The same from files that may be open, call by call. -/
def OpensAlone : (File → Bool) → List Ev → Prop
  | _, [] => True
  | was, ev :: evs =>
    (isOpenCall ev = true → ∀ file, was file = false) ∧ OpensAlone (openAfter was [ev]) evs

@[simp] theorem openAfter_nil (was : File → Bool) : openAfter was [] = was := rfl

theorem openAfter_append (was : File → Bool) (evs evs' : List Ev) :
    openAfter was (evs ++ evs') = openAfter (openAfter was evs) evs' := by
  funext file
  exact List.foldl_append

theorem openAfter_cons (was : File → Bool) (ev : Ev) (evs : List Ev) :
    openAfter was (ev :: evs) = openAfter (openAfter was [ev]) evs :=
  openAfter_append was [ev] evs

theorem opensAlone_append {was : File → Bool} {evs evs' : List Ev} :
    OpensAlone was (evs ++ evs') ↔ OpensAlone was evs ∧ OpensAlone (openAfter was evs) evs' := by
  induction evs generalizing was with
  | nil => simp [OpensAlone]
  | cons ev evs ih =>
    rw [List.cons_append, OpensAlone, OpensAlone, ih, and_assoc, ← openAfter_cons]

theorem closedBeforeOpen_iff {evs : List Ev} :
    ClosedBeforeOpen evs ↔ OpensAlone noFile evs := by
  constructor
  · intro h
    -- The calls are followed from the front; `before` is what has been passed.
    suffices hall : ∀ before after, evs = before ++ after →
        OpensAlone (openAfter noFile before) after from hall [] evs rfl
    intro before after
    induction after generalizing before with
    | nil => intro _; trivial
    | cons ev after ih =>
      intro heq
      refine ⟨fun hopen => ?_, ?_⟩
      · obtain ⟨e, r⟩ := ev
        cases e with
        | «open» id version size => exact h before id version size r after heq
        | _ => cases hopen
      · rw [← openAfter_append]
        exact ih (before ++ [ev]) (by rw [heq, List.append_assoc]; rfl)
  · intro h before id version size r after heq
    rw [heq] at h
    exact (opensAlone_append.mp h).2.1 rfl

/-- An open callback is called while `file` is open. -/
def opensOver (file : File) (evs : List Ev) : Bool :=
  (List.range evs.length).any fun i =>
    (evs[i]?.any isOpenCall) && openAfter noFile (evs.take i) file

/-- Where files are closed before others are opened, that does not happen. -/
theorem ClosedBeforeOpen.opensOver {evs : List Ev} (h : ClosedBeforeOpen evs) (file : File) :
    opensOver file evs = false := by
  refine List.any_eq_false.mpr fun i _ => ?_
  rw [Bool.and_eq_true, Option.any_eq_true]
  rintro ⟨⟨ev, hi, hopen⟩, hfile⟩
  obtain ⟨hlt, hev⟩ := List.getElem?_eq_some_iff.mp hi
  have hsplit : evs = evs.take i ++ ev :: evs.drop (i + 1) := by
    rw [← hev, List.getElem_cons_drop, List.take_append_drop]
  obtain ⟨e, r⟩ := ev
  cases e with
  | «open» id version size =>
    rw [h _ id version size r _ hsplit file] at hfile
    cases hfile
  | _ => cases hopen

/-! ## Calls and the files they leave open -/

/-- The calls open a file only where none is open, and lead from the open files `was` to
the open files `now`. -/
structure Keeps (was : File → Bool) (tr : List Ev) (now : File → Bool) : Prop where
  alone : OpensAlone was tr
  after : openAfter was tr = now

theorem Keeps.append {was mid now : File → Bool} {tr tr' : List Ev} (h : Keeps was tr mid)
    (h' : Keeps mid tr' now) : Keeps was (tr ++ tr') now := by
  refine ⟨opensAlone_append.mpr ⟨h.alone, ?_⟩, ?_⟩
  · rw [h.after]
    exact h'.alone
  · rw [openAfter_append, h.after]
    exact h'.after

theorem Keeps.cons {was mid now : File → Bool} {ev : Ev} {tr : List Ev} (h : Keeps was [ev] mid)
    (h' : Keeps mid tr now) : Keeps was (ev :: tr) now :=
  h.append h'

/-- A call that neither opens nor closes a file. -/
def Kind.aside : Kind → Bool
  | .openOk | .openFail | .closeOk | .closeFail => false
  | _ => true

theorem Keeps.aside {was : File → Bool} {tr : List Ev} (h : (kinds tr).all Kind.aside = true) :
    Keeps was tr was := by
  induction tr with
  | nil => exact ⟨trivial, rfl⟩
  | cons ev tr ih =>
    rw [kinds_cons, List.all_cons, Bool.and_eq_true] at h
    refine Keeps.cons ?_ (ih h.2)
    have hkind := h.1
    obtain ⟨e, r⟩ := ev
    cases e with
    | «open» _ _ _ => unfold kind at hkind; dsimp only at hkind; split at hkind <;> cases hkind
    | close _ _ => unfold kind at hkind; dsimp only at hkind; split at hkind <;> cases hkind
    | _ => exact ⟨⟨by simp [isOpenCall], trivial⟩, rfl⟩

/-- Opening a file where none is open. -/
theorem Keeps.open (id version size : U32) :
    Keeps noFile [⟨.open id version size, RetCode.ok⟩]
      fun file => decide (file = (id, version)) := by
  refine ⟨⟨fun _ _ => rfl, trivial⟩, ?_⟩
  funext file
  simp [openAfter, openStep, noFile, eq_comm]

/-- Closing the only file that is open, or closing where none is. -/
theorem Keeps.close {was : File → Bool} {id version : U32} {r : RetCode}
    (h : ∀ file, was file = true → file = (id, version)) :
    Keeps was [⟨.close id version, r⟩] noFile := by
  refine ⟨⟨by simp [isOpenCall], trivial⟩, ?_⟩
  funext file
  simp only [openAfter, List.foldl_cons, List.foldl_nil, openStep, noFile]
  split
  next => rfl
  next hne =>
    cases hw : was file with
    | false => rfl
    | true => exact absurd (h file hw).symm hne

theorem Sent.aside {f f' : LlFtp} {ack : U8 × LlFtp} {tr : List Ev} (h : Sent f ack tr f') :
    (kinds tr).all Kind.aside = true := by
  rw [h.kinds_eq]
  rfl

theorem Receives.aside {f g : LlFtp} {msg : Msg} {tr : List Ev} {ret : RetCode}
    (h : Receives f msg tr ret g) : (kinds tr).all Kind.aside = true := by
  rw [h.kinds_eq]
  rfl

theorem verify_aside {f : LlFtp} {tr : List Ev} {ret : RetCode} (h : Runs (verifyFile f) tr ret) :
    (kinds tr).all Kind.aside = true := by
  obtain ⟨n, hn⟩ := verify_kinds h
  rw [hn, List.all_eq_true]
  intro k hk
  rw [List.eq_of_mem_replicate hk]
  rfl

/-! ## What the object says is open -/

/-- A callback that returned OK, or a look at the clock. -/
def CallbackOk : Ev → Prop
  | ⟨.open _ _ _, r⟩ => r = RetCode.ok
  | ⟨.read _ _ _ _, r⟩ => r.1 = RetCode.ok
  | ⟨.write _ _ _ _ _, r⟩ => r = RetCode.ok
  | ⟨.close _ _, r⟩ => r = RetCode.ok
  | ⟨.apply _ _ _, r⟩ => r = RetCode.ok
  | ⟨.uplink _ _ _ _, r⟩ => r = RetCode.ok
  | ⟨.config _, r⟩ => r = RetCode.ok
  | ⟨.gettime, _⟩ => True

instance (ev : Ev) : Decidable (CallbackOk ev) :=
  match ev with
  | ⟨.open _ _ _, r⟩ => inferInstanceAs (Decidable (r = RetCode.ok))
  | ⟨.read _ _ _ _, r⟩ => inferInstanceAs (Decidable (r.1 = RetCode.ok))
  | ⟨.write _ _ _ _ _, r⟩ => inferInstanceAs (Decidable (r = RetCode.ok))
  | ⟨.close _ _, r⟩ => inferInstanceAs (Decidable (r = RetCode.ok))
  | ⟨.apply _ _ _, r⟩ => inferInstanceAs (Decidable (r = RetCode.ok))
  | ⟨.uplink _ _ _ _, r⟩ => inferInstanceAs (Decidable (r = RetCode.ok))
  | ⟨.config _, r⟩ => inferInstanceAs (Decidable (r = RetCode.ok))
  | ⟨.gettime, _⟩ => inferInstanceAs (Decidable True)

/-- Where callbacks succeed, no open and no close fails. -/
theorem no_failure {tr : List Ev} (hok : ∀ ev ∈ tr, CallbackOk ev) :
    Kind.openFail ∉ kinds tr ∧ Kind.closeFail ∉ kinds tr := by
  have hkind : ∀ ev : Ev, CallbackOk ev → kind ev ≠ .openFail ∧ kind ev ≠ .closeFail := by
    rintro ⟨e, r⟩ hev
    cases e with
    | «open» id version size =>
      have hr : r = RetCode.ok := hev
      simp [hr]
    | close id version =>
      have hr : r = RetCode.ok := hev
      simp [hr]
    | config downlinkOn => cases downlinkOn <;> simp [kind]
    | _ => simp [kind]
  constructor
  · intro hmem
    obtain ⟨ev, hev, heq⟩ := List.mem_map.mp hmem
    exact (hkind ev (hok ev hev)).1 heq
  · intro hmem
    obtain ⟨ev, hev, heq⟩ := List.mem_map.mp hmem
    exact (hkind ev (hok ev hev)).2 heq

/-- The file an object holds. -/
def LlFtp.file (f : LlFtp) : File := (f.fileId, f.fileVersion)

/-- Where every callback succeeds: the current file in SEGMENT, none else. -/
def expectedOpen (f : LlFtp) : File → Bool :=
  fun file => f.state = .segment && file = f.file

theorem expectedOpen_segment {f : LlFtp} (h : f.state = .segment) :
    expectedOpen f = fun file => decide (file = f.file) := by
  funext file
  simp [expectedOpen, h]

theorem expectedOpen_none {f : LlFtp} (h : f.state ≠ .segment) : expectedOpen f = noFile := by
  funext file
  simp [expectedOpen, noFile, h]

/-- Only the file of the object can be open. -/
theorem file_of_expectedOpen {f : LlFtp} {file : File} (h : expectedOpen f file = true) :
    file = f.file := by
  simp only [expectedOpen, Bool.and_eq_true, decide_eq_true_eq] at h
  exact h.2

/-- Closing the file of the object. -/
theorem Keeps.closeFile {f g : LlFtp} (hfile : g.file = f.file) (r : RetCode) :
    Keeps (expectedOpen f) [⟨.close g.fileId g.fileVersion, r⟩] noFile :=
  .close fun _ hopen => (file_of_expectedOpen hopen).trans hfile.symm

/-- Ending a transfer with callbacks that succeed: its file is closed, and the object reset. -/
theorem Closes.keeps {f g : LlFtp} {tr : List Ev} {ret : RetCode} (h : Closes g tr ret)
    (hok : ∀ ev ∈ tr, CallbackOk ev) (hfile : g.file = f.file) :
    Keeps (expectedOpen f) tr (expectedOpen (g.leave ret)) := by
  cases h with
  | closed r =>
    have hidle : (g.leave .ok).state ≠ .segment := by
      unfold LlFtp.leave
      rw [if_pos (Or.inl rfl), reinit_state]
      simp
    rw [expectedOpen_none hidle]
    exact (Keeps.closeFile hfile _).cons (.aside rfl)
  | refused hne => exact absurd (by simp [kind_close_fail hne]) (no_failure hok).2

/-- A new file interrupts the one that is being received. -/
def Interrupts (st : FtpStep) : Prop :=
  st.pre.state = .segment ∧
    ∃ msg, parseRxMsg st.input = (.ok, msg) ∧ StartsTransfer st.pre msg

instance (st : FtpStep) : Decidable (Interrupts st) :=
  decidable_of_iff
    (st.pre.state = .segment ∧ (parseRxMsg st.input).1 = .ok ∧
      StartsTransfer st.pre (parseRxMsg st.input).2)
    ⟨fun ⟨hseg, hok, hs⟩ => ⟨hseg, _, parsed hok, hs⟩,
      fun ⟨hseg, msg, hparse, hs⟩ => by rw [hparse]; exact ⟨hseg, rfl, hs⟩⟩

/-- **One step** whose callbacks succeed. If it interrupts no transfer, it opens a file only
where none is open, and afterwards the open files are again those the object says. -/
theorem files_step {f f' : LlFtp} {inp : Option RxBuf} {tr : List Ev} {ret : RetCode}
    (h : MsgStep f inp tr ret f') (hok : ∀ ev ∈ tr, CallbackOk ev)
    (hquiet : f.state = .segment → ∀ msg, parseRxMsg inp = (.ok, msg) → ¬ StartsTransfer f msg) :
    Keeps (expectedOpen f) tr (expectedOpen f') := by
  -- Calls beside files: the object has to say the same as before.
  have hside : ∀ {g : LlFtp}, (kinds tr).all Kind.aside = true → g.state = f.state →
      g.file = f.file → Keeps (expectedOpen f) tr (expectedOpen g) := by
    intro g haside hst hfile
    have hsame : expectedOpen g = expectedOpen f := by
      unfold expectedOpen
      rw [hst, hfile]
    rw [hsame]
    exact .aside haside
  cases h with
  | rejected _ _ => exact hside rfl rfl rfl
  | ignored _ _ => exact hside rfl rfl rfl
  | @start msg _ _ _ hparse hs hb =>
    cases hb with
    | accepted hsent =>
      obtain ⟨r', t', rfl, rfl⟩ := hsent
      rw [expectedOpen_none fun hseg => hquiet hseg msg hparse hs, expectedOpen_segment rfl]
      exact (Keeps.open msg.fileId msg.fileVersion msg.fileSize).cons (.aside rfl)
    | refused hne _ => exact absurd (by simp [kind_open_fail hne]) (no_failure hok).1
  | cancel _ _ _ _ hcl => exact hcl.keeps hok rfl
  | incomplete _ hrecv _ =>
    exact hside hrecv.aside (hrecv.state_eq.trans hrecv.state.symm) hrecv.sameFile
  | @verified _ _ _ _ _ g g' _ hrecv _ hv hsent =>
    have happly : (g'.stateSet .apply).state ≠ .segment := by simp [LlFtp.stateSet]
    rw [expectedOpen_none happly]
    refine (Keeps.aside hrecv.aside).append ((Keeps.aside (verify_aside hv)).append ?_)
    exact (Keeps.closeFile hrecv.sameFile _).cons (.aside hsent.aside)
  | stuck _ _ _ _ hne => exact absurd (by simp [kind_close_fail hne]) (no_failure hok).2
  | @restarted _ _ _ _ _ g t _ hrecv _ hv _ =>
    -- Closed first, then opened again.
    rw [expectedOpen_segment (f := g.clearRxSegs.resetAt t) hrecv.state_eq]
    refine (Keeps.aside hrecv.aside).append ((Keeps.aside (verify_aside hv)).append ?_)
    refine Keeps.cons (.aside rfl) ((Keeps.closeFile hrecv.sameFile _).cons ?_)
    exact .open g.fileId g.fileVersion g.fileSize
  | abandoned _ _ _ _ _ hfail _ =>
    cases hfail with
    | close hne => exact absurd (by simp [kind_close_fail hne]) (no_failure hok).2
    | «open» hne => exact absurd (by simp [kind_open_fail hne]) (no_failure hok).1
  | request _ _ _ _ hs => exact hside hs.aside hs.state_eq hs.sameFile
  | early _ _ _ _ => exact hside rfl rfl rfl
  | retry _ _ _ _ _ _ hs =>
    have hst := hs.state_eq
    have hfile := hs.sameFile
    exact hside hs.aside hst hfile
  | giveUp _ _ _ _ _ hcl =>
    refine Keeps.cons (.aside rfl) (hcl.keeps (fun ev hev => hok ev ?_) rfl)
    exact List.mem_cons_of_mem _ hev
  | held _ _ _ _ => exact hside rfl rfl rfl
  | applied _ _ _ _ hs hcl =>
    refine Keeps.cons (.aside rfl) ((Keeps.aside hs.aside).append (hcl.keeps ?_ hs.sameFile))
    exact fun ev hev => hok ev (List.mem_cons_of_mem _ (List.mem_append_right _ hev))
  | @applyRefused _ _ r _ _ _ _ _ hne _ =>
    have hr : r = RetCode.ok := hok _ (List.mem_cons_self ..)
    exact absurd hr hne

/-- A message that begins a transfer opens its file first. -/
theorem Begins.opens {f f' : LlFtp} {msg : Msg} {tr : List Ev} {ret : RetCode}
    (h : Begins f msg tr ret f') :
    ∃ r rest, tr = (⟨.open msg.fileId msg.fileVersion msg.fileSize, r⟩ : Ev) :: rest := by
  cases h with
  | accepted _ => exact ⟨_, _, rfl⟩
  | refused _ _ => exact ⟨_, _, rfl⟩

/-- A step that interrupts a transfer opens its file over the one being received. -/
theorem interrupt_step {st : FtpStep} (hv : st.Valid msgProcess) (h : Interrupts st) :
    ¬ OpensAlone (expectedOpen st.pre) st.events := by
  intro halone
  obtain ⟨hseg, msg, hparse, hs⟩ := h
  have hopen : expectedOpen st.pre st.pre.file = true := by
    rw [expectedOpen_segment hseg]
    exact decide_eq_true rfl
  -- The first call of the step is the open, whether or not it succeeds.
  have hnone : expectedOpen st.pre st.pre.file = false := by
    obtain ⟨r, rest, hev⟩ := (step_msgStep hv).begins hparse hs |>.opens
    rw [hev] at halone
    exact halone.1 rfl _
  rw [hopen] at hnone
  cases hnone

/-- The calls of a history, in order. -/
def allEvents (hist : List FtpStep) : List Ev :=
  hist.flatMap fun st => st.events

/-- **Runs** whose callbacks succeed: the files are opened alone as long as no transfer is
interrupted, and then the open files are those the object says. -/
theorem files_run {hist : List FtpStep} {f : LlFtp} (h : FtpRun hist f)
    (hok : ∀ st ∈ hist, ∀ ev ∈ st.events, CallbackOk ev) :
    (OpensAlone noFile (allEvents hist) ↔ ∀ st ∈ hist, ¬ Interrupts st) ∧
      ((∀ st ∈ hist, ¬ Interrupts st) → openAfter noFile (allEvents hist) = expectedOpen f) := by
  refine h.invariant (P := fun hist f => (∀ st ∈ hist, ∀ ev ∈ st.events, CallbackOk ev) →
    (OpensAlone noFile (allEvents hist) ↔ ∀ st ∈ hist, ¬ Interrupts st) ∧
      ((∀ st ∈ hist, ¬ Interrupts st) → openAfter noFile (allEvents hist) = expectedOpen f))
    ?_ ?_ hok
  · intro g _
    exact ⟨iff_of_true trivial (by simp), fun _ => (expectedOpen_none (by simp)).symm⟩
  · intro hist st hv ih hok
    obtain ⟨ihAlone, ihAfter⟩ := ih fun st' hst' => hok st' (List.mem_append_left _ hst')
    have hokSt : ∀ ev ∈ st.events, CallbackOk ev := hok st (by simp)
    have hevents : allEvents (hist ++ [st]) = allEvents hist ++ st.events := by
      simp [allEvents]
    have hforall : (∀ st' ∈ hist ++ [st], ¬ Interrupts st') ↔
        (∀ st' ∈ hist, ¬ Interrupts st') ∧ ¬ Interrupts st := by
      simp [or_imp, forall_and]
    have hkeeps : ¬ Interrupts st →
        Keeps (expectedOpen st.pre) st.events (expectedOpen st.post) := by
      intro hquiet
      exact files_step (step_msgStep hv) hokSt fun hseg msg hparse hs =>
        hquiet ⟨hseg, msg, hparse, hs⟩
    rw [hevents, opensAlone_append, openAfter_append, hforall, ihAlone]
    refine ⟨and_congr_right fun hall => ?_, fun ⟨hall, hquiet⟩ => ?_⟩
    · rw [ihAfter hall]
      exact ⟨fun halone hint => interrupt_step hv hint halone, fun hquiet => (hkeeps hquiet).alone⟩
    · rw [ihAfter hall]
      exact (hkeeps hquiet).after

/-- A run from `ll_ftp_init` in which tracking a segment behind the bitmap, which writes to
other fields of the object, may do anything. -/
def LooseFtpRun (hist : List FtpStep) (f : LlFtp) : Prop :=
  ∃ g cb f₀, init g cb = (.ok, f₀) ∧ LooseRun TracksPast msgProcess f₀ hist f

/-- Where nothing is tracked there, it is a run. -/
theorem LooseFtpRun.run {hist : List FtpStep} {f : LlFtp} (h : LooseFtpRun hist f)
    (hin : ∀ st ∈ hist, ¬ TracksPast st.pre st.input) : FtpRun hist f := by
  obtain ⟨g, cb, f₀, hinit, hrun⟩ := h
  exact ⟨g, cb, f₀, hinit, hrun.run hin⟩

theorem FtpRun.loose {hist : List FtpStep} {f : LlFtp} (h : FtpRun hist f) :
    LooseFtpRun hist f := by
  obtain ⟨g, cb, f₀, hinit, hrun⟩ := h
  exact ⟨g, cb, f₀, hinit, Run.loose hrun⟩

/-- **No file is left open** in a run whose callbacks succeed and that tracks no segment
behind the bitmap, exactly if no new file interrupts a transfer in SEGMENT. -/
theorem files_closed_iff {hist : List FtpStep} {f : LlFtp} (h : LooseFtpRun hist f)
    (hok : ∀ st ∈ hist, ∀ ev ∈ st.events, CallbackOk ev)
    (hin : ∀ st ∈ hist, ¬ TracksPast st.pre st.input) :
    ClosedBeforeOpen (allEvents hist) ↔ ∀ st ∈ hist, ¬ Interrupts st :=
  closedBeforeOpen_iff.trans (files_run (h.run hin) hok).1

/-- An interrupted transfer leaves its file open. -/
theorem left_open {hist : List FtpStep} {f : LlFtp} (h : FtpRun hist f)
    (hok : ∀ st ∈ hist, ∀ ev ∈ st.events, CallbackOk ev)
    (hint : ¬ ∀ st ∈ hist, ¬ Interrupts st) : ¬ ClosedBeforeOpen (allEvents hist) :=
  fun hclosed => hint ((files_run h hok).1.mp (closedBeforeOpen_iff.mp hclosed))

/-- The smallest file is announced, and then another one: the first is never closed. -/
theorem file_left_open :
    let inputs := [some tinyInit, some (fileMsg 0 9 1 1 [])]
    FtpRun (demoHist .willing inputs) (demoEnd .willing inputs) ∧
      (∀ st ∈ demoHist .willing inputs, ∀ ev ∈ st.events, CallbackOk ev) ∧
      ¬ ClosedBeforeOpen (allEvents (demoHist .willing inputs)) := by
  intro inputs
  have hrun : FtpRun (demoHist .willing inputs) (demoEnd .willing inputs) :=
    demo_run (by decide +kernel)
  have hok : ∀ st ∈ demoHist .willing inputs, ∀ ev ∈ st.events, CallbackOk ev := by
    decide +kernel
  have hint : ¬ ∀ st ∈ demoHist .willing inputs, ¬ Interrupts st := by decide +kernel
  exact ⟨hrun, hok, left_open hrun hok hint⟩

/-- The smallest file sent and applied, and then another one announced. -/
theorem files_closed_tiny :
    let hist := demoHist .willing
      [some tinyInit, some (tinySegment 5), some tinyApply, some (fileMsg 0 9 1 1 [])]
    hist.length = 4 ∧
      (ClosedBeforeOpen (allEvents hist) ↔ ∀ st ∈ hist, ¬ Interrupts st) :=
  ⟨by decide +kernel, files_closed_iff (demo_run (by decide +kernel)).loose (by decide +kernel)
    (by decide +kernel)⟩

/-- The segment numbered 2400 of a file `(6, 1)`. -/
def pastSegment : RxBuf := fileMsg 3 6 1 1 (le16 2400 ++ le16 1 ++ tinyImage 5)

/-- What it does to a receiver of that file: the lowest bit of `file_id` is set. -/
def renameStep (f : LlFtp) : FtpStep where
  pre := f
  input := some pastSegment
  events :=
    let msg := (parseRxMsg (some pastSegment)).2
    [⟨.gettime, ⟨0, 0⟩⟩,
      ⟨.write msg.fileId msg.fileVersion (msg.segmentNumber.setWidth 32 * 107) msg.payload
        msg.payloadLen, RetCode.ok⟩]
  out := .ok
  post := { f.resetAt ⟨0, 0⟩ with fileId := f.fileId ||| 1 }

/-- A run goes on with it, loosely. -/
theorem renameStep_loose {hist : List FtpStep} {f : LlFtp} (h : FtpRun hist f)
    (hpast : TracksPast f (some pastSegment)) :
    LooseFtpRun (hist ++ [renameStep f]) (renameStep f).post := by
  obtain ⟨g, cb, f₀, hinit, hrun⟩ := h
  exact ⟨g, cb, f₀, hinit, .snoc (Run.loose hrun) (Or.inr hpast)⟩

/-- The file `(6, 1)` is announced, its segment 2400 renames it to `(7, 1)`, that file is
canceled, and `(9, 1)` announced. -/
def renamedHist : List FtpStep :=
  let f := demoEnd .willing [some (fileMsg 0 6 1 1 [])]
  demoHist .willing [some (fileMsg 0 6 1 1 [])] ++ [renameStep f] ++
    ((execAll msgProcess (storage .willing) (renameStep f).post
      [some tinyCancel, some (fileMsg 0 9 1 1 [])] World.empty).map fun x => x.1).getD []

/-- No step of it interrupts a transfer, but `(6, 1)` is never closed. -/
theorem renamed_left_open :
    (∃ f, LooseFtpRun renamedHist f) ∧
      (∀ st ∈ renamedHist, ∀ ev ∈ st.events, CallbackOk ev) ∧
      (∀ st ∈ renamedHist, ¬ Interrupts st) ∧ ¬ ClosedBeforeOpen (allEvents renamedHist) := by
  refine ⟨?_, by decide +kernel, by decide +kernel, fun hclosed => ?_⟩
  · have hbefore : (demo .willing [some (fileMsg 0 6 1 1 [])]).isSome = true := by decide +kernel
    have hpast : TracksPast (demoEnd .willing [some (fileMsg 0 6 1 1 [])]) (some pastSegment) := by
      decide +kernel
    obtain ⟨g, cb, f₀, hinit, hrun⟩ := renameStep_loose (demo_run hbefore) hpast
    obtain ⟨f, hafter⟩ := @execAll_hist_run _ _ _ _ _ _ msgProcess (storage .willing)
      (renameStep (demoEnd .willing [some (fileMsg 0 6 1 1 [])])).post
      [some tinyCancel, some (fileMsg 0 9 1 1 [])] World.empty
    exact ⟨f, g, cb, f₀, hinit, hrun.append hafter⟩
  · -- The last open finds it open.
    have hover : opensOver (6, 1) (allEvents renamedHist) = true := by decide +kernel
    rw [hclosed.opensOver] at hover
    cases hover

/-! ## Control messages of other files -/

/-- **Other files' control messages** in a transfer: they do nothing at all, except that
`TX_APPLY` in SEGMENT does. -/
theorem other_file_ignored_iff {f : LlFtp} {inp : Option RxBuf} {msg : Msg}
    (hne : f.state ≠ .idle) (hparse : parseRxMsg inp = (.ok, msg))
    (hty : msg.msgType = .txCancel ∨ msg.msgType = .txApply) (hother : isMyFile f msg = false) :
    msgProcess f inp = .done (.noAction, f) ↔
      ¬ (f.state = .segment ∧ msg.msgType = .txApply) := by
  unfold msgProcess
  cases hst : f.state with
  | idle => exact absurd hst hne
  | segment =>
    dsimp only
    unfold segmentProcessMsg segmentHandleMsg
    rcases hty with hty | hty
    · simp only [hparse, hty, hother, ne_eq, not_true_eq_false, if_false, done_bind,
        Bool.false_eq_true, reduceCtorEq, and_false, not_false_eq_true, iff_true]
      rfl
    · -- The request is built for whatever file is named, or its loops leave an array.
      simp only [hparse, hty, ne_eq, not_true_eq_false, if_false, and_self, iff_false]
      cases hack : ackSegsRequestGenerate f with
      | none =>
        intro h
        cases h
      | some ack =>
        intro h
        cases h
  | apply =>
    dsimp only
    unfold applyProcessMsg applyHandleMsg
    rcases hty with hty | hty
    · simp only [hparse, hty, hother, ne_eq, not_true_eq_false, if_false, done_bind,
        Bool.false_eq_true, reduceCtorEq, and_false, not_false_eq_true, iff_true]
      rfl
    · simp only [hparse, hty, hother, ne_eq, not_true_eq_false, if_false, done_bind,
        Bool.false_eq_true, reduceCtorEq, false_and, not_false_eq_true, iff_true]
      rfl

/-- The smallest file is being received, and a `TX_APPLY` of another file makes the
receiver send a request. -/
theorem other_apply_answered :
    let f := demoEnd .willing [some tinyInit]
    let inp := some (fileMsg 2 9 1 1 [])
    FtpRun (demoHist .willing [some tinyInit]) f ∧ f.state = .segment ∧
      (parseRxMsg inp).1 = .ok ∧ (parseRxMsg inp).2.msgType = .txApply ∧
      isMyFile f (parseRxMsg inp).2 = false ∧
      (exec (storage .willing) (msgProcess f inp) World.empty).map (fun x => (kinds x.1, x.2.1.1)) =
        some ([.uplink, .gettime], .ok) ∧
      msgProcess f inp ≠ .done (.noAction, f) := by
  intro f inp
  have hexec : (exec (storage .willing) (msgProcess f inp) World.empty).map
      (fun x => (kinds x.1, x.2.1.1)) = some ([.uplink, .gettime], .ok) := by decide +kernel
  refine ⟨demo_run (by decide +kernel), by decide +kernel, by decide +kernel, by decide +kernel,
    by decide +kernel, hexec, fun h => ?_⟩
  rw [h] at hexec
  simp at hexec

/-- A `TX_CANCEL` of another file, and a `TX_APPLY` of another file in APPLY, do nothing. -/
theorem other_file_ignored_tiny :
    let f := demoEnd .willing [some tinyInit]
    let inp := some (fileMsg 1 9 1 1 [])
    f.state = .segment ∧ (parseRxMsg inp).2.msgType = .txCancel ∧
      (msgProcess f inp = .done (.noAction, f) ↔
        ¬ (f.state = .segment ∧ (parseRxMsg inp).2.msgType = .txApply)) :=
  ⟨by decide +kernel, by decide +kernel,
    other_file_ignored_iff (by decide +kernel) (parsed (by decide +kernel))
      (Or.inl (by decide +kernel)) (by decide +kernel)⟩

end HostInterface.Ftp

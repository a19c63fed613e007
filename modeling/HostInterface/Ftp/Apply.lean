import HostInterface.Ftp.Shape
import HostInterface.Ftp.Storage

/-!
# Apply safety

A file is applied only after it has been verified, closed and left alone.
`Armed` is the invariant behind it: in APPLY the history holds a step that
verified the current file and closed it, and every call since that close is
`Quiet`, i.e. neither a write, nor a successful open, nor an apply.

Two steps of the machine matter. `arming_step`: whichever step enters APPLY is
such a verification. `quiet_step`: a step that stays in APPLY keeps the file
and makes quiet calls only. That an apply call itself is not quiet gives the
last part for free: a verification has at most one apply call after it before
the next.
-/

namespace HostInterface.Ftp

open Interact Prog

/-- A call that puts a verified file in doubt: any write, or an open that succeeds. -/
def Disturbs (ev : Ev) : Prop :=
  kind ev = .write ∨ kind ev = .openOk

/-- A kind of call that neither disturbs nor applies. -/
def Kind.quiet : Kind → Bool
  | .write => false
  | .openOk => false
  | .apply => false
  | _ => true

/-- Neither disturbs nor applies. -/
def Quiet (ev : Ev) : Prop :=
  (kind ev).quiet = true

/-- In step `st` the verification of the file `(id, version)` with `size` returned OK,
then its close returned OK, then came the calls `after`. -/
def VerifiedIn (st : FtpStep) (id version size : U32) (after : List Ev) : Prop :=
  ∃ before reads o, Runs (verifyFile o) reads .ok ∧
    o.fileId = id ∧ o.fileVersion = version ∧ o.fileSize = size ∧
    st.events = before ++ (reads ++ ⟨.close id version, RetCode.ok⟩ :: after)

theorem Quiet.not_disturbs {ev : Ev} (h : Quiet ev) : ¬ Disturbs ev := by
  intro hd
  unfold Quiet at h
  rcases hd with hk | hk <;> rw [hk] at h <;> cases h

theorem Quiet.not_apply {ev : Ev} (h : Quiet ev) : kind ev ≠ .apply := by
  intro hk
  unfold Quiet at h
  rw [hk] at h
  cases h

/-- A trace of quiet kinds is quiet. -/
theorem quiet_of_kinds {tr : List Ev} (h : (kinds tr).all Kind.quiet = true) :
    ∀ ev ∈ tr, Quiet ev := by
  intro ev hev
  exact List.all_eq_true.mp h (kind ev) (List.mem_map_of_mem hev)

theorem Sent.quiet {f f' : LlFtp} {ack : U8 × LlFtp} {tr : List Ev} (h : Sent f ack tr f') :
    ∀ ev ∈ tr, Quiet ev :=
  quiet_of_kinds (by rw [h.kinds_eq]; rfl)

/-! ## Steps -/

/-- An apply call is the first call of its step, made in APPLY for the current file,
and the only one of its step. -/
theorem apply_call {f f' : LlFtp} {inp : Option RxBuf} {tr : List Ev} {ret : RetCode}
    (h : MsgStep f inp tr ret f') (hap : Kind.apply ∈ kinds tr) :
    f.state = .apply ∧ ∃ r rest, tr = ⟨.apply f.fileId f.fileVersion f.fileSize, r⟩ :: rest ∧
      Kind.apply ∉ kinds rest := by
  cases h with
  | rejected _ _ => simp at hap
  | ignored _ _ => simp at hap
  | start _ _ hb => rcases hb.kinds_eq with ⟨hk, -⟩ | ⟨hk, -⟩ <;> simp [hk] at hap
  | cancel _ _ _ _ hcl => exact absurd hap (hcl.not_mem (by decide))
  | incomplete _ hrecv _ => simp [hrecv.kinds_eq] at hap
  | verified _ hrecv _ hv hs =>
    obtain ⟨n, hn⟩ := verify_kinds hv
    simp [hrecv.kinds_eq, hn, hs.kinds_eq] at hap
  | stuck _ hrecv _ hv hne =>
    obtain ⟨n, hn⟩ := verify_kinds hv
    simp [hrecv.kinds_eq, hn, kind_close_fail hne] at hap
  | restarted _ hrecv _ hv _ =>
    obtain ⟨n, hn⟩ := verify_kinds hv
    simp [hrecv.kinds_eq, hn] at hap
  | abandoned _ hrecv _ hv _ hfail hcl =>
    obtain ⟨n, hn⟩ := verify_kinds hv
    simp only [kinds_append, kinds_cons, hrecv.kinds_eq, hn, kind_gettime, List.mem_append,
      List.mem_cons, hcl.not_mem (k := .apply) (by decide), or_false] at hap
    rcases hfail.kinds_eq with hk | hk <;> simp [hk] at hap
  | request _ _ _ _ hs => simp [hs.kinds_eq] at hap
  | early _ _ _ _ => simp at hap
  | retry _ _ _ _ _ _ hs => simp [hs.kinds_eq] at hap
  | giveUp _ _ _ _ _ hcl => simp [hcl.not_mem (k := .apply) (by decide)] at hap
  | held _ _ _ _ => simp at hap
  | applied _ hst _ _ hs hcl =>
    have hno : Kind.apply ∉ kinds _ := hcl.not_mem (by decide)
    exact ⟨hst, _, _, rfl, by simp [hs.kinds_eq, hno]⟩
  | applyRefused _ hst _ _ _ hcl => exact ⟨hst, _, _, rfl, hcl.not_mem (by decide)⟩

/-- The step that enters APPLY has verified the file it holds there. -/
theorem arming_step {f f' : LlFtp} {inp : Option RxBuf} {tr : List Ev} {ret : RetCode}
    (h : MsgStep f inp tr ret f') (hpre : f.state ≠ .apply) (hpost : f'.state = .apply) :
    ∃ before reads after o, Runs (verifyFile o) reads .ok ∧ o.fileId = f'.fileId ∧
      o.fileVersion = f'.fileVersion ∧ o.fileSize = f'.fileSize ∧
      tr = before ++ (reads ++ ⟨.close f'.fileId f'.fileVersion, RetCode.ok⟩ :: after) ∧
      ∀ ev ∈ after, Quiet ev := by
  cases h with
  | rejected _ _ => exact absurd hpost hpre
  | ignored _ _ => exact absurd hpost hpre
  | start _ _ hb =>
    exfalso
    rcases hb.post with hseg | ⟨tx, t, rfl⟩
    · rw [hseg] at hpost
      cases hpost
    · exact hpre hpost
  | cancel _ _ _ _ _ => exact absurd hpost (leave_not_apply _ _)
  | incomplete _ hrecv _ =>
    rw [hrecv.state_eq] at hpost
    cases hpost
  | @verified _ tr tv ts _ g g' _ hrecv _ hv hs =>
    obtain ⟨r, t, rfl, rfl⟩ := hs
    exact ⟨tr, tv, _, g, hv, rfl, rfl, rfl, rfl, (show Sent g _ _ _ from ⟨r, t, rfl, rfl⟩).quiet⟩
  | stuck _ _ _ _ _ => cases hpost
  | @restarted _ _ _ _ _ g t _ hrecv _ _ _ =>
    rw [show (g.clearRxSegs.resetAt t).state = .segment from hrecv.state_eq] at hpost
    cases hpost
  | abandoned _ _ _ _ _ _ _ => exact absurd hpost (leave_not_apply _ _)
  | request _ _ _ _ hs =>
    rw [hs.state_eq] at hpost
    exact absurd hpost hpre
  | early _ _ _ _ => exact absurd hpost hpre
  | retry _ _ _ _ _ _ hs => exact absurd (hs.state_eq.symm.trans hpost) hpre
  | giveUp _ _ _ _ _ _ => exact absurd hpost (leave_not_apply _ _)
  | held _ hst _ _ => exact absurd hst hpre
  | applied _ hst _ _ _ _ => exact absurd hst hpre
  | applyRefused _ hst _ _ _ _ => exact absurd hst hpre

/-- A step that stays in APPLY keeps the file and is quiet. -/
theorem quiet_step {f f' : LlFtp} {inp : Option RxBuf} {tr : List Ev} {ret : RetCode}
    (h : MsgStep f inp tr ret f') (hpre : f.state = .apply) (hpost : f'.state = .apply) :
    f'.fileId = f.fileId ∧ f'.fileVersion = f.fileVersion ∧ f'.fileSize = f.fileSize ∧
      ∀ ev ∈ tr, Quiet ev := by
  cases h with
  | rejected _ _ => exact ⟨rfl, rfl, rfl, fun _ hev => absurd hev List.not_mem_nil⟩
  | ignored _ _ => exact ⟨rfl, rfl, rfl, fun _ hev => absurd hev List.not_mem_nil⟩
  | start _ _ hb =>
    cases hb with
    | accepted _ => cases hpost
    | refused hne hs =>
      have hq := hs.quiet
      obtain ⟨r, t, -, rfl⟩ := hs
      refine ⟨rfl, rfl, rfl, fun ev hev => ?_⟩
      rcases List.mem_cons.mp hev with rfl | hev
      · unfold Quiet
        rw [kind_open_fail hne]
        rfl
      · exact hq ev hev
  | cancel _ _ _ _ _ => exact absurd hpost (leave_not_apply _ _)
  | incomplete _ hrecv _ =>
    rw [hrecv.state] at hpre
    cases hpre
  | verified _ hrecv _ _ _ =>
    rw [hrecv.state] at hpre
    cases hpre
  | stuck _ _ _ _ _ => cases hpost
  | restarted _ hrecv _ _ _ =>
    rw [hrecv.state] at hpre
    cases hpre
  | abandoned _ _ _ _ _ _ _ => exact absurd hpost (leave_not_apply _ _)
  | request _ hst _ _ _ =>
    rw [hst] at hpre
    cases hpre
  | early _ _ _ _ =>
    refine ⟨rfl, rfl, rfl, fun ev hev => ?_⟩
    rw [List.mem_singleton] at hev
    subst hev
    rfl
  | retry _ _ _ _ _ _ hs =>
    have hq := hs.quiet
    obtain ⟨r, t, -, rfl⟩ := hs
    refine ⟨rfl, rfl, rfl, fun ev hev => ?_⟩
    rcases List.mem_cons.mp hev with rfl | hev
    · rfl
    · exact hq ev hev
  | giveUp _ _ _ _ _ _ => exact absurd hpost (leave_not_apply _ _)
  | held _ _ _ _ =>
    refine ⟨rfl, rfl, rfl, fun ev hev => ?_⟩
    rw [List.mem_singleton] at hev
    subst hev
    rfl
  | applied _ _ _ _ _ _ => exact absurd hpost (leave_not_apply _ _)
  | applyRefused _ _ _ _ _ _ => exact absurd hpost (leave_not_apply _ _)

/-! ## Runs -/

/-- In APPLY the history holds the verification and close of the current file, at
position `i`, and every call since that close is quiet. -/
def Armed (hist : List FtpStep) (f : LlFtp) : Prop :=
  f.state = .apply → ∃ i st after, hist[i]? = some st ∧
    VerifiedIn st f.fileId f.fileVersion f.fileSize after ∧
    ∀ ev ∈ after ++ (hist.drop (i + 1)).flatMap fun st => st.events, Quiet ev

/-- **Every run keeps APPLY armed.** -/
theorem armed {hist : List FtpStep} {f : LlFtp} (h : FtpRun hist f) : Armed hist f := by
  refine h.invariant (P := Armed) (fun g hst => by simp at hst) ?_
  intro hist st hv ih hpost
  have hstep := step_msgStep hv
  by_cases hpre : st.pre.state = .apply
  · -- Still in APPLY: the verification stays where it is, and the new calls are quiet.
    obtain ⟨i, vst, after, hi, hver, hq⟩ := ih hpre
    obtain ⟨hid, hversion, hsize, hquiet⟩ := quiet_step hstep hpre hpost
    have hlen : i + 1 ≤ hist.length := (List.getElem?_eq_some_iff.mp hi).1
    refine ⟨i, vst, after, ?_, ?_, ?_⟩
    · rw [List.getElem?_append_left hlen]
      exact hi
    · rw [hid, hversion, hsize]
      exact hver
    · intro ev hev
      rw [List.drop_append_of_le_length hlen, List.flatMap_append, List.mem_append,
        List.mem_append] at hev
      rcases hev with hev | hev | hev
      · exact hq ev (List.mem_append.mpr (Or.inl hev))
      · exact hq ev (List.mem_append.mpr (Or.inr hev))
      · simp only [List.flatMap_cons, List.flatMap_nil, List.append_nil] at hev
        exact hquiet ev hev
  · -- APPLY is entered: this step has verified the file.
    obtain ⟨before, reads, after, o, hv, hid, hversion, hsize, htr, hq⟩ :=
      arming_step hstep hpre hpost
    refine ⟨hist.length, st, after, ?_, ⟨before, reads, o, hv, hid, hversion, hsize, htr⟩, ?_⟩
    · simp
    · intro ev hev
      rw [List.drop_of_length_le (by simp), List.flatMap_nil, List.append_nil] at hev
      exact hq ev hev

/-- An apply call of the run: the position of its step, its arguments, and what came
before it in that step. -/
def ApplyAt (hist : List FtpStep) (j : Nat) (id version size : U32) (before : List Ev) : Prop :=
  ∃ st r after, hist[j]? = some st ∧
    st.events = before ++ ⟨.apply id version size, r⟩ :: after

/-- The apply call at `j` rests on the verification at `i`: the file was verified and
closed there, and nothing from that close to the call disturbs it. -/
def RestsOn (hist : List FtpStep) (i j : Nat) (id version size : U32) (before : List Ev) : Prop :=
  i < j ∧ ∃ st after, hist[i]? = some st ∧ VerifiedIn st id version size after ∧
    ∀ ev ∈ after ++ (((hist.take j).drop (i + 1)).flatMap fun st => st.events) ++ before,
      ¬ Disturbs ev

/-- An apply call rests on a verification, and is itself the only call since that is
not quiet. -/
theorem apply_rests {hist : List FtpStep} {f : LlFtp} (h : FtpRun hist f) {j : Nat}
    {id version size : U32} {before : List Ev} (hap : ApplyAt hist j id version size before) :
    before = [] ∧ ∃ i, i < j ∧ ∃ st after, hist[i]? = some st ∧
      VerifiedIn st id version size after ∧
      ∀ ev ∈ after ++ ((hist.take j).drop (i + 1)).flatMap fun st => st.events, Quiet ev := by
  obtain ⟨st, r, after, hj, hev⟩ := hap
  obtain ⟨hrun, hv⟩ := h.at_pos hj
  have hmem : Kind.apply ∈ kinds st.events := by
    rw [hev]
    simp
  obtain ⟨hst, r', rest, htr, hrest⟩ := apply_call (step_msgStep hv) hmem
  rw [htr] at hev
  cases before with
  | nil =>
    simp only [List.nil_append, List.cons.injEq, Sigma.mk.injEq, Call.apply.injEq] at hev
    obtain ⟨⟨⟨rfl, rfl, rfl⟩, -⟩, -⟩ := hev
    obtain ⟨i, vst, after, hi, hver, hq⟩ := armed hrun hst
    have hij : i < j := by
      have hlt := (List.getElem?_eq_some_iff.mp hi).1
      rw [List.length_take] at hlt
      omega
    rw [List.getElem?_take_of_lt hij] at hi
    exact ⟨rfl, i, hij, vst, after, hi, hver, hq⟩
  | cons ev before =>
    -- A second apply call behind the first one would be among the rest.
    rw [List.cons_append, List.cons.injEq] at hev
    rw [hev.2] at hrest
    simp at hrest

/-- A step has one apply call at most. -/
theorem applyAt_unique {hist : List FtpStep} {f : LlFtp} (h : FtpRun hist f) {j : Nat}
    {id version size id' version' size' : U32} {before before' : List Ev}
    (hap : ApplyAt hist j id version size before)
    (hap' : ApplyAt hist j id' version' size' before') :
    id' = id ∧ version' = version ∧ size' = size ∧ before' = before := by
  have hnil := (apply_rests h hap).1
  have hnil' := (apply_rests h hap').1
  obtain ⟨st, r, after, hj, hev⟩ := hap
  obtain ⟨st', r', after', hj', hev'⟩ := hap'
  rw [hj] at hj'
  obtain rfl := Option.some.inj hj'
  rw [hev, hnil, hnil'] at hev'
  simp only [List.nil_append, List.cons.injEq, Sigma.mk.injEq, Call.apply.injEq] at hev'
  obtain ⟨⟨⟨rfl, rfl, rfl⟩, -⟩, -⟩ := hev'
  exact ⟨rfl, rfl, rfl, hnil'.trans hnil.symm⟩

/-- An apply call is not among calls that are all quiet. -/
theorem applyAt_not_between {hist : List FtpStep} {i j k : Nat} {id version size : U32}
    {before : List Ev} (hap : ApplyAt hist j id version size before) (hij : i < j) (hjk : j < k)
    (hq : ∀ ev ∈ ((hist.take k).drop (i + 1)).flatMap fun st => st.events, Quiet ev) : False := by
  obtain ⟨st, r, after, hj, hev⟩ := hap
  have hmem : st ∈ (hist.take k).drop (i + 1) := by
    refine List.mem_of_getElem? (i := j - (i + 1)) ?_
    rw [List.getElem?_drop, List.getElem?_take_of_lt (by omega),
      show i + 1 + (j - (i + 1)) = j by omega]
    exact hj
  have hcall : (⟨.apply id version size, r⟩ : Ev) ∈ st.events := by
    rw [hev]
    simp
  exact (hq _ (List.mem_flatMap.mpr ⟨st, hmem, hcall⟩)).not_apply rfl

/-- **Apply safety**: in every run each apply call rests on an earlier verification of
exactly its file, no two calls on the same one, and a step makes at most one. -/
theorem apply_safety {hist : List FtpStep} {f : LlFtp} (h : FtpRun hist f) :
    ∃ basis : Nat → Nat,
      (∀ j id version size before, ApplyAt hist j id version size before →
        RestsOn hist (basis j) j id version size before) ∧
      (∀ j id version size before j' id' version' size' before',
        ApplyAt hist j id version size before → ApplyAt hist j' id' version' size' before' →
        basis j = basis j' → j = j' ∧ before = before') := by
  -- A step has one apply call at most, so the basis is a function of the step alone.
  have hbasis : ∀ j, ∃ i, ∀ id version size before, ApplyAt hist j id version size before →
      i < j ∧ ∃ st after, hist[i]? = some st ∧ VerifiedIn st id version size after ∧
        ∀ ev ∈ after ++ ((hist.take j).drop (i + 1)).flatMap fun st => st.events, Quiet ev := by
    intro j
    by_cases hex : ∃ id version size before, ApplyAt hist j id version size before
    · obtain ⟨id, version, size, before, hap⟩ := hex
      obtain ⟨-, i, hrest⟩ := apply_rests h hap
      refine ⟨i, fun id' version' size' before' hap' => ?_⟩
      obtain ⟨rfl, rfl, rfl, -⟩ := applyAt_unique h hap hap'
      exact hrest
    · exact ⟨0, fun id version size before hap => absurd ⟨id, version, size, before, hap⟩ hex⟩
  obtain ⟨basis, hb⟩ := Classical.skolem.mp hbasis
  refine ⟨basis, ?_, ?_⟩
  · intro j id version size before hap
    obtain ⟨hij, st, after, hi, hver, hq⟩ := hb j id version size before hap
    refine ⟨hij, st, after, hi, hver, fun ev hev => ?_⟩
    rw [(apply_rests h hap).1, List.append_nil] at hev
    exact (hq ev hev).not_disturbs
  · intro j id version size before j' id' version' size' before' hap hap' hsame
    obtain ⟨hij, _, _, _, _, hq⟩ := hb j id version size before hap
    obtain ⟨hij', _, _, _, _, hq'⟩ := hb j' id' version' size' before' hap'
    -- Between a verification and the call that rests on it there is no other apply call.
    rcases Nat.lt_trichotomy j j' with hlt | heq | hgt
    · rw [← hsame] at hq'
      exact (applyAt_not_between hap hij hlt fun ev hev =>
        hq' ev (List.mem_append.mpr (Or.inr hev))).elim
    · subst heq
      exact ⟨rfl, (applyAt_unique h hap hap').2.2.2.symm⟩
    · rw [hsame] at hq
      exact (applyAt_not_between hap' hij' hgt fun ev hev =>
        hq ev (List.mem_append.mpr (Or.inr hev))).elim

/-- The smallest file, sent and applied twice: two apply calls, on two verifications. -/
theorem apply_safety_tiny :
    let inputs := [some tinyInit, some (tinySegment 5), some tinyApply]
    let hist := demoHist .willing (inputs ++ inputs)
    (hist.flatMap fun st => kinds st.events).count .apply = 2 ∧
      ∃ basis : Nat → Nat,
        (∀ j id version size before, ApplyAt hist j id version size before →
          RestsOn hist (basis j) j id version size before) ∧
        (∀ j id version size before j' id' version' size' before',
          ApplyAt hist j id version size before → ApplyAt hist j' id' version' size' before' →
          basis j = basis j' → j = j' ∧ before = before') :=
  ⟨by decide +kernel, apply_safety (demo_run (by decide +kernel))⟩

end HostInterface.Ftp

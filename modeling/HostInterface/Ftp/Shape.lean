import HostInterface.Ftp.Step

/-!
# The control skeleton

What one step does to the application, with the arguments left out: the state
before, the kinds of calls in order, the state after. `Shape` is that skeleton as
a machine of its own, and `msgStep_shape` says that every step of
`ll_ftp_msg_process` has one of its shapes. What follows from the order of calls
and the states alone is proved of `Shape`.
-/

namespace HostInterface.Ftp

open Interact Prog

/-- A call without its arguments, and whether an open or a close succeeded. -/
inductive Kind where
  | openOk
  | openFail
  | read
  | write
  | closeOk
  | closeFail
  | apply
  | uplink
  | configOn
  | configOff
  | gettime
  deriving DecidableEq, Repr

/-- The kind of a call and its reply. -/
def kind : Ev → Kind
  | ⟨.open _ _ _, r⟩ => if r = RetCode.ok then .openOk else .openFail
  | ⟨.read _ _ _ _, _⟩ => .read
  | ⟨.write _ _ _ _ _, _⟩ => .write
  | ⟨.close _ _, r⟩ => if r = RetCode.ok then .closeOk else .closeFail
  | ⟨.apply _ _ _, _⟩ => .apply
  | ⟨.uplink _ _ _ _, _⟩ => .uplink
  | ⟨.config downlinkOn, _⟩ => if downlinkOn then .configOn else .configOff
  | ⟨.gettime, _⟩ => .gettime

/-- The kinds of calls of a trace, in order. -/
def kinds (tr : List Ev) : List Kind := tr.map kind

@[simp] theorem kinds_nil : kinds [] = [] := rfl
@[simp] theorem kinds_cons (ev : Ev) (tr : List Ev) : kinds (ev :: tr) = kind ev :: kinds tr := rfl
@[simp] theorem kinds_append (tr tr' : List Ev) : kinds (tr ++ tr') = kinds tr ++ kinds tr' :=
  List.map_append

/-- A call is not among calls of other kinds. -/
theorem not_mem_of_kinds {ev : Ev} {tr : List Ev} (h : kind ev ∉ kinds tr) : ev ∉ tr :=
  fun hev => h (List.mem_map_of_mem hev)

@[simp] theorem kind_open_ok (id version size : U32) :
    kind ⟨.open id version size, RetCode.ok⟩ = .openOk := rfl
@[simp] theorem kind_close_ok (id version : U32) :
    kind ⟨.close id version, RetCode.ok⟩ = .closeOk := rfl
@[simp] theorem kind_apply (id version size : U32) (r : RetCode) :
    kind ⟨.apply id version size, r⟩ = .apply := rfl
@[simp] theorem kind_uplink (buf : List U8) (acked : Bool) (port maxPort : U8) (r : RetCode) :
    kind ⟨.uplink buf acked port maxPort, r⟩ = .uplink := rfl
@[simp] theorem kind_config_true (r : RetCode) : kind ⟨.config true, r⟩ = .configOn := rfl
@[simp] theorem kind_gettime (t : Time) : kind ⟨.gettime, t⟩ = .gettime := rfl

theorem kind_open_fail {id version size : U32} {r : RetCode} (h : r ≠ .ok) :
    kind ⟨.open id version size, r⟩ = .openFail := if_neg h

theorem kind_close_fail {id version : U32} {r : RetCode} (h : r ≠ .ok) :
    kind ⟨.close id version, r⟩ = .closeFail := if_neg h

/-! ## The pieces -/

theorem Sent.kinds_eq {f f' : LlFtp} {ack : U8 × LlFtp} {tr : List Ev} (h : Sent f ack tr f') :
    kinds tr = [.uplink, .gettime] := by
  obtain ⟨r, t, rfl, -⟩ := h
  rfl

theorem Closes.kinds_eq {f : LlFtp} {tr : List Ev} {ret : RetCode} (h : Closes f tr ret) :
    (ret = .ok ∧ kinds tr = [.closeOk, .configOff]) ∨ (ret ≠ .ok ∧ kinds tr = [.closeFail]) := by
  cases h with
  | closed r => exact Or.inl ⟨rfl, rfl⟩
  | refused hne => exact Or.inr ⟨by simp, by simp [kind_close_fail hne]⟩

/-- Ending a transfer only closes its file and switches the downlink off. -/
theorem Closes.not_mem {f : LlFtp} {tr : List Ev} {ret : RetCode} {k : Kind} (h : Closes f tr ret)
    (hk : k ∉ [Kind.closeOk, Kind.closeFail, Kind.configOff]) : k ∉ kinds tr := by
  simp only [List.mem_cons, List.not_mem_nil, or_false, not_or] at hk
  obtain ⟨hclose, hfail, hconfig⟩ := hk
  rcases h.kinds_eq with ⟨-, heq⟩ | ⟨-, heq⟩
  · simp [heq, hclose, hconfig]
  · simp [heq, hfail]

theorem Begins.kinds_eq {f f' : LlFtp} {msg : Msg} {tr : List Ev} {ret : RetCode}
    (h : Begins f msg tr ret f') :
    (kinds tr = [.openOk, .gettime, .uplink, .gettime, .configOn] ∧ f'.state = .segment) ∨
      (kinds tr = [.openFail, .uplink, .gettime] ∧ f'.state = f.state) := by
  cases h with
  | accepted hs => exact Or.inl ⟨by simp [hs.kinds_eq], rfl⟩
  | refused hne hs => exact Or.inr ⟨by simp [hs.kinds_eq, kind_open_fail hne], hs.state_eq⟩

theorem Receives.kinds_eq {f g : LlFtp} {msg : Msg} {tr : List Ev} {ret : RetCode}
    (h : Receives f msg tr ret g) : kinds tr = [.gettime, .write] := by
  obtain ⟨t, trw, rfl, hw⟩ := h.write
  cases hw with
  | stored _ => rfl
  | failed _ => rfl

/-- A verification is a row of reads, at least one. -/
theorem verify_kinds {f : LlFtp} {tr : List Ev} {ret : RetCode} (h : Runs (verifyFile f) tr ret) :
    ∃ n, kinds tr = List.replicate (n + 1) .read := by
  have hall : ∀ k ∈ kinds tr, k = .read := by
    intro k hk
    obtain ⟨ev, hev, rfl⟩ := List.mem_map.mp hk
    obtain ⟨offset, len, he⟩ := (verifyFile_only f).runs h ev hev
    obtain ⟨e, r⟩ := ev
    subst he
    rfl
  -- The first word of the header is read in any case.
  have hne : tr ≠ [] := by
    intro hnil
    subst hnil
    unfold verifyFile verifyFileInfo readWord at h
    simp at h
  have hlen : (kinds tr).length = tr.length - 1 + 1 := by
    have hpos := List.length_pos_iff.mpr hne
    rw [kinds, List.length_map]
    omega
  exact ⟨tr.length - 1, hlen ▸ List.eq_replicate_of_mem hall⟩

theorem ReopenFails.kinds_eq {f : LlFtp} {tr : List Ev} {ret : RetCode} (h : ReopenFails f tr ret) :
    kinds tr = [.closeFail] ∨ kinds tr = [.closeOk, .openFail] := by
  cases h with
  | close hne => exact Or.inl (by simp [kind_close_fail hne])
  | «open» hne => exact Or.inr (by simp [kind_open_fail hne])

/-! ## The skeleton -/

/-- What comes before the close that is to end a transfer. -/
inductive BeforeEnd : State → List Kind → Prop
  | cancel {s : State} : s ≠ .idle → BeforeEnd s []
  | giveUp {s : State} : s ≠ .idle → BeforeEnd s [.gettime]
  | applied : BeforeEnd .apply [.apply, .uplink, .gettime]
  | applyRefused : BeforeEnd .apply [.apply]
  | abandoned {n : Nat} {ks : List Kind} : ks = [.closeFail] ∨ ks = [.closeOk, .openFail] →
      BeforeEnd .segment ([.gettime, .write] ++ (List.replicate (n + 1) .read ++ .gettime :: ks))

/-- The state after an end the close refused: APPLY is left all the same. -/
def afterRefusedEnd : State → State
  | .apply => .idle
  | s => s

/-- The shapes of a step: the state before, the kinds of its calls, the state after. -/
inductive Shape : State → List Kind → State → Prop
  | nothing (s : State) : Shape s [] s
  | begin (s : State) : Shape s [.openOk, .gettime, .uplink, .gettime, .configOn] .segment
  | refused (s : State) : Shape s [.openFail, .uplink, .gettime] s
  | look {s : State} : s ≠ .idle → Shape s [.gettime] s
  | retry {s : State} : s ≠ .idle → Shape s [.gettime, .uplink, .gettime] s
  | request : Shape .segment [.uplink, .gettime] .segment
  | receive : Shape .segment [.gettime, .write] .segment
  | verified (n : Nat) :
      Shape .segment ([.gettime, .write] ++ (List.replicate (n + 1) .read ++
        [.closeOk, .uplink, .gettime])) .apply
  | stuck (n : Nat) :
      Shape .segment ([.gettime, .write] ++ (List.replicate (n + 1) .read ++ [.closeFail])) .idle
  | restarted (n : Nat) :
      Shape .segment ([.gettime, .write] ++ (List.replicate (n + 1) .read ++
        [.gettime, .closeOk, .openOk])) .segment
  | ended {s : State} {ks : List Kind} : BeforeEnd s ks →
      Shape s (ks ++ [.closeOk, .configOff]) .idle
  | endRefused {s : State} {ks : List Kind} : BeforeEnd s ks →
      Shape s (ks ++ [.closeFail]) (afterRefusedEnd s)

/-- Ending a transfer, whatever came before it. -/
theorem Closes.shape {f : LlFtp} {ks : List Kind} {tr : List Ev} {ret : RetCode}
    (h : Closes f tr ret) (hne : f.state ≠ .idle) (hb : BeforeEnd f.state ks) :
    Shape f.state (ks ++ kinds tr) (f.leave ret).state := by
  rcases h.kinds_eq with ⟨rfl, hk⟩ | ⟨hret, hk⟩
  · rw [hk]
    exact .ended hb
  · have hst : (f.leave ret).state = afterRefusedEnd f.state := by
      unfold LlFtp.leave
      cases hs : f.state with
      | idle => exact absurd hs hne
      | segment => simp [hret, hs, afterRefusedEnd]
      | apply => simp [afterRefusedEnd]
    rw [hk, hst]
    exact .endRefused hb

/-- **Every step has a shape.** -/
theorem msgStep_shape {f f' : LlFtp} {inp : Option RxBuf} {tr : List Ev} {ret : RetCode}
    (h : MsgStep f inp tr ret f') : Shape f.state (kinds tr) f'.state := by
  cases h with
  | rejected _ _ => exact .nothing _
  | ignored _ _ => exact .nothing _
  | start _ _ hb =>
    rcases hb.kinds_eq with ⟨hk, hst⟩ | ⟨hk, hst⟩
    · rw [hk, hst]
      exact .begin _
    · rw [hk, hst]
      exact .refused _
  | cancel _ hne _ _ hcl => exact hcl.shape hne (.cancel hne)
  | incomplete _ hrecv _ =>
    rw [hrecv.kinds_eq, hrecv.state, hrecv.state_eq]
    exact .receive
  | verified _ hrecv _ hv hs =>
    obtain ⟨n, hn⟩ := verify_kinds hv
    rw [kinds_append, kinds_append, kinds_cons, kind_close_ok, hrecv.kinds_eq, hn, hs.kinds_eq,
      hrecv.state]
    exact .verified n
  | stuck _ hrecv _ hv hne =>
    obtain ⟨n, hn⟩ := verify_kinds hv
    rw [kinds_append, kinds_append, kinds_cons, kinds_nil, hrecv.kinds_eq, hn, hrecv.state,
      kind_close_fail hne]
    exact .stuck n
  | @restarted _ _ _ _ _ g t _ hrecv _ hv _ =>
    obtain ⟨n, hn⟩ := verify_kinds hv
    rw [kinds_append, kinds_append, hrecv.kinds_eq, hn, hrecv.state,
      show (g.clearRxSegs.resetAt t).state = .segment from hrecv.state_eq]
    exact .restarted n
  | @abandoned msg tr tv tf tc ret v r c g t _ hrecv _ hv _ hfail hcl =>
    obtain ⟨n, hn⟩ := verify_kinds hv
    have hst : (g.clearRxSegs.resetAt t).state = .segment := hrecv.state_eq
    -- The reopen that failed has not left SEGMENT, so the transfer is ended from there.
    have hb : BeforeEnd (g.clearRxSegs.resetAt t).state
        ([.gettime, .write] ++ (List.replicate (n + 1) .read ++ .gettime :: kinds tf)) := by
      rw [hst]
      exact .abandoned hfail.kinds_eq
    have hsh := hcl.shape (by simp [hst]) hb
    rw [hst] at hsh
    rw [hrecv.state]
    have hks : kinds (tr ++ (tv ++ ⟨.gettime, t⟩ :: (tf ++ tc))) =
        [.gettime, .write] ++ (List.replicate (n + 1) .read ++ .gettime :: kinds tf) ++
          kinds tc := by
      rw [kinds_append, kinds_append, kinds_cons, kinds_append, hrecv.kinds_eq, hn]
      simp
    rw [hks]
    exact hsh
  | request _ hst _ _ hs =>
    rw [hs.kinds_eq, hs.state_eq, hst]
    exact .request
  | early _ hne _ _ => exact .look hne
  | @retry _ t _ ts f' _ hne _ _ _ _ hs =>
    rw [kinds_cons, hs.kinds_eq, show ({ f' with retryCount := f'.retryCount + 1 } : LlFtp).state =
      f.state from hs.state_eq]
    exact .retry hne
  | giveUp _ hne _ _ _ hcl => exact hcl.shape hne (.giveUp hne)
  | held _ hst _ _ => exact .look (by simp [hst])
  | @applied _ ts tr _ g _ hst _ _ hs hcl =>
    have hg : g.state = .apply := hs.state_eq.trans hst
    have hb : BeforeEnd g.state [.apply, .uplink, .gettime] := by
      rw [hg]
      exact .applied
    have hsh := hcl.shape (by simp [hg]) hb
    rw [hg] at hsh
    rw [kinds_cons, kinds_append, hs.kinds_eq, hst]
    exact hsh
  | applyRefused _ hst _ _ _ hcl =>
    have hb : BeforeEnd f.state [.apply] := by
      rw [hst]
      exact .applyRefused
    exact hcl.shape (by simp [hst]) hb

end HostInterface.Ftp

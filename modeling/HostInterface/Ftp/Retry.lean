import HostInterface.Ftp.Files

/-!
# Retries and giving up

In SEGMENT and APPLY the receiver is driven by ticks when nothing arrives. A tick
that finds the last message `LL_FTP_RETRY_INTERVAL` seconds back repeats the request or
the acknowledgement, `LL_FTP_MAX_NUM_RETRIES` times at most, and then gives the
transfer up. `TickStep` is all a tick can do. Three invariants of a run of ticks
follow from it:

* `Budget`: the uplinks sent and the retry counter add up, and a close comes when
  they are used up;
* `Paced`: whatever was sent lies before the time kept in `time_last_msg`, so what is sent
  when that is 16 seconds back lies 16 seconds behind it;
* once the file is closed the machine is in IDLE, where a tick does nothing.

When a call is made is not in the trace. A run is timed by any moments for its calls
that are in order and are what `gettime` returns where it is called (`Clocked`).
-/

namespace HostInterface.Ftp

open Interact Prog

/-- An input that the parser takes for a `TICK`: no buffer, or one of that type. -/
def IsTick (inp : Option RxBuf) : Prop :=
  (parseRxMsg inp).1 = .ok ∧ (parseRxMsg inp).2.msgType = .tick

instance (inp : Option RxBuf) : Decidable (IsTick inp) :=
  inferInstanceAs (Decidable (_ ∧ _))

/-- The ways a tick can take. -/
inductive TickStep (f : LlFtp) : List Ev → LlFtp → Prop
  | idle : f.state = .idle → TickStep f [] f
  | early {t : Time} : f.state ≠ .idle → TickStep f [⟨.gettime, t⟩] f
  | retry {t : Time} {ack : U8 × LlFtp} {ts : List Ev} {g : LlFtp} : f.state ≠ .idle →
      16 ≤ llDifftime f.timeLastMsg t → f.retryCount.toNat < 5 → Sent f ack ts g →
      TickStep f (⟨.gettime, t⟩ :: ts) { g with retryCount := g.retryCount + 1 }
  | giveUp {t : Time} {tc : List Ev} {ret : RetCode} : f.state ≠ .idle →
      16 ≤ llDifftime f.timeLastMsg t → ¬ f.retryCount.toNat < 5 → Closes f tc ret →
      TickStep f (⟨.gettime, t⟩ :: tc) (f.leave ret)

theorem MsgStep.tick {f f' : LlFtp} {inp : Option RxBuf} {tr : List Ev} {ret : RetCode}
    (h : MsgStep f inp tr ret f') (htick : IsTick inp) : TickStep f tr f' := by
  rcases h.tick_cases htick.1 htick.2 with ⟨hidle, rfl, rfl⟩ | ⟨hne, t, rfl, rfl⟩ |
    ⟨hne, hleft, t, ack, ts, g, hdue, -, hs, rfl, rfl⟩ | ⟨hne, hleft, t, tc, hdue, hcl, rfl, rfl⟩
  · exact .idle hidle
  · exact .early hne
  · exact .retry hne hdue hleft hs
  · exact .giveUp hne hdue hleft hcl

/-! ## The retry counter of every reachable object -/

/-- The counter stays within `LL_FTP_MAX_NUM_RETRIES`. -/
def CountInLimit (f : LlFtp) : Prop := f.retryCount.toNat ≤ 5

theorem CountInLimit.leave {f : LlFtp} (h : CountInLimit f) (ret : RetCode) :
    CountInLimit (f.leave ret) := by
  unfold LlFtp.leave
  split
  next => exact Nat.zero_le _
  next => exact h

/-- A transfer that could not be left is as it was. -/
theorem leave_stays {f : LlFtp} {ret : RetCode} (h : (f.leave ret).state ≠ .idle) :
    f.leave ret = f := by
  unfold LlFtp.leave at h ⊢
  split
  next hleave =>
    rw [if_pos hleave] at h
    exact absurd rfl h
  next => rfl

theorem Sent.retryCount_eq {f f' : LlFtp} {ack : U8 × LlFtp} {tr : List Ev} (h : Sent f ack tr f') :
    f'.retryCount = f.retryCount := by
  obtain ⟨r, t, -, rfl⟩ := h
  rfl

theorem CountInLimit.sent {f f' : LlFtp} {ack : U8 × LlFtp} {tr : List Ev} (h : CountInLimit f)
    (hs : Sent f ack tr f') : CountInLimit f' := by
  unfold CountInLimit
  rw [hs.retryCount_eq]
  exact h

/-- One more retry. -/
theorem toNat_retry {n : U8} (h : n.toNat < 5) : (n + 1).toNat = n.toNat + 1 := by
  rw [BitVec.toNat_add, show (1 : U8).toNat = 1 from rfl]
  omega

/-- The counter of an object that receives is reset. -/
theorem Receives.retryCount_eq {f g : LlFtp} {msg : Msg} {tr : List Ev} {ret : RetCode}
    (h : Receives f msg tr ret g) : g.retryCount = 0 := by
  obtain ⟨t, trw, -, hw⟩ := h.write
  cases hw with
  | stored htrack =>
    rw [segNumTrack_frame htrack]
    rfl
  | failed _ => rfl

theorem countInLimit_step {f f' : LlFtp} {inp : Option RxBuf} {tr : List Ev} {ret : RetCode}
    (h : MsgStep f inp tr ret f') (hpre : CountInLimit f) : CountInLimit f' := by
  have hzero : ∀ {g : LlFtp}, g.retryCount = 0 → CountInLimit g := by
    intro g hg
    unfold CountInLimit
    rw [hg]
    exact Nat.zero_le _
  cases h with
  | rejected _ _ => exact hpre
  | ignored _ _ => exact hpre
  | start _ _ hb =>
    cases hb with
    | accepted hs =>
      have hcount := hs.retryCount_eq
      exact hzero hcount
    | refused _ hs => exact hpre.sent hs
  | cancel _ _ _ _ _ => exact hpre.leave _
  | incomplete _ hr _ => exact hzero hr.retryCount_eq
  | verified _ hr _ _ hs =>
    have hcount := hs.retryCount_eq.trans hr.retryCount_eq
    exact hzero hcount
  | stuck _ hr _ _ _ =>
    have hcount := hr.retryCount_eq
    exact hzero hcount
  | restarted _ _ _ _ _ => exact hzero rfl
  | @abandoned _ _ _ _ _ _ _ _ _ g t _ _ _ _ _ _ _ =>
    have hclear : CountInLimit (g.clearRxSegs.resetAt t) := hzero rfl
    exact hclear.leave _
  | request _ _ _ _ hs => exact hpre.sent hs
  | early _ _ _ _ => exact hpre
  | retry _ _ _ _ hleft _ hs =>
    unfold CountInLimit
    dsimp only
    rw [hs.retryCount_eq, toNat_retry hleft]
    omega
  | giveUp _ _ _ _ _ _ => exact hpre.leave _
  | held _ _ _ _ => exact hzero rfl
  | applied _ _ _ _ hs _ => exact (hpre.sent hs).leave _
  | applyRefused _ _ _ _ _ _ => exact hpre.leave _

/-- The counter of every reachable object is within its limit. -/
theorem countInLimit {hist : List FtpStep} {f : LlFtp} (h : FtpRun hist f) : CountInLimit f :=
  h.always_of (C := fun _ => True) (fun _ _ => trivial) (fun _ => Nat.zero_le _)
    fun _ hv _ hpre => countInLimit_step (step_msgStep hv) hpre

/-! ## How many uplinks -/

/-- How many uplinks there are among the calls. -/
def uplinks (evs : List Ev) : Nat := (kinds evs).count .uplink

/-- A call of the close callback. -/
def IsClose (ev : Ev) : Prop := kind ev = .closeOk ∨ kind ev = .closeFail

theorem uplinks_append (evs evs' : List Ev) :
    uplinks (evs ++ evs') = uplinks evs + uplinks evs' := by
  simp [uplinks, List.count_append]

theorem uplinks_eq_zero {evs : List Ev} (h : Kind.uplink ∉ kinds evs) : uplinks evs = 0 :=
  List.count_eq_zero.mpr h

/-- The part of an appended trace in which a call lies. -/
theorem split_append {α : Type} {l l' before after : List α} {a : α}
    (h : l ++ l' = before ++ a :: after) :
    (∃ rest, l = before ++ a :: rest) ∨ ∃ before', before = l ++ before' ∧
      l' = before' ++ a :: after := by
  rcases List.append_eq_append_iff.mp h with ⟨m, hb, hl'⟩ | ⟨m, hl, ha⟩
  · exact Or.inr ⟨m, hb, hl'⟩
  · cases m with
    | nil =>
      rw [List.append_nil] at hl
      rw [List.nil_append] at ha
      exact Or.inr ⟨[], by rw [hl, List.append_nil], ha.symm⟩
    | cons b m =>
      rw [List.cons_append, List.cons.injEq] at ha
      obtain ⟨rfl, rfl⟩ := ha
      exact Or.inl ⟨m, hl⟩

/-- A call is in front of a close only if it is none itself, as long as there is one close. -/
theorem not_close_of_kinds {evs before after : List Ev} {ev : Ev}
    (h : evs = before ++ ev :: after) (hclose : IsClose ev) :
    Kind.closeOk ∈ kinds evs ∨ Kind.closeFail ∈ kinds evs := by
  rw [h, kinds_append, kinds_cons]
  rcases hclose with hk | hk
  · exact Or.inl (by simp [hk])
  · exact Or.inr (by simp [hk])

/-- From a counter of `r`: what ticks have sent so far and what the counter says add up,
and a close comes when all retries are used up. -/
structure Budget (r : Nat) (evs : List Ev) (f : LlFtp) : Prop where
  limit : f.retryCount.toNat ≤ 5
  spent : uplinks evs + r ≤ 5
  count : f.state ≠ .idle → uplinks evs + r = f.retryCount.toNat
  close : ∀ before ev after, evs = before ++ ev :: after → IsClose ev → uplinks before + r = 5

theorem Budget.more {r : Nat} {evs tr : List Ev} {f f' : LlFtp} (h : Budget r evs f)
    (hstep : TickStep f tr f') : Budget r (evs ++ tr) f' := by
  -- No close is among the new calls, or it is one with all retries used up before.
  have hclose : (∀ before ev after, tr = before ++ ev :: after → IsClose ev →
        uplinks evs + uplinks before + r = 5) →
      ∀ before ev after, evs ++ tr = before ++ ev :: after → IsClose ev →
        uplinks before + r = 5 := by
    intro hnew before ev after heq hev
    rcases split_append heq with ⟨rest, hold⟩ | ⟨before', rfl, hnew'⟩
    · exact h.close before ev rest hold hev
    · rw [uplinks_append]
      exact hnew before' ev after hnew' hev
  have hnone : Kind.closeOk ∉ kinds tr → Kind.closeFail ∉ kinds tr →
      ∀ before ev after, tr = before ++ ev :: after → IsClose ev →
        uplinks evs + uplinks before + r = 5 := by
    intro hno hno' before ev after heq hev
    rcases not_close_of_kinds heq hev with hk | hk
    · exact absurd hk hno
    · exact absurd hk hno'
  cases hstep with
  | idle hidle =>
    rw [List.append_nil]
    exact h
  | @early t hne =>
    have hsame : uplinks (evs ++ [⟨.gettime, t⟩]) = uplinks evs :=
      uplinks_append evs [⟨.gettime, t⟩]
    exact ⟨h.limit, hsame ▸ h.spent, hsame ▸ h.count, hclose (hnone (by simp) (by simp))⟩
  | @retry t ack ts g hne _ hleft hs =>
    have hcount := h.count hne
    have hone : uplinks (evs ++ ⟨.gettime, t⟩ :: ts) = uplinks evs + 1 := by
      rw [uplinks_append]
      unfold uplinks
      rw [kinds_cons, hs.kinds_eq]
      rfl
    have hnext : (g.retryCount + 1).toNat = f.retryCount.toNat + 1 := by
      rw [hs.retryCount_eq]
      exact toNat_retry hleft
    refine ⟨?_, ?_, fun _ => ?_, hclose (hnone ?_ ?_)⟩
    · rw [hnext]
      omega
    · rw [hone]
      omega
    · rw [hone]
      dsimp only
      rw [hnext]
      omega
    · simp [hs.kinds_eq]
    · simp [hs.kinds_eq]
  | @giveUp t tc ret hne _ hleft hcl =>
    have hfull : uplinks evs + r = 5 := by
      have hcount := h.count hne
      have hlimit := h.limit
      omega
    have hzero : uplinks (⟨.gettime, t⟩ :: tc) = 0 := by
      refine uplinks_eq_zero ?_
      rw [kinds_cons, kind_gettime]
      simp [hcl.not_mem (k := .uplink) (by decide)]
    refine ⟨CountInLimit.leave h.limit ret, ?_, fun hstay => ?_, hclose ?_⟩
    · rw [uplinks_append, hzero]
      exact Nat.le_of_eq hfull
    · rw [leave_stays hstay, uplinks_append, hzero]
      exact h.count hne
    · intro before ev after heq _
      have hle : uplinks before ≤ uplinks (⟨.gettime, t⟩ :: tc) := by
        rw [heq, uplinks_append]
        exact Nat.le_add_right _ _
      omega

/-- The calls of one more step. -/
theorem allEvents_snoc (hist : List FtpStep) (st : FtpStep) :
    allEvents (hist ++ [st]) = allEvents hist ++ st.events := by
  simp [allEvents]

/-- A run of ticks keeps the budget. -/
theorem budget {f f' : LlFtp} {ticks : List FtpStep} (hrun : Run msgProcess f ticks f')
    (hticks : ∀ st ∈ ticks, IsTick st.input) (hlimit : CountInLimit f) :
    Budget f.retryCount.toNat (allEvents ticks) f' := by
  refine hrun.invariant (P := fun ticks g => (∀ st ∈ ticks, IsTick st.input) →
    Budget f.retryCount.toNat (allEvents ticks) g) ?_ ?_ hticks
  · intro _
    have hnone : uplinks (allEvents []) + f.retryCount.toNat = f.retryCount.toNat :=
      Nat.zero_add _
    refine ⟨hlimit, hnone.symm ▸ hlimit, fun _ => hnone, ?_⟩
    intro before ev after heq
    simp [allEvents] at heq
  · intro hist st hv ih hticks
    rw [allEvents_snoc]
    have hpre := ih fun st' hst' => hticks st' (List.mem_append_left _ hst')
    exact hpre.more ((step_msgStep hv).tick (hticks st (by simp)))

/-! ## How far apart -/

/-- Moments for the calls of a trace: they do not decrease, they are less than `2 ^ 31` seconds
apart, and `gettime` returns its own. -/
structure Clocked (tl : List (Ev × Time)) : Prop where
  mono : tl.Pairwise fun x y => x.2.Le y.2
  near : ∀ x ∈ tl, ∀ y ∈ tl, y.2.tvSec - x.2.tvSec < 0x80000000
  read : ∀ (t m : Time), (⟨.gettime, t⟩, m) ∈ tl → t = m

/-- Whatever is sent or closed after an uplink is 16 seconds behind it. -/
def Spaced (tl : List (Ev × Time)) : Prop :=
  tl.Pairwise fun x y => kind x.1 = .uplink → kind y.1 = .uplink ∨ IsClose y.1 →
    16 ≤ llDifftime x.2 y.2

/-- All uplinks so far lie before the time the object keeps. -/
def SentBefore (tl : List (Ev × Time)) (last : Time) : Prop :=
  ∀ x ∈ tl, kind x.1 = .uplink → ∃ y ∈ tl, y.2 = last ∧ x.2.Le y.2

theorem Clocked.left {tl tl' : List (Ev × Time)} (h : Clocked (tl ++ tl')) : Clocked tl :=
  ⟨(List.pairwise_append.mp h.mono).1,
    fun x hx y hy => h.near x (List.mem_append_left _ hx) y (List.mem_append_left _ hy),
    fun t m hm => h.read t m (List.mem_append_left _ hm)⟩

/-- What is called from a due tick on is 16 seconds behind every uplink before it. -/
theorem Clocked.due {tl tl' : List (Ev × Time)} {t m last : Time}
    (h : Clocked (tl ++ (⟨.gettime, t⟩, m) :: tl')) (hlast : SentBefore tl last)
    (hdue : 16 ≤ llDifftime last t) {x z : Ev × Time} (hx : x ∈ tl) (hup : kind x.1 = .uplink)
    (hz : z ∈ tl') : 16 ≤ llDifftime x.2 z.2 := by
  obtain ⟨y, hy, rfl, hxy⟩ := hlast x hx hup
  obtain ⟨-, hmono, hcross⟩ := List.pairwise_append.mp h.mono
  obtain rfl := h.read t m (by simp)
  have hyt := hcross y hy _ (List.mem_cons_self ..)
  have htz := (List.pairwise_cons.mp hmono).1 z hz
  have hnear := h.near x (List.mem_append_left _ hx) z
    (List.mem_append_right _ (List.mem_cons_of_mem _ hz))
  exact Int.le_trans hdue (llDifftime_mono hxy hyt htz hnear)

/-- The timed calls of a run of ticks: spaced, and in a transfer all uplinks lie before the
time the object keeps. -/
structure Paced (tl : List (Ev × Time)) (f : LlFtp) : Prop where
  spaced : Spaced tl
  before : f.state ≠ .idle → SentBefore tl f.timeLastMsg

/-- Calls without an uplink are spaced. -/
theorem spaced_of_kinds {tl : List (Ev × Time)} (h : Kind.uplink ∉ kinds (tl.map Prod.fst)) :
    Spaced tl := by
  refine List.pairwise_of_forall_mem_list fun x hx y _ hup => absurd ?_ h
  rw [← hup]
  exact List.mem_map_of_mem (List.mem_map_of_mem hx)

/-- Calls that send and close nothing follow whatever there was. -/
theorem Paced.idle_calls {tl tl' : List (Ev × Time)} {f : LlFtp} (h : Paced tl f)
    (hnone : ∀ x ∈ tl', kind x.1 = .gettime) : Paced (tl ++ tl') f := by
  refine ⟨List.pairwise_append.mpr ⟨h.spaced, ?_, ?_⟩, fun hne x hx hup => ?_⟩
  · refine List.pairwise_of_forall_mem_list fun x hx y _ hup => ?_
    rw [hnone x hx] at hup
    cases hup
  · intro x _ y hy _ hout
    unfold IsClose at hout
    simp [hnone y hy] at hout
  · rcases List.mem_append.mp hx with hx | hx
    · obtain ⟨y, hy, hlast, hle⟩ := h.before hne x hx hup
      exact ⟨y, List.mem_append_left _ hy, hlast, hle⟩
    · rw [hnone x hx] at hup
      cases hup

theorem Paced.more {tl tl' : List (Ev × Time)} {f f' : LlFtp} {tr : List Ev} (h : Paced tl f)
    (hstep : TickStep f tr f') (hclock : Clocked (tl ++ tl')) (htr : tl'.map Prod.fst = tr) :
    Paced (tl ++ tl') f' := by
  cases hstep with
  | idle hidle => exact h.idle_calls (by simp [List.map_eq_nil_iff.mp htr])
  | @early t hne =>
    refine h.idle_calls fun x hx => ?_
    have hmem := List.mem_map_of_mem (f := Prod.fst) hx
    rw [htr, List.mem_singleton] at hmem
    rw [hmem, kind_gettime]
  | @retry t ack ts g hne hdue hleft hs =>
    obtain ⟨r, t', rfl, rfl⟩ := hs
    -- The clock is read, the uplink goes out, the clock is read again.
    obtain ⟨⟨e₀, m₀⟩, tl₁, rfl, rfl, htr₁⟩ := List.map_eq_cons_iff.mp htr
    obtain ⟨⟨e₁, m₁⟩, tl₂, rfl, rfl, htr₂⟩ := List.map_eq_cons_iff.mp htr₁
    obtain ⟨⟨e₂, m₂⟩, tl₃, rfl, rfl, htr₃⟩ := List.map_eq_cons_iff.mp htr₂
    obtain rfl := List.map_eq_nil_iff.mp htr₃
    have hm₂ : t' = m₂ := hclock.read t' m₂ (by simp)
    refine ⟨List.pairwise_append.mpr ⟨h.spaced, ?_, ?_⟩, fun _ x hx hup => ?_⟩
    · simp [IsClose]
    · intro x hx z hz hup hout
      rcases List.mem_cons.mp hz with rfl | hz
      · simp [IsClose] at hout
      · exact hclock.due (h.before hne) hdue hx hup hz
    · refine ⟨(⟨.gettime, t'⟩, m₂), List.mem_append_right _ (by simp), hm₂.symm, ?_⟩
      have hmono := hclock.mono
      rw [List.append_cons, List.append_cons] at hmono
      refine (List.pairwise_append.mp hmono).2.2 x ?_ _ (List.mem_singleton.mpr rfl)
      simp only [List.mem_append, List.mem_cons, List.not_mem_nil, or_false] at hx ⊢
      rcases hx with hx | rfl | rfl | rfl
      · exact Or.inl (Or.inl hx)
      · exact Or.inl (Or.inr rfl)
      · exact Or.inr rfl
      · simp at hup
  | @giveUp t tc ret hne hdue hleft hcl =>
    have hnone : Kind.uplink ∉ kinds (tl'.map Prod.fst) := by
      rw [htr, kinds_cons, kind_gettime]
      simp [hcl.not_mem (k := .uplink) (by decide)]
    obtain ⟨⟨e₀, m₀⟩, tl₁, rfl, rfl, htr₁⟩ := List.map_eq_cons_iff.mp htr
    refine ⟨List.pairwise_append.mpr ⟨h.spaced, spaced_of_kinds hnone, ?_⟩, fun hstay => ?_⟩
    · intro x hx z hz hup hout
      rcases List.mem_cons.mp hz with rfl | hz
      · simp [IsClose] at hout
      · exact hclock.due (h.before hne) hdue hx hup hz
    · rw [leave_stays hstay]
      intro x hx hup
      rcases List.mem_append.mp hx with hx | hx
      · obtain ⟨y, hy, hlast, hle⟩ := h.before hne x hx hup
        exact ⟨y, List.mem_append_left _ hy, hlast, hle⟩
      · refine absurd ?_ hnone
        rw [← hup]
        exact List.mem_map_of_mem (List.mem_map_of_mem hx)

/-- A timed run of ticks is paced. -/
theorem paced {f f' : LlFtp} {ticks : List FtpStep} (hrun : Run msgProcess f ticks f')
    (hticks : ∀ st ∈ ticks, IsTick st.input) {tl : List (Ev × Time)}
    (htl : tl.map Prod.fst = allEvents ticks) (hclock : Clocked tl) : Paced tl f' := by
  refine hrun.invariant (P := fun ticks g => (∀ st ∈ ticks, IsTick st.input) →
    ∀ tl : List (Ev × Time), tl.map Prod.fst = allEvents ticks → Clocked tl → Paced tl g) ?_ ?_
    hticks tl htl hclock
  · intro _ tl htl _
    obtain rfl : tl = [] := List.map_eq_nil_iff.mp htl
    exact ⟨List.Pairwise.nil, fun _ x hx => by cases hx⟩
  · intro hist st hv ih hticks tl htl hclock
    rw [allEvents_snoc] at htl
    obtain ⟨tl₁, tl₂, rfl, htl₁, htl₂⟩ := List.map_eq_append_iff.mp htl
    have hpre := ih (fun st' hst' => hticks st' (List.mem_append_left _ hst')) tl₁ htl₁ hclock.left
    exact hpre.more ((step_msgStep hv).tick (hticks st (by simp))) hclock htl₂

/-! ## After the close -/

/-- In IDLE a tick does nothing. -/
theorem TickStep.silent {f f' : LlFtp} {tr : List Ev} (h : TickStep f tr f')
    (hidle : f.state = .idle) : tr = [] ∧ f' = f := by
  cases h with
  | idle _ => exact ⟨rfl, rfl⟩
  | early hne => exact absurd hidle hne
  | retry hne _ _ _ => exact absurd hidle hne
  | giveUp hne _ _ _ => exact absurd hidle hne

/-- A tick that closes the file leads to IDLE. -/
theorem TickStep.closed {f f' : LlFtp} {tr : List Ev} (h : TickStep f tr f')
    (hclose : Kind.closeOk ∈ kinds tr) : f'.state = .idle := by
  cases h with
  | idle _ => simp at hclose
  | early _ => simp at hclose
  | retry _ _ _ hs => simp [hs.kinds_eq] at hclose
  | giveUp _ _ _ hcl =>
    rcases hcl.kinds_eq with ⟨rfl, -⟩ | ⟨-, hk⟩
    · unfold LlFtp.leave
      rw [if_pos (Or.inl rfl), reinit_state]
    · simp [hk] at hclose

/-- A run of ticks makes no call after the file is closed. -/
theorem silent_run {f f' : LlFtp} {ticks : List FtpStep} (hrun : Run msgProcess f ticks f')
    (hticks : ∀ st ∈ ticks, IsTick st.input) {i : Nat} {st : FtpStep} (hi : ticks[i]? = some st)
    (hclose : Kind.closeOk ∈ kinds st.events) :
    f'.state = .idle ∧ st.post.state = .idle ∧ ∀ st' ∈ ticks.drop (i + 1), st'.events = [] := by
  refine hrun.invariant (P := fun ticks g => (∀ st ∈ ticks, IsTick st.input) →
    ∀ (i : Nat) (st : FtpStep), ticks[i]? = some st → Kind.closeOk ∈ kinds st.events →
      g.state = .idle ∧ st.post.state = .idle ∧ ∀ st' ∈ ticks.drop (i + 1), st'.events = [])
    ?_ ?_ hticks i st hi hclose
  · intro _ i st hi
    simp at hi
  · intro hist last hv ih hticks i st hi hclose
    have htick := (step_msgStep hv).tick (hticks last (by simp))
    rcases Nat.lt_or_ge i hist.length with hlt | hge
    · -- Closed before: the last tick finds IDLE.
      rw [List.getElem?_append_left hlt] at hi
      obtain ⟨hidle, hpost, hrest⟩ :=
        ih (fun st' hst' => hticks st' (List.mem_append_left _ hst')) i st hi hclose
      obtain ⟨hnone, hsame⟩ := htick.silent hidle
      refine ⟨hsame ▸ hidle, hpost, fun st' hst' => ?_⟩
      rw [List.drop_append_of_le_length (by omega)] at hst'
      rcases List.mem_append.mp hst' with hin | hin
      · exact hrest st' hin
      · rw [List.mem_singleton.mp hin]
        exact hnone
    · have hlen := (List.getElem?_eq_some_iff.mp hi).1
      rw [List.length_append, List.length_singleton] at hlen
      obtain rfl : i = hist.length := by omega
      rw [List.getElem?_append_right (Nat.le_refl _), Nat.sub_self,
        List.getElem?_cons_zero, Option.some.injEq] at hi
      subst hi
      have hidle := htick.closed hclose
      refine ⟨hidle, hidle, fun st' hst' => ?_⟩
      rw [List.drop_of_length_le (by simp)] at hst'
      cases hst'

/-- **Retry discipline.** From a reachable object with the retry counter at `r`, ticks send
at most `5 - r` uplinks; the file is closed after exactly that many; all of these are 16
seconds apart; and once the file is closed nothing is called any more. -/
theorem retry_discipline {hist : List FtpStep} {f f' : LlFtp} {ticks : List FtpStep}
    (h : FtpRun hist f) (hrun : Run msgProcess f ticks f')
    (hticks : ∀ st ∈ ticks, IsTick st.input) :
    f.retryCount.toNat ≤ 5 ∧ (∀ st ∈ ticks, st.post.retryCount.toNat ≤ 5) ∧
      uplinks (allEvents ticks) ≤ 5 - f.retryCount.toNat ∧
      (∀ before ev after, allEvents ticks = before ++ ev :: after → IsClose ev →
        uplinks before = 5 - f.retryCount.toNat) ∧
      (∀ tl : List (Ev × Time), tl.map Prod.fst = allEvents ticks → Clocked tl → Spaced tl) ∧
      ∀ i st, ticks[i]? = some st → Kind.closeOk ∈ kinds st.events →
        st.post.state = .idle ∧ ∀ st' ∈ ticks.drop (i + 1), st'.events = [] := by
  have hlimit := countInLimit h
  have hbudget := budget hrun hticks hlimit
  refine ⟨hlimit, ?_, ?_, ?_, ?_, ?_⟩
  · intro st hst
    obtain ⟨⟨ticks', hrun', -⟩, hv⟩ := hrun.mem hst
    have hpre : CountInLimit st.pre :=
      hrun'.always hlimit fun _ hv' => countInLimit_step (step_msgStep hv')
    exact countInLimit_step (step_msgStep hv) hpre
  · have hspent := hbudget.spent
    omega
  · intro before ev after heq hev
    have hfull := hbudget.close before ev after heq hev
    omega
  · intro tl htl hclock
    exact (paced hrun hticks htl hclock).spaced
  · intro i st hi hclose
    exact (silent_run hrun hticks hi hclose).2

/-! ## A run of ticks -/

/-- The time of a call that comes after the reading `now`. -/
def reading (now : Time) : Ev → Time
  | ⟨.gettime, t⟩ => t
  | _ => now

/-- A trace timed by its own readings of the clock: each call at the last reading. -/
def stamp (now : Time) : List Ev → List (Ev × Time)
  | [] => []
  | ev :: evs => (ev, reading now ev) :: stamp (reading now ev) evs

theorem map_stamp (now : Time) (evs : List Ev) : (stamp now evs).map Prod.fst = evs := by
  induction evs generalizing now with
  | nil => rfl
  | cons ev evs ih => rw [stamp, List.map_cons, ih]

/-- Where the readings are in order, they time the trace. -/
theorem clocked_stamp {now : Time} {evs : List Ev}
    (hmono : (stamp now evs).Pairwise fun x y => x.2.Le y.2)
    (hnear : ∀ x ∈ stamp now evs, ∀ y ∈ stamp now evs, y.2.tvSec - x.2.tvSec < 0x80000000) :
    Clocked (stamp now evs) := by
  refine ⟨hmono, hnear, fun t m hmem => ?_⟩
  clear hmono hnear
  induction evs generalizing now with
  | nil => cases hmem
  | cons ev evs ih =>
    rcases List.mem_cons.mp hmem with heq | hmem
    · obtain ⟨rfl, rfl⟩ := Prod.mk.inj heq
      rfl
    · exact ih hmem

instance (a b : Time) : Decidable (a.Le b) :=
  inferInstanceAs (Decidable (_ ∨ _ ∧ _))

/-- Every callback returns OK, and the clock goes on by 16 seconds each time. -/
def Policy.ticking : Policy :=
  { Policy.willing with clock := fun n => ⟨16 * n, 0⟩ }

/-- The smallest file is announced and nothing else arrives: five requests, the close, and
one more tick in IDLE. -/
theorem retry_discipline_tiny :
    let f := demoEnd .ticking [some tinyInit]
    ∃ ticks f', Run msgProcess f ticks f' ∧ ticks.length = 7 ∧ uplinks (allEvents ticks) = 5 ∧
      Spaced (stamp ⟨0, 0⟩ (allEvents ticks)) ∧
      f.retryCount.toNat ≤ 5 ∧ (∀ st ∈ ticks, st.post.retryCount.toNat ≤ 5) ∧
      uplinks (allEvents ticks) ≤ 5 - f.retryCount.toNat ∧
      (∀ before ev after, allEvents ticks = before ++ ev :: after → IsClose ev →
        uplinks before = 5 - f.retryCount.toNat) ∧
      ∀ i st, ticks[i]? = some st → Kind.closeOk ∈ kinds st.events →
        st.post.state = .idle ∧ ∀ st' ∈ ticks.drop (i + 1), st'.events = [] := by
  intro f
  have hrun₀ : FtpRun (demoHist .ticking [some tinyInit]) f := demo_run (by decide +kernel)
  have hany : (execAll msgProcess (storage .ticking) f (List.replicate 7 none)
      { World.empty with looks := 2 }).any (fun x =>
        x.1.length = 7 ∧ (∀ st ∈ x.1, IsTick st.input) ∧ uplinks (allEvents x.1) = 5 ∧
        (stamp ⟨0, 0⟩ (allEvents x.1)).Pairwise (fun x y => x.2.Le y.2) ∧
        ∀ x' ∈ stamp ⟨0, 0⟩ (allEvents x.1), ∀ y ∈ stamp ⟨0, 0⟩ (allEvents x.1),
          y.2.tvSec - x'.2.tvSec < 0x80000000) = true := by
    decide +kernel
  obtain ⟨⟨ticks, f', w⟩, hx, hall⟩ := (Option.any_eq_true _ _).mp hany
  obtain ⟨hlen, hticks, hup, hmono, hnear⟩ := of_decide_eq_true hall
  have hrun : Run msgProcess f ticks f' := execAll_run .nil hx
  obtain ⟨hr, hposts, hcount, hclose, hspaced, hsilent⟩ := retry_discipline hrun₀ hrun hticks
  exact ⟨ticks, f', hrun, hlen, hup, hspaced _ (map_stamp _ _) (clocked_stamp hmono hnear), hr,
    hposts, hcount, hclose, hsilent⟩

end HostInterface.Ftp

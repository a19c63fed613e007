import HostInterface.Interact.Loop
import HostInterface.Ifc.Packet

/-!
# The serial port of a PC (`ll_ifc_transport_pc.c`, `ll_ifc_time_pc.c`)

On Linux, `transport_read` waits with `select` and takes what `read` gives, until it has all
the bytes it was asked for. The system calls are the calls of a `PcM`, and of them only the
manual is assumed: a `read` that does not fail has stored as many bytes as it returns, and no
more than it was asked for.

The functions are what the rest of the library calls; `pcTransport` puts them in the place of
these calls. That `transport_read` returns 0 only with its buffer full is a field of what it
returns. `transportRead_received` says where the bytes come from, whatever the system answers.

What `*tp` holds where `gettime` fails is an argument.
-/

namespace HostInterface.Pc

open Interact Prog Ifc

/-- What `read` returns, and what it has stored at the start of the buffer. -/
structure SysRead (len : Nat) where
  ret : Int
  stored : List U8
  fits : stored.length ≤ len
  counts : 0 ≤ ret → ret = stored.length

/-- A result of -1. -/
def SysRead.failed {len : Nat} : SysRead len :=
  ⟨-1, [], Nat.zero_le _, fun h => absurd h (by decide)⟩

theorem SysRead.failed_ret {len : Nat} : (SysRead.failed : SysRead len).ret < 0 := by
  show (-1 : Int) < 0
  decide

/-- `struct timeval`. -/
structure Timeval where
  tvSec : Int
  tvUsec : Int

/-- The system calls; the descriptor is always the one of the serial port. -/
inductive Sys where
  | write (buf : List U8)
  | select (sec : Nat)
  | read (len : Nat)
  | gettimeofday
  | nanosleep (tvSec tvNsec : Int)

/-- What comes back; for `gettimeofday` the return value and what `now` holds afterwards. -/
abbrev SysReply : Sys → Type
  | .write _ => Int
  | .select _ => Int
  | .read len => SysRead len
  | .gettimeofday => Int × Timeval
  | .nanosleep _ _ => Int

abbrev PcM := Prog SysReply

/-- `transport_write`. -/
def transportWrite (buf : List U8) : PcM Int :=
  .call (.write buf) fun ret => .done ret

/-- `read_with_timeout`. -/
def readWithTimeout (len sec : Nat) : PcM (SysRead len) :=
  .call (.select sec) fun ret =>
    if ret = -1 then .done .failed
    else if ret = 0 then .done .failed
    else .call (.read len) fun r => .done r

/-- The start of the buffer that is filled: `bytes_read` is its length. -/
structure Got (len : Nat) where
  bytes : List U8
  fits : bytes.length ≤ len

namespace Got

variable {len : Nat} (got : Got len)

theorem more_fits (r : SysRead (len - got.bytes.length)) :
    (got.bytes ++ r.stored).length ≤ len := by
  have h₁ := got.fits
  have h₂ := r.fits
  rw [List.length_append]
  omega

/-- What a further read adds. -/
def more (r : SysRead (len - got.bytes.length)) : Got len :=
  ⟨got.bytes ++ r.stored, got.more_fits r⟩

/-- The result where a read fails. -/
def failed (r : SysRead (len - got.bytes.length)) (h : r.ret < 0) : ReadReply len :=
  ⟨r.ret, got.bytes ++ r.stored, got.more_fits r, fun h₀ => absurd h₀ (Int.ne_of_lt h)⟩

/-- The result where the buffer is full. -/
def complete (h : ¬ got.bytes.length < len) : ReadReply len :=
  ⟨0, got.bytes, got.fits, fun _ => Nat.le_antisymm got.fits (Nat.le_of_not_lt h)⟩

end Got

/-- Nothing has been read yet. -/
def Got.nothing (len : Nat) : Got len :=
  ⟨[], Nat.zero_le len⟩

/-- One turn of the loop of `transport_read`. -/
def transportReadTurn {len : Nat} (got : Got len) : PcM (Turn (ReadReply len) (Got len)) := do
  -- Read with a timeout of 3.0 seconds
  let r ← readWithTimeout (len - got.bytes.length) 3
  if h : r.ret < 0 then return .stop (got.failed r h)
  else if h : (got.more r).bytes.length < len then return .next (got.more r)
  else return .stop ((got.more r).complete h)

/-- `transport_read`. -/
def transportRead (fuel : Nat) (len : U16) : PcM (ReadReply len.toNat) :=
  iterate transportReadTurn fuel (.nothing len.toNat)

/-- `gettime`; `tp` is what `*tp` holds before. -/
def gettime (tp : Time) : PcM (Int × Time) :=
  .call .gettimeofday fun now =>
    if now.1 ≠ 0 then .done (now.1, tp)
    else .done (0, ⟨now.2.tvSec, now.2.tvUsec * 1000⟩)

/-- `sleep_ms`. -/
def sleepMs (millis : Int) : PcM Int :=
  .call (.nanosleep (millis.tdiv 1000) (millis.tmod 1000 * 1000)) fun ret => .done ret

/-- The functions of the two files, as what the library calls. -/
def pcTransport (fuel : Nat) (tp : Time) : (e : Call) → PcM (Reply e)
  | .transportWrite buf => transportWrite buf
  | .transportRead len => transportRead fuel len
  | .gettime => gettime tp

/-! ## Where the bytes come from -/

/-- The bytes of the reads of a trace, in order. -/
def received : List (Event SysReply) → List U8
  | [] => []
  | ⟨.read _, r⟩ :: tr => r.stored ++ received tr
  | _ :: tr => received tr

/-- Each read of a trace asks for what is then missing of so many bytes. -/
def AsksForRest : Nat → List (Event SysReply) → Prop
  | _, [] => True
  | missing, ⟨.read n, r⟩ :: tr => n = missing ∧ AsksForRest (missing - r.stored.length) tr
  | missing, _ :: tr => AsksForRest missing tr

theorem received_append (tr tr' : List (Event SysReply)) :
    received (tr ++ tr') = received tr ++ received tr' := by
  induction tr with
  | nil => rfl
  | cons ev tr ih =>
    obtain ⟨e, r⟩ := ev
    cases e with
    | read n => exact (congrArg (r.stored ++ ·) ih).trans (List.append_assoc ..).symm
    | write _ => exact ih
    | select _ => exact ih
    | gettimeofday => exact ih
    | nanosleep _ _ => exact ih

/-- A wait and, where there is something, a read. -/
theorem readWithTimeout_runs {len sec : Nat} {tr : List (Event SysReply)} {r : SysRead len} :
    Runs (readWithTimeout len sec) tr r ↔ ∃ ready : Int,
      (ready = -1 ∨ ready = 0) ∧ tr = [⟨.select sec, ready⟩] ∧ r = .failed ∨
        ready ≠ -1 ∧ ready ≠ 0 ∧ tr = [⟨.select sec, ready⟩, ⟨.read len, r⟩] := by
  unfold readWithTimeout
  rw [runs_call]
  constructor
  · intro h
    obtain ⟨ready, tr', rfl, h⟩ := h
    refine ⟨ready, ?_⟩
    split at h
    next hready =>
      obtain ⟨rfl, rfl⟩ := runs_done.mp h
      exact .inl ⟨.inl hready, rfl, rfl⟩
    next hready =>
      split at h
      next hzero =>
        obtain ⟨rfl, rfl⟩ := runs_done.mp h
        exact .inl ⟨.inr hzero, rfl, rfl⟩
      next hzero =>
        obtain ⟨r', tr'', rfl, hread⟩ := runs_call.mp h
        obtain ⟨rfl, rfl⟩ := runs_done.mp hread
        exact .inr ⟨hready, hzero, rfl⟩
  · rintro ⟨ready, ⟨hready, rfl, rfl⟩ | ⟨hready, hzero, rfl⟩⟩
    · refine ⟨ready, [], rfl, ?_⟩
      rcases hready with rfl | rfl
      · exact .done _
      · exact .done _
    · refine ⟨ready, [⟨.read len, r⟩], rfl, ?_⟩
      rw [if_neg hready, if_neg hzero]
      exact .call (.done _)

/-- The call has failed, or there was nothing to read in time. -/
def Failing : Event SysReply → Prop
  | ⟨.select _, ready⟩ => ready = (-1 : Int) ∨ ready = (0 : Int)
  | ⟨.read _, r⟩ => r.ret < 0
  | _ => False

theorem asksForRest_append {missing : Nat} {tr tr' : List (Event SysReply)} :
    AsksForRest missing (tr ++ tr') ↔
      AsksForRest missing tr ∧ AsksForRest (missing - (received tr).length) tr' := by
  induction tr generalizing missing with
  | nil => exact (iff_of_eq (true_and _)).symm
  | cons ev tr ih =>
    obtain ⟨e, r⟩ := ev
    cases e with
    | read n =>
      have hlen : missing - (received (⟨.read n, r⟩ :: tr)).length =
          missing - r.stored.length - (received tr).length := by
        show missing - (r.stored ++ received tr).length = _
        rw [List.length_append]
        omega
      rw [hlen]
      exact (and_congr_right fun _ => ih).trans and_assoc.symm
    | write _ => exact ih
    | select _ => exact ih
    | gettimeofday => exact ih
    | nanosleep _ _ => exact ih

/-- What the loop has come to: it holds what has been read, each read was for the rest, and none
has failed. -/
structure Filling {len : Nat} (got : Got len) (tr : List (Event SysReply)) : Prop where
  bytes : got.bytes = received tr
  asks : AsksForRest len tr
  fine : ∀ ev ∈ tr, ¬ Failing ev

/-- How a turn with the calls `tr` ends. -/
def TurnEnd {len : Nat} (got : Got len) (tr : List (Event SysReply)) :
    Turn (ReadReply len) (Got len) → Prop
  | .next got' => got'.bytes = got.bytes ++ received tr ∧ ∀ ev ∈ tr, ¬ Failing ev
  | .stop r => r.stored = got.bytes ++ received tr ∧ r.ret ≤ 0 ∧
      (r.ret = 0 ↔ ∀ ev ∈ tr, ¬ Failing ev)

/-- One turn: a read for the rest, or a failure. -/
theorem transportReadTurn_runs {len : Nat} {got : Got len} {tr : List (Event SysReply)}
    {t : Turn (ReadReply len) (Got len)} (hturn : Runs (transportReadTurn got) tr t) :
    AsksForRest (len - got.bytes.length) tr ∧ TurnEnd got tr t := by
  unfold transportReadTurn at hturn
  obtain ⟨tr₁, r, tr₂, hread, h, rfl⟩ := runs_bind.mp hturn
  -- Whatever is made of it, the read has been the only thing that was done.
  have hnil : tr₂ = [] := by
    split at h
    next => exact (runs_pure.mp h).1
    next =>
      split at h
      next => exact (runs_pure.mp h).1
      next => exact (runs_pure.mp h).1
  subst hnil
  rw [List.append_nil]
  obtain ⟨ready, ⟨hready, rfl, rfl⟩ | ⟨hready, hzero, rfl⟩⟩ := readWithTimeout_runs.mp hread
  · have hneg : (SysRead.failed : SysRead (len - got.bytes.length)).ret < 0 := SysRead.failed_ret
    rw [dif_pos hneg] at h
    obtain ⟨-, rfl⟩ := runs_pure.mp h
    refine ⟨trivial, rfl, Int.le_of_lt hneg, iff_of_false (Int.ne_of_lt hneg) fun hfine => ?_⟩
    exact hfine _ (List.mem_singleton.mpr rfl) hready
  · have hfine : (∀ ev ∈ [(⟨.select 3, ready⟩ : Event SysReply), ⟨.read _, r⟩], ¬ Failing ev) ↔
        ¬ r.ret < 0 := by
      simp [Failing, hready, hzero]
    have hbytes : got.bytes ++ r.stored = got.bytes ++
        received [(⟨.select 3, ready⟩ : Event SysReply), ⟨.read _, r⟩] :=
      congrArg (got.bytes ++ ·) (List.append_nil _).symm
    refine ⟨⟨rfl, trivial⟩, ?_⟩
    split at h
    next hneg =>
      obtain ⟨-, rfl⟩ := runs_pure.mp h
      refine ⟨hbytes, Int.le_of_lt hneg, iff_of_false (Int.ne_of_lt hneg) fun hall => ?_⟩
      exact hfine.mp hall hneg
    next hneg =>
      split at h
      next =>
        obtain ⟨-, rfl⟩ := runs_pure.mp h
        exact ⟨hbytes, hfine.mpr hneg⟩
      next =>
        obtain ⟨-, rfl⟩ := runs_pure.mp h
        exact ⟨hbytes, Int.le_refl 0, iff_of_true rfl (hfine.mpr hneg)⟩

/-- **What `transport_read` delivers**, whatever the system answers: the bytes that have been read,
in order and no others, each read having been for those still missing; and it reports success
exactly where no call has failed or timed out. -/
theorem transportRead_received {fuel : Nat} {len : U16} {tr : List (Event SysReply)}
    {r : ReadReply len.toNat} (h : Runs (transportRead fuel len) tr r) :
    r.stored = received tr ∧ AsksForRest len.toNat tr ∧ r.ret ≤ 0 ∧
      (r.ret = 0 ↔ ∀ ev ∈ tr, ¬ Failing ev) := by
  obtain ⟨got, mid, last, hI, rfl, hlast⟩ := runs_iterate (I := Filling) h
    ⟨rfl, trivial, fun _ hev => absurd hev List.not_mem_nil⟩ fun got pre evs got' hI hturn => by
      obtain ⟨hasks, hbytes, hfine⟩ := transportReadTurn_runs hturn
      rw [hI.bytes] at hasks hbytes
      refine ⟨hbytes.trans (received_append pre evs).symm, asksForRest_append.mpr ⟨hI.asks, hasks⟩,
        fun ev hev => ?_⟩
      rcases List.mem_append.mp hev with hev | hev
      · exact hI.fine ev hev
      · exact hfine ev hev
  obtain ⟨hasks, hstored, hle, hfine⟩ := transportReadTurn_runs hlast
  rw [hI.bytes] at hasks hstored
  refine ⟨hstored.trans (received_append mid last).symm, asksForRest_append.mpr ⟨hI.asks, hasks⟩,
    hle, hfine.trans ⟨fun hall ev hev => ?_, fun hall ev hev => hall ev ?_⟩⟩
  · rcases List.mem_append.mp hev with hev | hev
    · exact hI.fine ev hev
    · exact hall ev hev
  · exact List.mem_append_right _ hev

/-- Three bytes that come as two and one. -/
def twoReads : List (Event SysReply) :=
  [⟨.select 3, (1 : Int)⟩, ⟨.read 3, ⟨2, [5, 6], by decide, fun _ => rfl⟩⟩, ⟨.select 3, (1 : Int)⟩,
    ⟨.read 1, ⟨1, [7], by decide, fun _ => rfl⟩⟩]

theorem transportRead_received_two :
    ([5, 6, 7] : List U8) = received twoReads ∧ AsksForRest 3 twoReads ∧ (0 : Int) ≤ 0 ∧
      ((0 : Int) = 0 ↔ ∀ ev ∈ twoReads, ¬ Failing ev) := by
  have hruns : Runs (transportRead 2 3) twoReads (.ok [5, 6, 7] rfl) := by
    iterate 4 apply Runs.call
    exact .done _
  exact transportRead_received hruns

end HostInterface.Pc

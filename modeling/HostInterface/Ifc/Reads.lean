import HostInterface.Ifc.Listen

/-!
# What a failed read does to an exchange

`recv_packet` looks at the result of the read that finds `FRAME_START` and of the
read of the header. It does not look at those of the payload and of the checksum, so
after a failed one the checksum is computed over what the buffers held before.

Here the other side is anything: a run is the sequence of the calls with what each of
them has returned and stored. `failed_read_refused_iff` says for which sequences a
length is returned although a read has failed.
-/

namespace HostInterface.Ifc

open Interact Prog

/-- A call of `transport_read`: how many bytes it asks for, and the outcome. -/
abbrev Read := (len : U16) × ReadReply len.toNat

/-- The reads of an exchange, in order. -/
def reads : List (Event Reply) → List Read
  | [] => []
  | ⟨.transportRead len, r⟩ :: tr => ⟨len, r⟩ :: reads tr
  | ⟨.transportWrite _, _⟩ :: tr => reads tr
  | ⟨.gettime, _⟩ :: tr => reads tr

theorem reads_append (tr tr' : List (Event Reply)) : reads (tr ++ tr') = reads tr ++ reads tr' := by
  induction tr with
  | nil => rfl
  | cons ev tr ih =>
    obtain ⟨e, r⟩ := ev
    cases e with
    | transportWrite buf => exact ih
    | transportRead len => exact congrArg (⟨len, r⟩ :: ·) ih
    | gettime => exact ih

/-- The reads from that of the header on: before it, bytes are read one by one. -/
def frameReads (tr : List (Event Reply)) : List Read :=
  (reads tr).dropWhile fun rd => rd.1 ≠ 5

/-- What has been stored of the header, of the payload and of the checksum. -/
def parts : List Read → Option (List U8 × List U8 × List U8)
  | [header, sum] => some (header.2.stored, [], sum.2.stored)
  | [header, payload, sum] => some (header.2.stored, payload.2.stored, sum.2.stored)
  | _ => none

/-- A read has failed behind the header of an ACK of the command that fits, and the checksum
computed over what the buffer holds is the one that `checksum_buff` holds. -/
def StaleMatch (checksumBuff : List U8) (messageNum : U8) (c : Command) (rds : List Read) : Prop :=
  (∃ rd ∈ rds, rd.2.ret < 0) ∧
    ∃ (hd : Header) (payload sum : List U8), parts rds = some (hd.bytes.tail, payload, sum) ∧
      hd.Answers c.op messageNum ∧ hd.len ≤ c.outLen.toNat ∧
      fromBe16 ((sum ++ checksumBuff.drop sum.length).getD 0 0)
          ((sum ++ checksumBuff.drop sum.length).getD 1 0) =
        computeChecksum hd.bytes (((withPayload c.bufOut payload).getD []).take hd.len)

/-! ## The reads of `recv_packet` -/

/-- The wait reads byte by byte. -/
theorem awaitFrameStart_runs (timeStart : Time) (fuel : Nat) :
    ∀ (currByte : U8) (tr : List (Event Reply)) (r : Except Int Int),
      Runs (awaitFrameStart timeStart fuel currByte) tr r →
        (∀ rd ∈ reads tr, rd.1 = 1) ∧ ∀ code, r = .error code → code < 0 := by
  induction fuel with
  | zero =>
    intro currByte tr r h
    exact absurd h runs_fault
  | succ fuel ih =>
    intro currByte tr r h
    obtain ⟨x, tr₁, rfl, h₁⟩ := runs_call.mp h
    obtain ⟨now, tr₂, rfl, h₂⟩ := runs_call.mp h₁
    have hfirst : (∀ rd ∈ reads tr₂, rd.1 = 1) →
        ∀ rd ∈ reads (⟨.transportRead 1, x⟩ :: ⟨.gettime, now⟩ :: tr₂), rd.1 = 1 := by
      intro hrest rd hrd
      rcases List.mem_cons.mp hrd with rfl | hrd
      · rfl
      · exact hrest rd hrd
    have hdone : ∀ q : Except Int Int, (∀ code, q = .error code → code < 0) →
        Runs (.done q : IfcM (Except Int Int)) tr₂ r →
        (∀ rd ∈ reads (⟨.transportRead 1, x⟩ :: ⟨.gettime, now⟩ :: tr₂), rd.1 = 1) ∧
          ∀ code, r = .error code → code < 0 := by
      intro q hq h
      obtain ⟨rfl, rfl⟩ := runs_done.mp h
      exact ⟨hfirst fun rd hrd => absurd hrd List.not_mem_nil, hq⟩
    split at h₂
    next => exact hdone _ (fun code hcode => by cases hcode; decide) h₂
    next =>
      split at h₂
      next => exact hdone _ (fun code hcode => by cases hcode; decide) h₂
      next =>
        split at h₂
        next =>
          obtain ⟨hrest, hcode⟩ := ih _ _ _ h₂
          exact ⟨hfirst hrest, hcode⟩
        next => exact hdone _ (fun code hcode => by cases hcode) h₂

/-- The three ways an exchange can go: no header, a header of a response that is too long, or
a frame in its parts. -/
inductive Receives (len : U16) : List Read → Heard → Prop
  | none {rds : List Read} {code : Int} : rds.length ≤ 1 → code < 0 →
      Receives len rds (.refused code)
  | tooLong {rh : ReadReply (5 : U16).toNat} {rds : List Read} {hd : Header} :
      frameStart :: rh.over (List.replicate 5 0) = hd.bytes → len.toNat < hd.len →
      Receives len (⟨5, rh⟩ :: rds) (.refused errorBufferTooSmall)
  | frame {rh : ReadReply (5 : U16).toNat} {rds : List Read} {hd : Header} {payload sum : List U8} :
      ¬ rh.ret < 0 → frameStart :: rh.over (List.replicate 5 0) = hd.bytes → hd.len ≤ len.toNat →
      parts (⟨5, rh⟩ :: rds) = some (rh.stored, payload, sum) →
      Receives len (⟨5, rh⟩ :: rds) (.frame hd.bytes payload sum)

theorem listenBody_runs {fuel : Nat} {op messageNum : U8} {hasBuf : Bool} {len : U16}
    {rh : ReadReply (5 : U16).toNat} {hd : Header} {tr : List (Event Reply)} {heard : Heard}
    (hret : ¬ rh.ret < 0) (hhd : frameStart :: rh.over (List.replicate 5 0) = hd.bytes)
    (h : Runs (listenBody fuel hd.bytes op messageNum hasBuf len) tr heard) :
    Receives len (⟨5, rh⟩ :: reads tr) heard := by
  by_cases hlong : len.toNat < hd.len
  · -- What is drained is not looked at again.
    unfold listenBody at h
    dsimp only at h
    rw [if_pos (show len < fromBe16 (hd.bytes.getD 4 0) (hd.bytes.getD 5 0) from hlong),
      runs_bind] at h
    obtain ⟨tr₁, u, tr₂, -, h₂, rfl⟩ := h
    obtain ⟨rfl, rfl⟩ := runs_pure.mp h₂
    exact .tooLong hhd hlong
  · have hfit : hd.len ≤ len.toNat := Nat.le_of_not_lt hlong
    rcases @listenBody_fits op messageNum hasBuf len fuel hd hfit with ⟨-, heq⟩ | ⟨-, heq⟩
    · rw [heq] at h
      obtain ⟨rs, tr₁, rfl, h₁⟩ := runs_call.mp h
      obtain ⟨rfl, rfl⟩ := runs_done.mp h₁
      exact .frame hret hhd hfit rfl
    · rw [heq] at h
      obtain ⟨rp, tr₁, rfl, h₁⟩ := runs_call.mp h
      obtain ⟨rs, tr₂, rfl, h₂⟩ := runs_call.mp h₁
      obtain ⟨rfl, rfl⟩ := runs_done.mp h₂
      exact .frame hret hhd hfit rfl

/-- Five bytes behind `FRAME_START` are a header. -/
theorem header_of_read (rh : ReadReply (5 : U16).toNat) :
    ∃ hd : Header, frameStart :: rh.over (List.replicate 5 0) = hd.bytes := by
  have hfits : rh.stored.length ≤ 5 := rh.fits
  have hlen : (rh.over (List.replicate 5 0)).length = 5 := by
    unfold ReadReply.over
    rw [List.length_append, List.length_drop, List.length_replicate]
    omega
  match rh.over (List.replicate 5 0), hlen with
  | [a, b, c, d, e], _ => exact ⟨⟨a, b, c, d, e⟩, rfl⟩

/-- **The reads of an exchange** are single bytes, and then those of one of the three ways. -/
theorem listen_runs {fuel : Nat} {op messageNum : U8} {hasBuf : Bool} {len : U16}
    {tr : List (Event Reply)} {heard : Heard}
    (h : Runs (listen fuel op messageNum hasBuf len) tr heard) :
    Receives len (frameReads tr) heard := by
  obtain ⟨start, tr₀, rfl, h₀⟩ := runs_call.mp h
  show Receives len ((reads tr₀).dropWhile _) heard
  split at h₀
  next =>
    obtain ⟨rfl, rfl⟩ := runs_done.mp h₀
    exact .none (Nat.zero_le _) (by decide)
  next =>
    obtain ⟨tr₁, started, tr₂, h₁, h₂, rfl⟩ := runs_bind.mp h₀
    obtain ⟨hone, hcode⟩ := awaitFrameStart_runs _ _ _ _ _ h₁
    rw [reads_append, List.dropWhile_append_of_pos fun rd hrd => by
      rw [hone rd hrd]
      decide]
    cases started with
    | error code =>
      obtain ⟨rfl, rfl⟩ := runs_pure.mp h₂
      exact .none (Nat.zero_le _) (hcode code rfl)
    | ok ret =>
      dsimp only at h₂
      split at h₂
      next =>
        obtain ⟨rfl, rfl⟩ := runs_pure.mp h₂
        exact .none (Nat.zero_le _) (by decide)
      next =>
        obtain ⟨rh, tr₃, rfl, h₃⟩ := runs_call.mp h₂
        show Receives len (⟨5, rh⟩ :: reads tr₃) heard
        split at h₃
        next =>
          obtain ⟨rfl, rfl⟩ := runs_done.mp h₃
          exact .none (Nat.le_refl 1) (by decide)
        next hret =>
          obtain ⟨hd, hhd⟩ := header_of_read rh
          rw [hhd] at h₃
          exact listenBody_runs hret hhd h₃

/-! ## Which failed reads go unnoticed -/

theorem parts_fst {rd : Read} {rds : List Read} {header payload sum : List U8}
    (h : parts (rd :: rds) = some (header, payload, sum)) : header = rd.2.stored := by
  match rds, h with
  | [_], h => exact (Prod.mk.inj (Option.some.inj h)).1.symm
  | [_, _], h => exact (Prod.mk.inj (Option.some.inj h)).1.symm

theorem parts_length {rds : List Read} {x : List U8 × List U8 × List U8} (h : parts rds = some x) :
    2 ≤ rds.length := by
  match rds, h with
  | [_, _], _ => exact Nat.le_refl 2
  | [_, _, _], _ => exact Nat.le_succ 2

/-- A header that has been stored in whole is the one that is used. -/
theorem header_stored {rh : ReadReply (5 : U16).toNat} {hd hd' : Header}
    (hhd : frameStart :: rh.over (List.replicate 5 0) = hd.bytes) (h : rh.stored = hd'.bytes.tail) :
    hd = hd' := by
  have hover : rh.over (List.replicate 5 0) = hd'.bytes.tail := by
    unfold ReadReply.over
    rw [h]
    rfl
  rw [hover] at hhd
  obtain ⟨op, messageNum, ack, hi, lo⟩ := hd
  obtain ⟨op', messageNum', ack', hi', lo'⟩ := hd'
  cases hhd
  rfl

/-- What is concluded from an exchange, against what its reads say. -/
theorem Receives.refused_iff {checksumBuff : List U8} {messageNum : U8} {c : Command}
    {rds : List Read} {heard : Heard} (h : Receives c.outLen rds heard)
    (hreads : ∀ rd ∈ rds, rd.2.ret = 0 ∨ rd.2.ret < 0) :
    (0 ≤ (conclude checksumBuff c.op messageNum c.bufOut heard).1 → ∀ rd ∈ rds, rd.2.ret = 0) ↔
      ¬ StaleMatch checksumBuff messageNum c rds := by
  cases h with
  | none hshort hcode =>
    refine iff_of_true (fun hge => absurd hcode (Int.not_lt.mpr hge)) fun hstale => ?_
    obtain ⟨-, hd, payload, sum, hparts, -⟩ := hstale
    exact absurd (parts_length hparts) (by omega)
  | tooLong hhd hlong =>
    refine iff_of_true (fun hge => absurd (show 0 ≤ errorBufferTooSmall from hge) (by decide))
      fun hstale => ?_
    obtain ⟨-, hd', payload, sum, hparts, -, hfit, -⟩ := hstale
    rw [header_stored hhd (parts_fst hparts).symm] at hlong
    omega
  | @frame rh rds hd payload sum hret hhd hfit hparts =>
    have hzero : rh.ret = 0 := (hreads ⟨5, rh⟩ (List.mem_cons_self ..)).resolve_right hret
    have hstored : rh.stored = hd.bytes.tail := by
      have hover := (ReadReply.ok_over (rh.full hzero) rfl :
        (ReadReply.ok rh.stored (rh.full hzero)).over (List.replicate 5 0) = rh.stored)
      exact hover.symm.trans (congrArg List.tail hhd)
    rw [conclude_frame, concludeFrame_nonneg]
    constructor
    · intro hall hstale
      obtain ⟨⟨rd, hrd, hneg⟩, hd', payload', sum', hparts', hanswers, -, hsum⟩ := hstale
      obtain ⟨hhd', rfl, rfl⟩ : hd'.bytes.tail = rh.stored ∧ payload' = payload ∧ sum' = sum := by
        rw [hparts] at hparts'
        simpa [eq_comm] using hparts'
      have hsame : hd = hd' := header_stored hhd hhd'.symm
      rw [hsame] at hall
      exact absurd (hall ⟨hanswers, hsum⟩ rd hrd) (by omega)
    · intro hstale hmatch rd hrd
      by_contra hne
      refine hstale ⟨⟨rd, hrd, (hreads rd hrd).resolve_left hne⟩, hd, payload, sum, ?_, hmatch.1,
        hfit, hmatch.2⟩
      rw [hparts, hstored]

theorem sendPacket_runs {op messageNum : U8} {buf : Option (List U8)} {len : U16}
    {tr : List (Event Reply)} {u : Unit} (h : Runs (sendPacket op messageNum buf len) tr u) :
    reads tr = [] := by
  obtain ⟨r₁, tr₁, rfl, h₁⟩ := runs_call.mp h
  split at h₁
  next =>
    obtain ⟨r₂, tr₂, rfl, h₂⟩ := runs_call.mp h₁
    obtain ⟨r₃, tr₃, rfl, h₃⟩ := runs_call.mp h₂
    obtain ⟨rfl, -⟩ := runs_done.mp h₃
    rfl
  next =>
    obtain ⟨r₂, tr₂, rfl, h₂⟩ := runs_call.mp h₁
    obtain ⟨rfl, -⟩ := runs_done.mp h₂
    rfl

/-- The reads of `hal_read_write`, and what it returns. -/
theorem halReadWrite_runs {fuel : Nat} {checksumBuff : List U8} {messageNum messageNum' : U32}
    {c : Command} {tr : List (Event Reply)} {r : Int × Option (List U8)}
    (h : Runs (halReadWrite fuel checksumBuff messageNum c) tr (r, messageNum')) :
    ∃ heard, Receives c.outLen (frameReads tr) heard ∧
      r = conclude checksumBuff c.op (messageNum.setWidth 8) c.bufOut heard := by
  by_cases hbad : badBuffer c.bufIn c.inLen = true ∨ badBuffer c.bufOut c.outLen = true
  · rw [halReadWrite_refused hbad, runs_done, Prod.mk.injEq] at h
    obtain ⟨rfl, rfl, rfl⟩ := h
    exact ⟨.refused errorIncorrectParameter, .none (Nat.zero_le _) (by decide), rfl⟩
  · unfold halReadWrite at h
    rw [if_neg fun hin => hbad (.inl hin), if_neg fun hout => hbad (.inr hout)] at h
    obtain ⟨tr₁, u, tr₂, hsend, h₁, rfl⟩ := runs_bind.mp h
    obtain ⟨tr₃, ret, tr₄, hrecv, h₂, rfl⟩ := runs_bind.mp h₁
    obtain ⟨rfl, heq⟩ := runs_pure.mp h₂
    obtain ⟨rfl, -⟩ := Prod.mk.inj heq
    rw [recvPacket_eq] at hrecv
    obtain ⟨tr₅, heard, tr₆, hheard, h₃, rfl⟩ := runs_bind.mp hrecv
    obtain ⟨rfl, rfl⟩ := runs_done.mp h₃
    refine ⟨heard, ?_, rfl⟩
    have hframe : frameReads (tr₁ ++ (tr₅ ++ [] ++ [])) = frameReads tr₅ := by
      unfold frameReads
      rw [List.append_nil, List.append_nil, reads_append, sendPacket_runs hsend, List.nil_append]
    rw [hframe]
    exact listen_runs hheard

/-- **A failed read is a failed exchange, except where the checksum matches what was in the
buffers.** In a run in which each read delivers its bytes or fails, a length is returned only where
the reads of the header, the payload and the checksum have all succeeded, if and only if their
outcomes are not a `StaleMatch`. -/
theorem failed_read_refused_iff {fuel : Nat} {checksumBuff : List U8} {messageNum messageNum' : U32}
    {c : Command} {tr : List (Event Reply)} {r : Int × Option (List U8)}
    (h : Runs (halReadWrite fuel checksumBuff messageNum c) tr (r, messageNum'))
    (hreads : ∀ rd ∈ reads tr, rd.2.ret = 0 ∨ rd.2.ret < 0) :
    (0 ≤ r.1 → ∀ rd ∈ frameReads tr, rd.2.ret = 0) ↔
      ¬ StaleMatch checksumBuff (messageNum.setWidth 8) c (frameReads tr) := by
  obtain ⟨heard, hreceives, rfl⟩ := halReadWrite_runs h
  exact hreceives.refused_iff fun rd hrd => hreads rd ((List.dropWhile_sublist _).mem hrd)

/-- The answer to a command without payload, of which only the checksum cannot be read. -/
theorem failed_read_refused_ping :
    ¬ StaleMatch [0, 0] 3 ⟨40, none, 0, none, 0, nofun, nofun⟩
      [⟨5, .ok [40, 3, 0, 0, 0] rfl⟩, ⟨2, .failed⟩] := by
  have hruns : Runs (halReadWrite 1 [0, 0] 3 ⟨40, none, 0, none, 0, nofun, nofun⟩)
      [⟨.transportWrite [255, 255, 255, 255, 0xC4, 40, 3, 0, 0], (0 : Int)⟩,
        ⟨.transportWrite [81, 99], (0 : Int)⟩, ⟨.gettime, still 0⟩,
        ⟨.transportRead 1, .ok [0xC4] rfl⟩, ⟨.gettime, still 1⟩,
        ⟨.transportRead 5, .ok [40, 3, 0, 0, 0] rfl⟩, ⟨.transportRead 2, .failed⟩]
      ((errorChecksumMismatch, none), 4) := by
    iterate 7 apply Runs.call
    exact .done _
  exact (failed_read_refused_iff hruns (by decide)).mp fun hge => absurd hge (by decide)

/-- The read of the payload fails, the buffer still holds the payload of an earlier answer, and
the checksum says the same as then. -/
theorem stale_payload_returned :
    let outcomes : List (Event Reply) :=
      [⟨.transportWrite [255, 255, 255, 255, 0xC4, 40, 3, 0, 0], (0 : Int)⟩,
        ⟨.transportWrite [81, 99], (0 : Int)⟩, ⟨.gettime, still 0⟩,
        ⟨.transportRead 1, .ok [0xC4] rfl⟩, ⟨.gettime, still 1⟩,
        ⟨.transportRead 5, .ok [40, 3, 0, 0, 3] rfl⟩, ⟨.transportRead 3, .failed⟩,
        ⟨.transportRead 2, .ok [107, 217] rfl⟩]
    Runs (halReadWrite 1 [0, 0] 3
        ⟨40, none, 0, some [5, 6, 7], 3, nofun, fun _ h => by cases h; decide⟩)
      outcomes ((3, some [5, 6, 7]), 4) ∧
      (∀ rd ∈ reads outcomes, rd.2.ret = 0 ∨ rd.2.ret < 0) ∧
      ¬ ((0 : Int) ≤ 3 → ∀ rd ∈ frameReads outcomes, rd.2.ret = 0) := by
  intro outcomes
  refine ⟨?_, by decide, fun h => ?_⟩
  · iterate 8 apply Runs.call
    exact .done _
  · have hpayload : (⟨3, .failed⟩ : Read) ∈ frameReads outcomes :=
      List.mem_cons_of_mem _ (List.mem_cons_self ..)
    exact absurd (h (by decide) _ hpayload) (by decide)

end HostInterface.Ifc

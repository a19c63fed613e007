import HostInterface.Ifc.Grammar

/-!
# What `recv_packet` hears, and what it makes of it

Which calls `recv_packet` makes, and what comes back, does not depend on what its
buffers hold: only the checksum is computed over them, after the last read. So
`recv_packet` is a program without buffers, `listen`, followed by a function of
what it has heard and of the buffers, `conclude` (`recvPacket_eq`).

On a stream that runs dry, where a read of more bytes than are left fails,
`listen_wlp` says what can be heard: the first `FRAME_START` with five bytes behind
it is the header, whatever it says, and `cut` tells whether the stream ends before
the payload and the checksum do. `listen_whole` and `listen_cut` are the other direction.
-/

namespace HostInterface.Ifc

open Interact Prog

/-- What `recv_packet` has heard when it stops reading. -/
inductive Heard where
  /-- Nothing it computes a checksum over; this is the result. -/
  | refused (code : Int)
  /-- The header, and what has been stored of the payload and of the checksum. -/
  | frame (headerBuf payload sum : List U8)

/-- `recvBody` without the buffers; `hasBuf` tells whether there is one for the payload. -/
def listenBody (fuel : Nat) (headerBuf : List U8) (op messageNum : U8) (hasBuf : Bool) (len : U16) :
    IfcM Heard :=
  let lenFromHeader := fromBe16 (headerBuf.getD 4 0) (headerBuf.getD 5 0)
  if len < lenFromHeader then do
    drain fuel
    return .refused errorBufferTooSmall
  else if headerError op messageNum headerBuf = 0 ∧ hasBuf ∧ 0 < lenFromHeader then
    .call (.transportRead lenFromHeader) fun r =>
      .call (.transportRead 2) fun s => .done (.frame headerBuf r.stored s.stored)
  else .call (.transportRead 2) fun s => .done (.frame headerBuf [] s.stored)

/-- `recvPacket` without the buffers. -/
def listen (fuel : Nat) (op messageNum : U8) (hasBuf : Bool) (len : U16) : IfcM Heard :=
  .call .gettime fun start =>
    if start.1 < 0 then .done (.refused errorHalCallFailed)
    else do
      let started ← awaitFrameStart start.2 fuel 0
      match started with
      | .error code => return .refused code
      | .ok ret =>
        if ret < 0 then return .refused errorStartOfFrame
        .call (.transportRead 5) fun r =>
          if r.ret < 0 then .done (.refused errorHeader)
          else listenBody fuel (frameStart :: r.over (List.replicate 5 0)) op messageNum hasBuf len

/-- What `recv_packet` makes of a frame: the checksum over the header and what the buffer
now holds decides, then the checks of the header. -/
def concludeFrame (checksumBuff : List U8) (op messageNum : U8) (buf : Option (List U8))
    (headerBuf sum : List U8) : Int :=
  let lenFromHeader := fromBe16 (headerBuf.getD 4 0) (headerBuf.getD 5 0)
  let checksumBuff := sum ++ checksumBuff.drop sum.length
  let computedChecksum := computeChecksum headerBuf ((buf.getD []).take lenFromHeader.toNat)
  if fromBe16 (checksumBuff.getD 0 0) (checksumBuff.getD 1 0) ≠ computedChecksum then
    errorChecksumMismatch
  else if headerError op messageNum headerBuf = 0 then lenFromHeader.toNat
  else headerError op messageNum headerBuf

/-- What `recv_packet` makes of what it has heard: its result and the caller's buffer. -/
def conclude (checksumBuff : List U8) (op messageNum : U8) (buf : Option (List U8)) :
    Heard → Int × Option (List U8)
  | .refused code => (code, buf)
  | .frame headerBuf payload sum =>
    (concludeFrame checksumBuff op messageNum (withPayload buf payload) headerBuf sum,
      withPayload buf payload)

/-- The last read of `recv_packet`, and what follows. -/
theorem recvChecksum_eq (checksumBuff headerBuf : List U8) (op messageNum : U8)
    (buf : Option (List U8)) :
    recvChecksum checksumBuff headerBuf (headerError op messageNum headerBuf) buf
        (fromBe16 (headerBuf.getD 4 0) (headerBuf.getD 5 0)) =
      .call (.transportRead 2) fun s =>
        .done (concludeFrame checksumBuff op messageNum buf headerBuf s.stored, buf) := by
  unfold recvChecksum
  refine congrArg (Prog.call _) (funext fun s => ?_)
  unfold concludeFrame ReadReply.over
  dsimp only
  split
  next => rfl
  next =>
    split
    next => rfl
    next => rfl

theorem recvBody_eq (fuel : Nat) (checksumBuff headerBuf : List U8) (op messageNum : U8)
    (buf : Option (List U8)) (len : U16) :
    recvBody fuel checksumBuff headerBuf op messageNum buf len =
      listenBody fuel headerBuf op messageNum buf.isSome len >>= fun h =>
        .done (conclude checksumBuff op messageNum buf h) := by
  unfold recvBody listenBody
  dsimp only
  by_cases hlong : len < fromBe16 (headerBuf.getD 4 0) (headerBuf.getD 5 0)
  · rw [if_pos hlong, if_pos hlong, bind_assoc]
    rfl
  · rw [if_neg hlong, if_neg hlong, clamp_eq (Nat.le_of_not_lt fun h => hlong h)]
    split
    next =>
      refine congrArg (Prog.call _) (funext fun r => ?_)
      rw [recvChecksum_eq]
      rfl
    next =>
      rw [recvChecksum_eq]
      refine congrArg (Prog.call _) (funext fun s => congrArg Prog.done ?_)
      show _ = (concludeFrame checksumBuff op messageNum (withPayload buf []) headerBuf s.stored,
        withPayload buf [])
      rw [withPayload_nil]

/-- **`recv_packet` listens, and then concludes**: its buffers have no part in what it reads. -/
theorem recvPacket_eq (fuel : Nat) (checksumBuff : List U8) (op messageNum : U8)
    (buf : Option (List U8)) (len : U16) :
    recvPacket fuel checksumBuff op messageNum buf len =
      listen fuel op messageNum buf.isSome len >>= fun h =>
        .done (conclude checksumBuff op messageNum buf h) := by
  unfold recvPacket listen
  refine congrArg (Prog.call _) (funext fun start => ?_)
  dsimp only
  split
  next => rfl
  next =>
    refine Eq.trans (bind_congr fun started => ?_) (bind_assoc _ _ _).symm
    cases started with
    | error code => rfl
    | ok ret =>
      dsimp only
      split
      next => rfl
      next =>
        refine congrArg (Prog.call _) (funext fun r => ?_)
        by_cases hr : r.ret < 0
        · simp only [if_pos hr]
          rfl
        · simp only [if_neg hr]
          exact recvBody_eq fuel checksumBuff _ op messageNum buf len

/-- Where `recv_packet` ends, it has heard something. -/
theorem recvPacket_ends_iff {σ : Type} {h : (e : Call) → σ → Reply e × σ} {s s' : σ} {fuel : Nat}
    {checksumBuff : List U8} {op messageNum : U8} {buf : Option (List U8)} {len : U16}
    {r : Int × Option (List U8)} :
    Ends h (recvPacket fuel checksumBuff op messageNum buf len) s r s' ↔
      ∃ heard, Ends h (listen fuel op messageNum buf.isSome len) s heard s' ∧
        r = conclude checksumBuff op messageNum buf heard := by
  rw [recvPacket_eq, ends_bind]
  constructor
  · intro hr
    obtain ⟨heard, s₁, hheard, hdone⟩ := hr
    obtain ⟨rfl, rfl⟩ := ends_done.mp hdone
    exact ⟨heard, hheard, rfl⟩
  · rintro ⟨heard, hheard, rfl⟩
    exact ⟨heard, s', hheard, .done _ _⟩

theorem listenBody_below (headerBuf : List U8) (op messageNum : U8) (hasBuf : Bool) (len : U16)
    {m n : Nat} (hle : m ≤ n) :
    Below (listenBody m headerBuf op messageNum hasBuf len)
      (listenBody n headerBuf op messageNum hasBuf len) := by
  unfold listenBody
  dsimp only
  split
  next => exact Below.bind (drain_below m n hle) fun _ => Below.refl _
  next => exact Below.refl _

theorem listen_below (op messageNum : U8) (hasBuf : Bool) (len : U16) (m n : Nat) (hle : m ≤ n) :
    Below (listen m op messageNum hasBuf len) (listen n op messageNum hasBuf len) := by
  unfold listen
  refine Below.call fun start => Below.ite (Below.refl _) ?_
  refine Below.bind (awaitFrameStart_below _ m n 0 hle) fun started => ?_
  cases started with
  | error code => exact Below.refl _
  | ok ret =>
    refine Below.ite (Below.refl _) (Below.call fun r => Below.ite (Below.refl _) ?_)
    exact listenBody_below _ op messageNum hasBuf len hle

/-! ## The header -/

/-- A response header: the five bytes behind `FRAME_START`. -/
structure Header where
  op : U8
  messageNum : U8
  ack : U8
  hi : U8
  lo : U8

namespace Header

def bytes (hd : Header) : List U8 :=
  [frameStart, hd.op, hd.messageNum, hd.ack, hd.hi, hd.lo]

/-- The length of the payload. -/
def len (hd : Header) : Nat :=
  (fromBe16 hd.hi hd.lo).toNat

/-- It is an ACK of this command. -/
def Answers (hd : Header) (op messageNum : U8) : Prop :=
  hd.op = op ∧ hd.messageNum = messageNum ∧ hd.ack = 0

theorem error_eq_zero {hd : Header} {op messageNum : U8} :
    headerError op messageNum hd.bytes = 0 ↔ hd.Answers op messageNum := headerError_eq_zero

/-- The code of a NACK overrides the other checks. -/
theorem error_nack {hd : Header} {op messageNum : U8} (h : hd.ack ≠ 0) :
    headerError op messageNum hd.bytes = -(hd.ack.toNat : Int) := by
  show (if hd.ack ≠ 0 then 0 - (hd.ack.toNat : Int) else _) = _
  rw [if_pos h, Int.zero_sub]

/-- An ACK of another command is an error of the host interface. -/
theorem error_mismatch {hd : Header} {op messageNum : U8} (h : hd.ack = 0)
    (hne : ¬ hd.Answers op messageNum) :
    -113 ≤ headerError op messageNum hd.bytes ∧ headerError op messageNum hd.bytes ≤ -101 := by
  have heq : headerError op messageNum hd.bytes =
      if hd.ack ≠ 0 then 0 - (hd.ack.toNat : Int)
      else if hd.messageNum ≠ messageNum then errorMessageNumberMismatch
      else if hd.op ≠ op then errorCommandMismatch else 0 := rfl
  rw [heq, if_neg (not_not_intro h)]
  by_cases hnum : hd.messageNum = messageNum
  · rw [if_neg (not_not_intro hnum), if_pos fun hop => hne ⟨hop, hnum, h⟩]
    decide
  · rw [if_pos hnum]
    decide

/-- How many bytes of the payload `recv_packet` reads. -/
def takes (hd : Header) (op messageNum : U8) (hasBuf : Bool) : Nat :=
  if headerError op messageNum hd.bytes = 0 ∧ hasBuf then hd.len else 0

theorem takes_nack {hd : Header} {op messageNum : U8} {hasBuf : Bool} (h : hd.ack ≠ 0) :
    hd.takes op messageNum hasBuf = 0 :=
  if_neg fun hread => h (error_eq_zero.mp hread.1).2.2

/-- The header of a response with a payload of `n` bytes. -/
def forLength (op messageNum ack : U8) (n : Nat) : Header :=
  ⟨op, messageNum, ack, (BitVec.ofNat 16 n >>> 8).setWidth 8, (BitVec.ofNat 16 n).setWidth 8⟩

theorem forLength_len {op messageNum ack : U8} {n : Nat} (h : n < 65536) :
    (forLength op messageNum ack n).len = n := by
  show (fromBe16 ((BitVec.ofNat 16 n >>> 8).setWidth 8) ((BitVec.ofNat 16 n).setWidth 8)).toNat = n
  rw [fromBe16_be16, BitVec.toNat_ofNat]
  exact Nat.mod_eq_of_lt h

end Header

/-- The first `FRAME_START` of the stream `B` begins the header `hd`, and `tail` is behind it. -/
def Heads (B : List U8) (hd : Header) (tail : List U8) : Prop :=
  ∃ junk, frameStart ∉ junk ∧ B = junk ++ (hd.bytes ++ tail)

/-- What is behind the first `a` of a list. -/
theorem behind_first {α : Type} {a : α} {x y s t : List α} (hx : a ∉ x) (hy : a ∉ y)
    (h : x ++ a :: s = y ++ a :: t) : s = t := by
  induction x generalizing y with
  | nil =>
    cases y with
    | nil => exact (List.cons.inj h).2
    | cons b y => exact absurd ((List.cons.inj h).1 ▸ List.mem_cons_self ..) hy
  | cons c x ih =>
    cases y with
    | nil => exact absurd ((List.cons.inj h).1 ▸ List.mem_cons_self ..) hx
    | cons b y =>
      exact ih (fun hm => hx (List.mem_cons_of_mem _ hm)) (fun hm => hy (List.mem_cons_of_mem _ hm))
        (List.cons.inj h).2

/-- A stream has one first header. -/
theorem Heads.unique {B tail tail' : List U8} {hd hd' : Header} (h : Heads B hd tail)
    (h' : Heads B hd' tail') : hd = hd' ∧ tail = tail' := by
  obtain ⟨junk, hjunk, rfl⟩ := h
  obtain ⟨junk', hjunk', heq⟩ := h'
  have heq := behind_first hjunk hjunk' heq
  obtain ⟨op, messageNum, ack, hi, lo⟩ := hd
  obtain ⟨op', messageNum', ack', hi', lo'⟩ := hd'
  cases heq
  exact ⟨rfl, rfl⟩

/-- A response frame is a header, the payload and the checksum. -/
theorem heads_respFrame {op messageNum ack : U8} {payload junk rest : List U8}
    (hjunk : frameStart ∉ junk) :
    let hd := Header.forLength op messageNum ack payload.length
    Heads (junk ++ (respFrame op messageNum ack payload ++ rest)) hd
      (payload ++ (be16 (computeChecksum hd.bytes payload) ++ rest)) := by
  intro hd
  refine ⟨junk, hjunk, ?_⟩
  rw [respFrame_append]
  rfl

/-- What `recv_packet` makes of a frame whose checksum it has read. -/
theorem concludeFrame_whole (checksumBuff : List U8) (op messageNum : U8) (buf : Option (List U8))
    (hd : Header) (hi lo : U8) :
    concludeFrame checksumBuff op messageNum buf hd.bytes [hi, lo] =
      if fromBe16 hi lo ≠ computeChecksum hd.bytes ((buf.getD []).take hd.len) then
        errorChecksumMismatch
      else if headerError op messageNum hd.bytes = 0 then (hd.len : Int)
      else headerError op messageNum hd.bytes := rfl

/-- Stored bytes that are not the checksum. -/
theorem concludeFrame_mismatch {checksumBuff : List U8} {op messageNum : U8}
    {buf : Option (List U8)} {hd : Header} {sum : List U8}
    (h : fromBe16 ((sum ++ checksumBuff.drop sum.length).getD 0 0)
        ((sum ++ checksumBuff.drop sum.length).getD 1 0) ≠
      computeChecksum hd.bytes ((buf.getD []).take hd.len)) :
    concludeFrame checksumBuff op messageNum buf hd.bytes sum = errorChecksumMismatch := by
  unfold concludeFrame
  exact if_pos h

/-- Stored bytes that are the checksum leave the checks of the header. -/
theorem concludeFrame_match {checksumBuff : List U8} {op messageNum : U8}
    {buf : Option (List U8)} {hd : Header} {sum : List U8}
    (h : fromBe16 ((sum ++ checksumBuff.drop sum.length).getD 0 0)
        ((sum ++ checksumBuff.drop sum.length).getD 1 0) =
      computeChecksum hd.bytes ((buf.getD []).take hd.len)) :
    concludeFrame checksumBuff op messageNum buf hd.bytes sum =
      if headerError op messageNum hd.bytes = 0 then (hd.len : Int)
      else headerError op messageNum hd.bytes := by
  unfold concludeFrame
  exact if_neg (not_not_intro h)

/-- Where nothing of the checksum has been stored, it is what `checksum_buff` held before. -/
theorem fromBe16_unread (x : U16) :
    fromBe16 (([] ++ (be16 x).drop ([] : List U8).length).getD 0 0)
      (([] ++ (be16 x).drop ([] : List U8).length).getD 1 0) = x := fromBe16_be16 x

theorem conclude_frame (checksumBuff : List U8) (op messageNum : U8) (buf : Option (List U8))
    (headerBuf payload sum : List U8) :
    conclude checksumBuff op messageNum buf (.frame headerBuf payload sum) =
      (concludeFrame checksumBuff op messageNum (withPayload buf payload) headerBuf sum,
        withPayload buf payload) := rfl

/-- A length is concluded from an ACK of the command whose checksum is what has been stored. -/
theorem concludeFrame_nonneg {checksumBuff : List U8} {op messageNum : U8} {buf : Option (List U8)}
    {hd : Header} {sum : List U8} :
    0 ≤ concludeFrame checksumBuff op messageNum buf hd.bytes sum ↔
      hd.Answers op messageNum ∧
        fromBe16 ((sum ++ checksumBuff.drop sum.length).getD 0 0)
            ((sum ++ checksumBuff.drop sum.length).getD 1 0) =
          computeChecksum hd.bytes ((buf.getD []).take hd.len) := by
  have hnonpos := headerError_nonpos op messageNum hd.bytes
  have hzero := @Header.error_eq_zero hd op messageNum
  show 0 ≤ (if fromBe16 ((sum ++ checksumBuff.drop sum.length).getD 0 0)
    ((sum ++ checksumBuff.drop sum.length).getD 1 0) ≠
      computeChecksum hd.bytes ((buf.getD []).take hd.len) then errorChecksumMismatch
    else if headerError op messageNum hd.bytes = 0 then (hd.len : Int)
    else headerError op messageNum hd.bytes) ↔ _
  split
  next hsum => exact iff_of_false (by decide) fun h => hsum h.2
  next hsum =>
    have hsum := Decidable.not_not.mp hsum
    split
    next herror => exact iff_of_true (Int.natCast_nonneg _) ⟨hzero.mp herror, hsum⟩
    next herror => exact iff_of_false (by omega) fun h => herror (hzero.mpr h.1)

/-- The length of an ACK of the command is reported where the checksum matches the payload. -/
theorem conclude_ack {checksumBuff bytes payload : List U8} {op messageNum : U8} {hd : Header}
    {hi lo : U8} (hanswers : hd.Answers op messageNum) (hlen : payload.length = hd.len)
    (hsum : fromBe16 hi lo = computeChecksum hd.bytes payload) :
    conclude checksumBuff op messageNum (some bytes) (.frame hd.bytes payload [hi, lo]) =
      ((payload.length : Int), some (payload ++ bytes.drop payload.length)) := by
  have htake : ((withPayload (some bytes) payload).getD []).take hd.len = payload := by
    show (payload ++ bytes.drop payload.length).take hd.len = payload
    exact List.take_left' hlen
  rw [conclude_frame, concludeFrame_whole, htake, if_neg (not_not_intro hsum),
    if_pos (Header.error_eq_zero.mpr hanswers), ← hlen]
  rfl

/-- The code of a NACK is reported where the checksum matches what the buffer holds. -/
theorem conclude_nack {checksumBuff : List U8} {op messageNum : U8} {buf : Option (List U8)}
    {hd : Header} {hi lo : U8} (hack : hd.ack ≠ 0)
    (hsum : fromBe16 hi lo = computeChecksum hd.bytes ((buf.getD []).take hd.len)) :
    conclude checksumBuff op messageNum buf (.frame hd.bytes [] [hi, lo]) =
      (-(hd.ack.toNat : Int), buf) := by
  have hne : headerError op messageNum hd.bytes ≠ 0 :=
    fun h => hack (Header.error_eq_zero.mp h).2.2
  rw [conclude_frame, withPayload_nil, concludeFrame_whole, if_neg (not_not_intro hsum), if_neg hne,
    Header.error_nack hack]

/-! ## What is heard on a stream -/

/-- A read of more bytes than are left fails; it may have taken some of them. -/
def Dry (starve : Starve) : Prop :=
  ∀ len s, (starve len s).1.ret < 0 ∧ (starve len s).2 <:+ s.rest

/-- A line that is silent where the stream ends. -/
def silent : Starve :=
  fun _ _ => (.failed, [])

theorem silent_dry : Dry silent :=
  fun _ _ => ⟨show (-1 : Int) < 0 by decide, List.nil_suffix⟩

/-- What can be heard on the stream `B`, and what is left then. -/
inductive Hears (op messageNum : U8) (hasBuf : Bool) (len : U16) (B : List U8) (starved : Bool) :
    Heard → Stream → Prop
  | refused {code : Int} {s' : Stream} :
      -113 ≤ code → code ≤ -101 → Hears op messageNum hasBuf len B starved (.refused code) s'
  | whole {hd : Header} {payload : List U8} {hi lo : U8} {s' : Stream} :
      Heads B hd (payload ++ (hi :: lo :: s'.rest)) → hd.len ≤ len.toNat →
      payload.length = hd.takes op messageNum hasBuf → s'.starved = starved →
      Hears op messageNum hasBuf len B starved (.frame hd.bytes payload [hi, lo]) s'
  | cut {hd : Header} {tail payload sum : List U8} {s' : Stream} :
      Heads B hd tail → hd.len ≤ len.toNat → tail.length < hd.takes op messageNum hasBuf + 2 →
      s'.starved = true → s'.rest.length ≤ tail.length →
      Hears op messageNum hasBuf len B starved (.frame hd.bytes payload sum) s'

/-- The clock works, and stays within two seconds of what it says at look `i`. -/
def ClockOkFrom (clock : Nat → Int × Time) (i : Nat) : Prop :=
  ∀ k, 0 ≤ (clock k).1 ∧ (clock k).2.tvSec - (clock i).2.tvSec ≤ 2

/-- A clock that works, and stands still. -/
def still : Nat → Int × Time :=
  fun _ => (0, ⟨0, 0⟩)

theorem still_ok (i : Nat) : ClockOkFrom still i :=
  fun k => show (0 : Int) ≤ 0 ∧ (0 : Int) - 0 ≤ 2 by decide

section Stream

variable {clock : Nat → Int × Time} {starve : Starve} {α : Type} {op messageNum : U8}
  {hasBuf : Bool} {len : U16}

/-- What holds after a read that fails where the stream runs dry. -/
theorem dry_wlp (hdry : Dry starve) {n : U16} {k : ReadReply n.toNat → IfcM α} {s : Stream}
    {Q : α → Stream → Prop}
    (hk : ∀ (l rest : List U8) (hlen : l.length = n.toNat), s.rest = l ++ rest →
      Wlp (stream clock starve) (k (.ok l hlen)) { s with rest := rest } Q)
    (hfail : ∀ (r : ReadReply n.toNat) (rest : List U8), r.ret < 0 → s.rest.length < n.toNat →
      rest <:+ s.rest → Wlp (stream clock starve) (k r) ⟨rest, s.looks, true⟩ Q) :
    Wlp (stream clock starve) (.call (.transportRead n) k) s Q := by
  refine .call ?_
  unfold stream
  dsimp only
  by_cases h : n.toNat ≤ s.rest.length
  · simp only [dif_pos h]
    exact hk _ _ _ (List.take_append_drop n.toNat s.rest).symm
  · simp only [dif_neg h]
    obtain ⟨hret, hrest⟩ := hdry n s
    exact hfail _ _ hret (Nat.lt_of_not_le h) hrest

/-- Where the wait ends well on a stream that runs dry, it has read `FRAME_START` from it. -/
theorem awaitFrameStart_dry (hdry : Dry starve) (timeStart : Time) (fuel : Nat) (currByte : U8)
    (s : Stream) :
    Wlp (stream clock starve) (awaitFrameStart timeStart fuel currByte) s fun r s' =>
      match r with
      | .error code => -113 ≤ code ∧ code ≤ -101
      | .ok ret => 0 ≤ ret → s'.starved = s.starved ∧
          ∃ junk, s.rest = junk ++ frameStart :: s'.rest ∧ frameStart ∉ junk := by
  -- The invariant: the stream is at its end, and stays there, or this has been skipped so far.
  refine awaitFrameStart_rule (I := fun t => t.rest = [] ∨ t.starved = s.starved ∧
    ∃ junk, s.rest = junk ++ t.rest ∧ frameStart ∉ junk) timeStart (fun _ _ hcode => hcode)
    (fun currByte t hI => ?_) fuel currByte s (.inr ⟨rfl, [], rfl, List.not_mem_nil⟩)
  refine dry_wlp hdry (fun l rest hlen hl => ?_) (fun r rest hret hshort hrest => ?_)
  · obtain ⟨x, rfl⟩ := List.length_eq_one_iff.mp hlen
    refine .call ?_
    refine .done ?_
    rw [hl] at hI
    rcases hI with hnil | ⟨hst, junk, hjunk, hnot⟩
    · exact absurd hnil (List.cons_ne_nil _ _)
    refine ⟨fun hx => .inr ⟨hst, junk ++ [x], ?_, ?_⟩, fun hx _ => ⟨hst, junk, ?_, hnot⟩⟩
    · exact hjunk.trans (List.append_cons ..)
    · exact List.not_mem_append hnot fun hmem => hx (List.mem_singleton.mp hmem).symm
    · have hx : x = frameStart := hx
      rw [hjunk, hx]
      rfl
  · have hnil : t.rest = [] := List.eq_nil_of_length_eq_zero (Nat.lt_one_iff.mp hshort)
    refine .call ?_
    exact .done ⟨fun _ => .inl (List.eq_nil_of_suffix_nil (hnil ▸ hrest)),
      fun _ hpos => absurd hpos (Int.not_le.mpr hret)⟩

/-- What is heard behind the header. -/
theorem listenBody_wlp (hdry : Dry starve) (fuel : Nat) {B : List U8} {hd : Header} {s : Stream}
    (hB : Heads B hd s.rest) :
    Wlp (stream clock starve) (listenBody fuel hd.bytes op messageNum hasBuf len) s
      (Hears op messageNum hasBuf len B s.starved) := by
  unfold listenBody
  have hn : fromBe16 (hd.bytes.getD 4 0) (hd.bytes.getD 5 0) = fromBe16 hd.hi hd.lo := rfl
  rw [hn]
  dsimp only
  split
  next => exact Wlp.bind fun _ s' _ => .done (.refused (by decide) (by decide))
  next hle =>
    have hfit : hd.len ≤ len.toNat := Nat.le_of_not_lt fun h => hle h
    split
    next hread =>
      have htakes : hd.takes op messageNum hasBuf = hd.len := if_pos ⟨hread.1, hread.2.1⟩
      refine dry_wlp hdry (fun payload rest hlen hl => ?_) (fun r rest hret hshort hrest => ?_)
      · refine dry_wlp hdry (fun sum rest₂ hlen₂ hl₂ => ?_) (fun c rest₂ hret hshort hrest₂ => ?_)
        · obtain ⟨hi, lo, rfl⟩ := List.length_eq_two.mp hlen₂
          have hl₂ : rest = hi :: lo :: rest₂ := hl₂
          refine .done (.whole ?_ hfit (hlen.trans htakes.symm) rfl)
          show Heads B hd (payload ++ (hi :: lo :: rest₂))
          rw [← hl₂, ← hl]
          exact hB
        · -- The checksum is cut.
          have hshort : rest.length < 2 := hshort
          have hlen : payload.length = hd.len := hlen
          have hle₂ := hrest₂.length_le
          have hle₂ : rest₂.length ≤ rest.length := hle₂
          refine .done (.cut hB hfit ?_ rfl ?_)
          · rw [htakes, hl, List.length_append]
            omega
          · rw [hl, List.length_append]
            show rest₂.length ≤ _
            omega
      · -- The payload is cut; what is read for the checksum makes no difference.
        have hshort : s.rest.length < hd.len := hshort
        have hle := hrest.length_le
        refine dry_wlp hdry (fun sum rest₂ hlen₂ hl₂ => ?_) (fun c rest₂ _ _ hrest₂ => ?_)
        · have hl₂ : rest = sum ++ rest₂ := hl₂
          refine .done (.cut hB hfit (by rw [htakes]; omega) rfl ?_)
          rw [hl₂, List.length_append] at hle
          show rest₂.length ≤ _
          omega
        · have hle₂ := hrest₂.length_le
          refine .done (.cut hB hfit (by rw [htakes]; omega) rfl ?_)
          exact Nat.le_trans hle₂ hle
    next hskip =>
      have htakes : hd.takes op messageNum hasBuf = 0 := by
        unfold Header.takes
        split
        next h =>
          by_contra hne
          exact hskip ⟨h.1, h.2, Nat.pos_of_ne_zero hne⟩
        next => rfl
      refine dry_wlp hdry (fun sum rest hlen hl => ?_) (fun c rest hret hshort hrest => ?_)
      · obtain ⟨hi, lo, rfl⟩ := List.length_eq_two.mp hlen
        refine .done (.whole ?_ hfit htakes.symm rfl)
        show Heads B hd (hi :: lo :: rest)
        have hl : s.rest = hi :: lo :: rest := hl
        rw [← hl]
        exact hB
      · have hshort : s.rest.length < 2 := hshort
        exact .done (.cut hB hfit (by omega) rfl hrest.length_le)

/-- **What `recv_packet` hears on a stream that runs dry**: an error, or the header at the first
`FRAME_START`, and behind it the payload it wants and a checksum, unless the stream ends. -/
theorem listen_wlp (hdry : Dry starve) (fuel : Nat) (s : Stream) :
    Wlp (stream clock starve) (listen fuel op messageNum hasBuf len) s
      (Hears op messageNum hasBuf len s.rest s.starved) := by
  unfold listen
  refine .call ?_
  split
  next => exact .done (.refused (by decide) (by decide))
  next =>
    refine Wlp.bind ((awaitFrameStart_dry hdry _ _ _ _).mono fun started s₁ hstarted => ?_)
    cases started with
    | error code => exact .done (.refused hstarted.1 hstarted.2)
    | ok ret =>
      dsimp only
      split
      next => exact .done (.refused (by decide) (by decide))
      next hret =>
        obtain ⟨hst, junk, hjunk, hnot⟩ := hstarted (Int.not_lt.mp hret)
        have hst : s₁.starved = s.starved := hst
        have hjunk : s.rest = junk ++ frameStart :: s₁.rest := hjunk
        refine dry_wlp hdry (fun l rest hlen hl => ?_) (fun r rest hret _ _ => ?_)
        · have hover : (ReadReply.ok l hlen).over (List.replicate 5 0) = l :=
            ReadReply.ok_over hlen rfl
          rw [ReadReply.ok_ret, if_neg (by decide), hover, ← hst]
          obtain ⟨op', messageNum', ack, hi, lo, rfl⟩ : ∃ a b c d e, l = [a, b, c, d, e] := by
            match l, hlen with
            | [a, b, c, d, e], _ => exact ⟨a, b, c, d, e, rfl⟩
          refine @listenBody_wlp clock starve op messageNum hasBuf len hdry fuel s.rest
            ⟨op', messageNum', ack, hi, lo⟩ { s₁ with rest := rest } ⟨junk, hnot, ?_⟩
          rw [hjunk, hl]
          rfl
        · rw [if_pos hret]
          exact .done (.refused (by decide) (by decide))

/-! ## What can be heard -/

/-- In time, the header is found. -/
theorem listen_header {B tail rest : List U8} {hd : Header} {i : Nat} {b b' : Bool} {heard : Heard}
    (hclock : ClockOkFrom clock i) (hB : Heads B hd tail)
    (hbody : ∀ fuel looks,
      Ends (stream clock starve) (listenBody fuel hd.bytes op messageNum hasBuf len)
        ⟨tail, looks, b⟩ heard ⟨rest, looks, b'⟩) :
    ∃ fuel looks, Ends (stream clock starve) (listen fuel op messageNum hasBuf len) ⟨B, i, b⟩ heard
      ⟨rest, looks, b'⟩ := by
  obtain ⟨junk, hjunk, rfl⟩ := hB
  have hfive : [hd.op, hd.messageNum, hd.ack, hd.hi, hd.lo].length = (5 : U16).toNat := rfl
  have hover : (ReadReply.ok _ hfive).over (List.replicate 5 0) = _ := ReadReply.ok_over hfive rfl
  refine ⟨junk.length + 1, i + 1 + junk.length + 1, .call ?_⟩
  show Ends _ (if (clock i).1 < 0 then _ else _) _ _ _
  rw [if_neg (Int.not_lt.mpr (hclock i).1)]
  refine (awaitFrameStart_ends hjunk hclock 0 (i + 1) b).bind ?_
  show Ends _ (if (0 : Int) < 0 then _ else _) _ _ _
  rw [if_neg (by decide)]
  refine read_ends hfive ?_
  rw [ReadReply.ok_ret, if_neg (by decide), hover]
  exact hbody _ _

/-- Behind a header that fits, the payload is read if it is wanted and there is one. -/
theorem listenBody_fits (fuel : Nat) {hd : Header} (hfit : hd.len ≤ len.toNat) :
    (hd.takes op messageNum hasBuf = 0 ∧ listenBody fuel hd.bytes op messageNum hasBuf len =
        .call (.transportRead 2) fun s => .done (.frame hd.bytes [] s.stored)) ∨
      (hd.takes op messageNum hasBuf = (fromBe16 hd.hi hd.lo).toNat ∧
        listenBody fuel hd.bytes op messageNum hasBuf len =
          .call (.transportRead (fromBe16 hd.hi hd.lo)) fun r =>
            .call (.transportRead 2) fun s => .done (.frame hd.bytes r.stored s.stored)) := by
  have hle : ¬ len < fromBe16 (hd.bytes.getD 4 0) (hd.bytes.getD 5 0) := Nat.not_lt.mpr hfit
  unfold listenBody
  dsimp only
  rw [if_neg hle]
  by_cases hread : headerError op messageNum hd.bytes = 0 ∧ hasBuf ∧
      0 < fromBe16 (hd.bytes.getD 4 0) (hd.bytes.getD 5 0)
  · rw [if_pos hread]
    exact .inr ⟨if_pos ⟨hread.1, hread.2.1⟩, rfl⟩
  · rw [if_neg hread]
    refine .inl ⟨?_, rfl⟩
    unfold Header.takes
    split
    next h =>
      by_contra hne
      exact hread ⟨h.1, h.2, Nat.pos_of_ne_zero hne⟩
    next => rfl

/-- A frame that is there in whole can be heard. -/
theorem listen_whole {B payload rest : List U8} {hd : Header} {hi lo : U8} {i : Nat} {b : Bool}
    (hclock : ClockOkFrom clock i) (hB : Heads B hd (payload ++ (hi :: lo :: rest)))
    (hfit : hd.len ≤ len.toNat) (hlen : payload.length = hd.takes op messageNum hasBuf) :
    ∃ fuel looks, Ends (stream clock starve) (listen fuel op messageNum hasBuf len) ⟨B, i, b⟩
      (.frame hd.bytes payload [hi, lo]) ⟨rest, looks, b⟩ := by
  refine listen_header hclock hB fun fuel looks => ?_
  rcases listenBody_fits fuel hfit with ⟨htakes, heq⟩ | ⟨htakes, heq⟩
  · rw [heq]
    have hnil : payload = [] := List.eq_nil_of_length_eq_zero (hlen.trans htakes)
    subst hnil
    exact read_ends (l := [hi, lo]) rfl (.done _ _)
  · rw [heq]
    exact read_ends (hlen.trans htakes) (read_ends (l := [hi, lo]) rfl (.done _ _))

/-- A read on a line that is silent where the stream ends. -/
theorem silent_ends {n : U16} {k : ReadReply n.toNat → IfcM α} {rest : List U8} {i : Nat}
    {b : Bool} {a : α} {s' : Stream} (hshort : rest.length < n.toNat)
    (hk : ∀ r : ReadReply n.toNat, r.stored = [] →
      Ends (stream clock silent) (k r) ⟨[], i, true⟩ a s') :
    Ends (stream clock silent) (.call (.transportRead n) k) ⟨rest, i, b⟩ a s' := by
  refine .call ?_
  unfold stream
  simp only [dif_neg (Nat.not_le.mpr hshort)]
  exact hk _ rfl

/-- A frame that is cut can be heard, without its checksum. -/
theorem listen_cut {B tail : List U8} {hd : Header} {i : Nat} {b : Bool}
    (hclock : ClockOkFrom clock i) (hB : Heads B hd tail) (hfit : hd.len ≤ len.toNat)
    (hshort : tail.length < hd.takes op messageNum hasBuf + 2) :
    ∃ fuel looks, Ends (stream clock silent) (listen fuel op messageNum hasBuf len) ⟨B, i, b⟩
      (.frame hd.bytes (if hd.takes op messageNum hasBuf ≤ tail.length then
        tail.take (hd.takes op messageNum hasBuf) else []) []) ⟨[], looks, true⟩ := by
  refine listen_header hclock hB fun fuel looks => ?_
  have hsum : ∀ (payload rest : List U8) (b : Bool), rest.length < 2 →
      Ends (stream clock silent)
        (.call (.transportRead 2) fun s => .done (Heard.frame hd.bytes payload s.stored))
        ⟨rest, looks, b⟩ (.frame hd.bytes payload []) ⟨[], looks, true⟩ := by
    intro payload rest b hrest
    refine silent_ends hrest fun s hs => ?_
    rw [hs]
    exact .done _ _
  rcases listenBody_fits fuel hfit with ⟨htakes, heq⟩ | ⟨htakes, heq⟩
  · rw [heq, htakes, if_pos (Nat.zero_le _), List.take_zero]
    exact hsum [] tail b (by omega)
  · rw [heq, htakes]
    by_cases hpay : (fromBe16 hd.hi hd.lo).toNat ≤ tail.length
    · rw [if_pos hpay]
      have hread := @read_ends clock silent Heard (fromBe16 hd.hi hd.lo)
        (fun r => .call (.transportRead 2) fun s => .done (.frame hd.bytes r.stored s.stored))
        (tail.take (fromBe16 hd.hi hd.lo).toNat) (tail.drop (fromBe16 hd.hi hd.lo).toNat) looks b
        _ _ (List.length_take_of_le hpay) (hsum _ _ b (by rw [List.length_drop]; omega))
      rw [List.take_append_drop] at hread
      exact hread
    · rw [if_neg hpay]
      refine silent_ends (Nat.lt_of_not_le hpay) fun r hr => ?_
      rw [hr]
      exact hsum [] [] true (by decide)

/-- In an exchange that does not starve, it makes no difference what a read would do that did. -/
theorem starve_irrelevant {p : IfcM α} {s s' : Stream} {a : α} (starve' : Starve)
    (hends : Ends (stream clock starve) p s a s') (hs' : s'.starved = false) :
    Ends (stream clock starve') p s a s' := by
  induction p generalizing s with
  | done b => exact hends
  | fault => exact hends
  | call e k ih =>
    refine .call ?_
    cases e with
    | transportWrite buf => exact ih _ (ends_call.mp hends)
    | gettime => exact ih _ (ends_call.mp hends)
    | transportRead n =>
      have hends := ends_call.mp hends
      by_cases h : n.toNat ≤ s.rest.length
      · have heq : ∀ starve : Starve, stream clock starve (.transportRead n) s =
            (.ok (s.rest.take n.toNat) (List.length_take_of_le h),
              { s with rest := s.rest.drop n.toNat }) := by
          intro starve
          unfold stream
          simp only [dif_pos h]
        rw [heq] at hends
        rw [heq]
        exact ih _ hends
      · have hstarved : (stream clock starve (.transportRead n) s).2.starved = true := by
          unfold stream
          simp only [dif_neg h]
        exact absurd hs' (starved_wlp hstarved (Q := fun _ _ => False) _ _ hends)

/-- What has been heard in an exchange that does not starve. -/
theorem listen_fed {B : List U8} {i fuel : Nat} {heard : Heard} {s' : Stream}
    (hends : Ends (stream clock starve) (listen fuel op messageNum hasBuf len) ⟨B, i, false⟩
      heard s') (hs' : s'.starved = false) :
    (∃ code ≤ -101, heard = .refused code) ∨
      ∃ (hd : Header) (payload : List U8) (hi lo : U8), heard = .frame hd.bytes payload [hi, lo] ∧
        Heads B hd (payload ++ (hi :: lo :: s'.rest)) ∧ hd.len ≤ len.toNat ∧
        payload.length = hd.takes op messageNum hasBuf := by
  have h := listen_wlp silent_dry fuel ⟨B, i, false⟩ heard s' (starve_irrelevant silent hends hs')
  cases h with
  | refused _ hcode => exact .inl ⟨_, hcode, rfl⟩
  | whole hB hfit hlen _ => exact .inr ⟨_, _, _, _, rfl, hB, hfit, hlen⟩
  | cut _ _ _ hst _ => rw [hs'] at hst; cases hst

/-! ## `hal_read_write` on a stream -/

theorem sendPacket_ends_iff {buf : Option (List U8)} {s s' : Stream} :
    Ends (stream clock starve) (sendPacket op messageNum buf len) s () s' ↔ s' = s := by
  unfold sendPacket
  rw [ends_call]
  split
  next => rw [ends_call, ends_call, ends_done, eq_self_iff_true, true_and]; rfl
  next => rw [ends_call, ends_done, eq_self_iff_true, true_and]; rfl

/-- A command with valid arguments is sent, and the response is listened for. -/
theorem halReadWrite_ends_iff {fuel : Nat} {checksumBuff : List U8} {messageNum messageNum' : U32}
    {c : Command} {s s' : Stream} {r : Int × Option (List U8)}
    (hin : badBuffer c.bufIn c.inLen = false) (hout : badBuffer c.bufOut c.outLen = false) :
    Ends (stream clock starve) (halReadWrite fuel checksumBuff messageNum c) s (r, messageNum') s' ↔
      messageNum' = messageNum + 1 ∧ ∃ heard,
        Ends (stream clock starve)
          (listen fuel c.op (messageNum.setWidth 8) c.bufOut.isSome c.outLen) s heard s' ∧
        r = conclude checksumBuff c.op (messageNum.setWidth 8) c.bufOut heard := by
  unfold halReadWrite
  rw [hin, hout, if_neg Bool.false_ne_true, if_neg Bool.false_ne_true, ends_bind]
  constructor
  · intro h
    obtain ⟨u, s₁, hsend, h⟩ := h
    have hs₁ := sendPacket_ends_iff.mp hsend
    rw [hs₁, ends_bind] at h
    obtain ⟨ret, s₂, hrecv, h⟩ := h
    obtain ⟨heq, rfl⟩ := ends_done.mp h
    obtain ⟨rfl, rfl⟩ := Prod.mk.inj heq
    exact ⟨rfl, recvPacket_ends_iff.mp hrecv⟩
  · rintro ⟨rfl, h⟩
    exact ⟨(), s, sendPacket_ends_iff.mpr rfl, (recvPacket_ends_iff.mpr h).bind (.done _ _)⟩

end Stream

/-- Invalid arguments are refused, and nothing is sent. -/
theorem halReadWrite_refused {fuel : Nat} {checksumBuff : List U8} {messageNum : U32} {c : Command}
    (h : badBuffer c.bufIn c.inLen = true ∨ badBuffer c.bufOut c.outLen = true) :
    halReadWrite fuel checksumBuff messageNum c =
      .done ((errorIncorrectParameter, c.bufOut), messageNum) := by
  unfold halReadWrite
  rcases h with h | h
  · rw [if_pos h]
  · rw [if_pos h, ite_self]

end HostInterface.Ifc

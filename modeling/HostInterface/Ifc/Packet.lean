import HostInterface.Interact.Prog
import HostInterface.Utils
import Mathlib.Data.List.Basic

/-!
# Exchanges with the module (`ll_ifc.c`)

The host sends a command frame and waits for the response frame: `hal_read_write`
over `send_packet` and `recv_packet`. The serial line and the clock are the calls
of an `IfcM`. Of `transport_read` only the documentation is assumed: 0 means that
all `len` bytes are in the buffer; on any other result it may have stored some of
them, and the rest of the buffer is as it was.

Two loops have no bound of their own, the wait for `FRAME_START` and the draining
of an oversize response. They take a `fuel`, and a loop that uses it up is a
`fault`, so whatever is proved of a result is proved for every number of turns.

Memory that the source leaves uninitialised is an argument: `checksumBuff` is what
the two bytes of `checksum_buff` hold on entry.
-/

namespace HostInterface.Ifc

open Interact Prog

/-- `FRAME_START`. -/
abbrev frameStart : U8 := 0xC4#8
/-- `LL_IFC_ERROR_INCORRECT_PARAMETER`. -/
abbrev errorIncorrectParameter : Int := -101
/-- `LL_IFC_ERROR_MESSAGE_NUMBER_MISMATCH`. -/
abbrev errorMessageNumberMismatch : Int := -103
/-- `LL_IFC_ERROR_CHECKSUM_MISMATCH`. -/
abbrev errorChecksumMismatch : Int := -104
/-- `LL_IFC_ERROR_COMMAND_MISMATCH`. -/
abbrev errorCommandMismatch : Int := -105
/-- `LL_IFC_ERROR_HOST_INTERFACE_TIMEOUT`. -/
abbrev errorHostInterfaceTimeout : Int := -106
/-- `LL_IFC_ERROR_BUFFER_TOO_SMALL`. -/
abbrev errorBufferTooSmall : Int := -107
/-- `LL_IFC_ERROR_START_OF_FRAME`. -/
abbrev errorStartOfFrame : Int := -108
/-- `LL_IFC_ERROR_HEADER`. -/
abbrev errorHeader : Int := -109
/-- `LL_IFC_ERROR_HAL_CALL_FAILED`. -/
abbrev errorHalCallFailed : Int := -113

/-- What `transport_read` returns, and what it has stored at the start of the buffer. -/
structure ReadReply (len : Nat) where
  ret : Int
  stored : List U8
  fits : stored.length ≤ len
  full : ret = 0 → stored.length = len

/-- The buffer after the read, from what it held before. -/
def ReadReply.over {len : Nat} (r : ReadReply len) (old : List U8) : List U8 :=
  r.stored ++ old.drop r.stored.length

/-- A read of nothing stores nothing. -/
theorem ReadReply.over_of_zero {len : Nat} (r : ReadReply len) (h : len = 0) (old : List U8) :
    r.over old = old := by
  have hnil : r.stored = [] := List.eq_nil_of_length_eq_zero (Nat.le_zero.mp (h ▸ r.fits))
  unfold ReadReply.over
  rw [hnil]
  rfl

/-- A read that succeeds with the bytes `l`. -/
def ReadReply.ok {len : Nat} (l : List U8) (h : l.length = len) : ReadReply len :=
  ⟨0, l, Nat.le_of_eq h, fun _ => h⟩

@[simp] theorem ReadReply.ok_ret {len : Nat} (l : List U8) (h : l.length = len) :
    (ReadReply.ok l h).ret = 0 := rfl

/-- A read that fails and stores nothing. -/
def ReadReply.failed {len : Nat} : ReadReply len :=
  ⟨-1, [], Nat.zero_le _, fun h => absurd h (by decide)⟩

/-- A read that succeeds leaves nothing of a buffer of its length. -/
theorem ReadReply.ok_over {len : Nat} {l old : List U8} (h : l.length = len)
    (hold : old.length = len) : (ReadReply.ok l h).over old = l := by
  show l ++ old.drop l.length = l
  rw [List.drop_of_length_le (by omega), List.append_nil]

/-- What the code asks of its surroundings. -/
inductive Call where
  | transportWrite (buf : List U8)
  | transportRead (len : U16)
  | gettime

/-- What comes back; for `gettime` the return value and what `*tp` holds afterwards. -/
abbrev Reply : Call → Type
  | .transportWrite _ => Int
  | .transportRead len => ReadReply len.toNat
  | .gettime => Int × Time

abbrev IfcM := Prog Reply

/-! ## Checksum and frames -/

/-- One byte of `compute_checksum`. -/
def checksumByte (crc : U16) (b : U8) : U16 :=
  let crc := (crc >>> 8) ||| (crc <<< 8)
  let crc := crc ^^^ b.setWidth 16
  let crc := crc ^^^ ((crc &&& 0xff) >>> 4)
  let crc := crc ^^^ (crc <<< 12)
  crc ^^^ ((crc &&& 0xff) <<< 5)

/-- `compute_checksum`. -/
def computeChecksum (hdr payload : List U8) : U16 :=
  payload.foldl checksumByte (hdr.foldl checksumByte 0)

/-- The two bytes of a half word, high byte first. -/
def be16 (x : U16) : List U8 :=
  [(x >>> 8).setWidth 8, x.setWidth 8]

/-- A half word from its high and its low byte, `lo + (hi << 8)`. -/
def fromBe16 (hi lo : U8) : U16 :=
  lo.setWidth 16 + (hi.setWidth 16 <<< 8)

theorem fromBe16_be16 (x : U16) : fromBe16 ((x >>> 8).setWidth 8) (x.setWidth 8) = x := by
  apply BitVec.eq_of_toNat_eq
  unfold fromBe16
  rw [BitVec.toNat_add, BitVec.toNat_shiftLeft, BitVec.toNat_setWidth, BitVec.toNat_setWidth,
    BitVec.toNat_setWidth, BitVec.toNat_setWidth, BitVec.toNat_ushiftRight,
    Nat.shiftRight_eq_div_pow, Nat.shiftLeft_eq]
  have := x.isLt
  omega

theorem be16_fromBe16 (hi lo : U8) : be16 (fromBe16 hi lo) = [hi, lo] := by
  have hhi := hi.isLt
  have hlo := lo.isLt
  have hval : (fromBe16 hi lo).toNat = lo.toNat + hi.toNat * 256 := by
    unfold fromBe16
    rw [BitVec.toNat_add, BitVec.toNat_shiftLeft, BitVec.toNat_setWidth, BitVec.toNat_setWidth,
      Nat.shiftLeft_eq]
    omega
  have h₁ : ((fromBe16 hi lo) >>> 8).setWidth 8 = hi := by
    apply BitVec.eq_of_toNat_eq
    rw [BitVec.toNat_setWidth, BitVec.toNat_ushiftRight, hval, Nat.shiftRight_eq_div_pow]
    omega
  have h₂ : (fromBe16 hi lo).setWidth 8 = lo := by
    apply BitVec.eq_of_toNat_eq
    rw [BitVec.toNat_setWidth, hval]
    omega
  unfold be16
  rw [h₁, h₂]

/-! ## Sending -/

/-- `send_packet`. -/
def sendPacket (op messageNum : U8) (buf : Option (List U8)) (len : U16) : IfcM Unit :=
  let header := [frameStart, op, messageNum] ++ be16 len
  let payload := (buf.getD []).take len.toNat
  let computedChecksum := computeChecksum header payload
  .call (.transportWrite (List.replicate 4 0xff ++ header)) fun _ =>
    if buf.isSome then
      .call (.transportWrite payload) fun _ =>
        .call (.transportWrite (be16 computedChecksum)) fun _ => .done ()
    else .call (.transportWrite (be16 computedChecksum)) fun _ => .done ()

/-! ## Receiving -/

/-- The loop of `recv_packet` that waits for `FRAME_START`: the error it returns with, or
the result of the read that found it. -/
def awaitFrameStart (timeStart : Time) : Nat → U8 → IfcM (Except Int Int)
  | 0, _ => .fault
  | fuel + 1, currByte =>
    .call (.transportRead 1) fun r =>
      let currByte := (r.over [currByte]).getD 0 0
      .call .gettime fun now =>
        if now.1 < 0 then .done (.error errorHalCallFailed)
        else if now.2.tvSec - timeStart.tvSec > 2 then .done (.error errorHostInterfaceTimeout)
        else if currByte ≠ frameStart then awaitFrameStart timeStart fuel currByte
        else .done (.ok r.ret)

/-- The loop that pulls an oversize response out of the FIFO. -/
def drain : Nat → IfcM Unit
  | 0 => .fault
  | fuel + 1 =>
    .call (.transportRead 1) fun r => if r.ret = 0 then drain fuel else .done ()

/-- The three checks of the header; a later one overrides an earlier one. -/
def headerError (op messageNum : U8) (headerBuf : List U8) : Int :=
  let retValue := if headerBuf.getD 1 0 ≠ op then errorCommandMismatch else 0
  let retValue := if headerBuf.getD 2 0 ≠ messageNum then errorMessageNumberMismatch else retValue
  if headerBuf.getD 3 0 ≠ 0 then 0 - ((headerBuf.getD 3 0).toNat : Int) else retValue

/-- The header passes all three checks exactly when it is an ACK of this command. -/
theorem headerError_eq_zero {op messageNum : U8} {headerBuf : List U8} :
    headerError op messageNum headerBuf = 0 ↔ headerBuf.getD 1 0 = op ∧
      headerBuf.getD 2 0 = messageNum ∧ headerBuf.getD 3 0 = 0 := by
  unfold headerError
  dsimp only
  by_cases h₃ : headerBuf.getD 3 0 = 0
  · rw [if_neg (not_not_intro h₃)]
    by_cases h₂ : headerBuf.getD 2 0 = messageNum
    · rw [if_neg (not_not_intro h₂)]
      by_cases h₁ : headerBuf.getD 1 0 = op
      · rw [if_neg (not_not_intro h₁)]
        exact iff_of_true rfl ⟨h₁, h₂, h₃⟩
      · rw [if_pos h₁]
        exact iff_of_false (by decide) fun h => h₁ h.1
    · rw [if_pos h₂]
      exact iff_of_false (by decide) fun h => h₂ h.2.1
  · -- The byte of a NACK overrides the other checks, and its negation is not zero.
    have hpos : (headerBuf.getD 3 0).toNat ≠ 0 := fun h => h₃ (BitVec.eq_of_toNat_eq h)
    rw [if_pos h₃]
    exact iff_of_false (by omega) fun h => h₃ h.2.2

/-- What the checks report is never positive. -/
theorem headerError_nonpos (op messageNum : U8) (headerBuf : List U8) :
    headerError op messageNum headerBuf ≤ 0 := by
  unfold headerError
  dsimp only
  split
  next => omega
  next =>
    split
    next => decide
    next =>
      split
      next => decide
      next => exact Int.le_refl 0

/-- The end of `recv_packet`: the checksum over the header and what the buffer holds. -/
def recvChecksum (checksumBuff headerBuf : List U8) (retValue : Int) (buf : Option (List U8))
    (len : U16) : IfcM (Int × Option (List U8)) :=
  .call (.transportRead 2) fun r =>
    let checksumBuff := r.over checksumBuff
    let computedChecksum := computeChecksum headerBuf ((buf.getD []).take len.toNat)
    if fromBe16 (checksumBuff.getD 0 0) (checksumBuff.getD 1 0) ≠ computedChecksum then
      .done (errorChecksumMismatch, buf)
    else if retValue = 0 then .done (len.toNat, buf)
    else .done (retValue, buf)

/-- `recv_packet` behind the header. The payload is read only where `ret_value` is still
zero, the checksum always. -/
def recvBody (fuel : Nat) (checksumBuff headerBuf : List U8) (op messageNum : U8)
    (buf : Option (List U8)) (len : U16) : IfcM (Int × Option (List U8)) :=
  let lenFromHeader := fromBe16 (headerBuf.getD 4 0) (headerBuf.getD 5 0)
  let retValue := headerError op messageNum headerBuf
  if len < lenFromHeader then do
    drain fuel
    return (errorBufferTooSmall, buf)
  else
    let len := if lenFromHeader < len then lenFromHeader else len
    if retValue = 0 ∧ buf.isSome ∧ 0 < len then
      .call (.transportRead len) fun r =>
        recvChecksum checksumBuff headerBuf retValue (buf.map r.over) len
    else recvChecksum checksumBuff headerBuf retValue buf len

/-- `recv_packet`: the result and the caller's buffer. -/
def recvPacket (fuel : Nat) (checksumBuff : List U8) (op messageNum : U8) (buf : Option (List U8))
    (len : U16) : IfcM (Int × Option (List U8)) :=
  .call .gettime fun start =>
    if start.1 < 0 then .done (errorHalCallFailed, buf)
    else do
      let started ← awaitFrameStart start.2 fuel 0
      match started with
      | .error code => return (code, buf)
      | .ok ret =>
        if ret < 0 then return (errorStartOfFrame, buf)
        .call (.transportRead 5) fun r =>
          if r.ret < 0 then .done (errorHeader, buf)
          else
            recvBody fuel checksumBuff (frameStart :: r.over (List.replicate 5 0)) op messageNum buf
              len

/-- The payload length of a response that fits is the header's. -/
theorem clamp_eq {n len : U16} (h : n.toNat ≤ len.toNat) : (if n < len then n else len) = n := by
  split
  next => rfl
  next hge =>
    have hge : ¬ n.toNat < len.toNat := hge
    exact BitVec.eq_of_toNat_eq (by omega)

/-! ## The loops -/

theorem awaitFrameStart_below (timeStart : Time) :
    ∀ (m n : Nat) (currByte : U8), m ≤ n →
      Below (awaitFrameStart timeStart m currByte) (awaitFrameStart timeStart n currByte) := by
  intro m
  induction m with
  | zero => intro n currByte _; exact Below.fault _
  | succ m ih =>
    intro n currByte hle
    obtain ⟨n, rfl⟩ : ∃ n', n = n' + 1 := ⟨n - 1, by omega⟩
    refine Below.call fun r => Below.call fun now => Below.ite (Below.refl _) ?_
    exact Below.ite (Below.refl _) (Below.ite (ih n _ (by omega)) (Below.refl _))

/-- One turn of the wait, whatever the clock says: the byte it looks at, and the result of the
read. -/
def awaitTurn (currByte : U8) : IfcM (U8 × Int) :=
  .call (.transportRead 1) fun r =>
    .call .gettime fun _ => .done ((r.over [currByte]).getD 0 0, r.ret)

/-- The rule for the wait: `I` holds before each turn. -/
theorem awaitFrameStart_rule {σ : Type} {h : (e : Call) → σ → Reply e × σ} {I : σ → Prop}
    {Q : Except Int Int → σ → Prop} (timeStart : Time)
    (herror : ∀ code s, -113 ≤ code ∧ code ≤ -101 → Q (.error code) s)
    (hturn : ∀ currByte s, I s → Wlp h (awaitTurn currByte) s fun x s' =>
      (x.1 ≠ frameStart → I s') ∧ (x.1 = frameStart → Q (.ok x.2) s'))
    (fuel : Nat) : ∀ (currByte : U8) (s : σ), I s →
      Wlp h (awaitFrameStart timeStart fuel currByte) s Q := by
  induction fuel with
  | zero =>
    intro currByte s _
    exact .fault
  | succ fuel ih =>
    intro currByte s hI
    obtain ⟨hmore, hfound⟩ := hturn currByte s hI _ _ (.call (.call (.done _ _)))
    refine .call (.call ?_)
    split
    next => exact .done (herror _ _ (by decide))
    next =>
      split
      next => exact .done (herror _ _ (by decide))
      next =>
        split
        next hx => exact ih _ _ (hmore hx)
        next hx => exact .done (hfound (Decidable.not_not.mp hx))

theorem drain_below : ∀ m n : Nat, m ≤ n → Below (drain m) (drain n) := by
  intro m
  induction m with
  | zero => intro n _; exact Below.fault _
  | succ m ih =>
    intro n hle
    obtain ⟨n, rfl⟩ : ∃ n', n = n' + 1 := ⟨n - 1, by omega⟩
    exact Below.call fun r => Below.ite (ih n (by omega)) (Below.refl _)

theorem recvBody_below (checksumBuff headerBuf : List U8) (op messageNum : U8)
    (buf : Option (List U8)) (len : U16) {m n : Nat} (hle : m ≤ n) :
    Below (recvBody m checksumBuff headerBuf op messageNum buf len)
      (recvBody n checksumBuff headerBuf op messageNum buf len) := by
  unfold recvBody
  dsimp only
  split
  next => exact Below.bind (drain_below m n hle) fun _ => Below.refl _
  next => exact Below.refl _

theorem recvPacket_below (checksumBuff : List U8) (op messageNum : U8) (buf : Option (List U8))
    (len : U16) (m n : Nat) (hle : m ≤ n) :
    Below (recvPacket m checksumBuff op messageNum buf len)
      (recvPacket n checksumBuff op messageNum buf len) := by
  unfold recvPacket
  refine Below.call fun start => ?_
  split
  next => exact Below.refl _
  next =>
    refine Below.bind (awaitFrameStart_below _ m n 0 hle) fun started => ?_
    cases started with
    | error code => exact Below.refl _
    | ok ret =>
      dsimp only
      split
      next => exact Below.refl _
      next =>
        refine Below.call fun r => ?_
        split
        next => exact Below.refl _
        next => exact recvBody_below _ _ _ _ _ _ hle

/-- **`recv_packet` has one result**, however many turns of its loops are looked at. -/
theorem recvPacket_unique {σ : Type} {h : (e : Call) → σ → Reply e × σ} {s s₁ s₂ : σ}
    {checksumBuff : List U8} {op messageNum : U8} {buf : Option (List U8)} {len : U16} {m n : Nat}
    {r₁ r₂ : Int × Option (List U8)}
    (h₁ : Ends h (recvPacket m checksumBuff op messageNum buf len) s r₁ s₁)
    (h₂ : Ends h (recvPacket n checksumBuff op messageNum buf len) s r₂ s₂) :
    r₁ = r₂ ∧ s₁ = s₂ :=
  Below.unique (recvPacket_below checksumBuff op messageNum buf len) h₁ h₂

/-! ## `hal_read_write` -/

/-- The arguments of one `hal_read_write`; `none` is `NULL`. A buffer that is there has at
least the bytes its length says. -/
structure Command where
  op : U8
  bufIn : Option (List U8)
  inLen : U16
  bufOut : Option (List U8)
  outLen : U16
  inFits : ∀ b, bufIn = some b → inLen.toNat ≤ b.length
  outFits : ∀ b, bufOut = some b → outLen.toNat ≤ b.length

/-- The test for an invalid combination of buffer and length. -/
def badBuffer (buf : Option (List U8)) (len : U16) : Bool :=
  (buf.isSome && len = 0) || (buf.isNone && decide (0 < len))

/-- `hal_read_write`, with the global `message_num`, whose low byte goes on the line: the
result and the output buffer, and the new `message_num`. -/
def halReadWrite (fuel : Nat) (checksumBuff : List U8) (messageNum : U32) (c : Command) :
    IfcM ((Int × Option (List U8)) × U32) :=
  if badBuffer c.bufIn c.inLen then .done ((errorIncorrectParameter, c.bufOut), messageNum)
  else if badBuffer c.bufOut c.outLen then .done ((errorIncorrectParameter, c.bufOut), messageNum)
  else do
    sendPacket c.op (messageNum.setWidth 8) c.bufIn c.inLen
    let ret ← recvPacket fuel checksumBuff c.op (messageNum.setWidth 8) c.bufOut c.outLen
    return (ret, messageNum + 1)

/-- What passes the test has as many bytes as its length says. -/
theorem badBuffer_fits {buf : Option (List U8)} {len : U16} (h : badBuffer buf len = false)
    (hfits : ∀ b, buf = some b → len.toNat ≤ b.length) : len.toNat ≤ (buf.getD []).length := by
  cases buf with
  | some b => exact hfits b rfl
  | none =>
    have hnot : ¬ 0 < len := by simpa [badBuffer] using h
    have hnot : ¬ 0 < len.toNat := hnot
    show len.toNat ≤ 0
    omega

/-! ## Results that say something against any other side -/

section Any

variable {σ : Type} {h : (e : Call) → σ → Reply e × σ} {s : σ}

/-- Behind the checksum, only a header without an error gives a length. -/
theorem recvChecksum_post (checksumBuff headerBuf : List U8) {retValue : Int}
    (hret : retValue ≤ 0) (buf : Option (List U8)) (len : U16) :
    Wlp h (recvChecksum checksumBuff headerBuf retValue buf len) s
      fun r _ => 0 ≤ r.1 → retValue = 0 ∧ r = ((len.toNat : Int), buf) := by
  refine .call ?_
  dsimp only
  split
  next => exact .done fun h => absurd (show 0 ≤ errorChecksumMismatch from h) (by decide)
  next =>
    split
    next hzero => exact .done fun _ => ⟨hzero, rfl⟩
    next hzero => exact .done fun h => absurd (show (0 : Int) ≤ retValue from h) (by omega)

/-- Behind a header, a length is the header's, of an ACK for this command that fits, and the
buffer holds what the read of the payload has stored. -/
theorem recvBody_post (fuel : Nat) (checksumBuff : List U8) (op' messageNum' ack hi lo : U8)
    (op messageNum : U8) {buf : Option (List U8)} {len : U16}
    (hbuf : len.toNat ≤ (buf.getD []).length) :
    Wlp h (recvBody fuel checksumBuff [frameStart, op', messageNum', ack, hi, lo] op messageNum
        buf len) s
      fun r _ => 0 ≤ r.1 → (op' = op ∧ messageNum' = messageNum ∧ ack = 0) ∧
        r = (((fromBe16 hi lo).toNat : Int),
          buf.map (h (.transportRead (fromBe16 hi lo)) s).1.over) := by
  unfold recvBody
  have hlo : fromBe16 ([frameStart, op', messageNum', ack, hi, lo].getD 4 0)
      ([frameStart, op', messageNum', ack, hi, lo].getD 5 0) = fromBe16 hi lo := rfl
  have hnonpos := headerError_nonpos op messageNum [frameStart, op', messageNum', ack, hi, lo]
  have hzero := @headerError_eq_zero op messageNum [frameStart, op', messageNum', ack, hi, lo]
  rw [hlo]
  dsimp only
  generalize headerError op messageNum [frameStart, op', messageNum', ack, hi, lo] = retValue at *
  generalize fromBe16 hi lo = n
  split
  next =>
    -- Too long for the buffer: drained, and an error.
    refine Wlp.bind fun u s' _ => .done fun h => ?_
    exact absurd (show 0 ≤ errorBufferTooSmall from h) (by decide)
  next hle =>
    have hn : n.toNat ≤ len.toNat := Nat.le_of_not_lt fun h => hle h
    rw [clamp_eq hn]
    split
    next hread =>
      refine .call ((recvChecksum_post checksumBuff _ hnonpos _ n).mono fun r s' hr hpos => ?_)
      obtain ⟨hret, hreq⟩ := hr hpos
      exact ⟨hzero.mp hret, hreq⟩
    next hskip =>
      refine (recvChecksum_post checksumBuff _ hnonpos _ n).mono fun r s' hr hpos => ?_
      obtain ⟨hret, rfl⟩ := hr hpos
      refine ⟨hzero.mp hret, Prod.ext rfl ?_⟩
      cases buf with
      | none => rfl
      | some b =>
        -- An empty payload is not read; reading it would store nothing.
        have hn0 : n.toNat = 0 := by
          by_contra hne
          exact hskip ⟨hret, rfl, Nat.pos_of_ne_zero hne⟩
        exact congrArg some (ReadReply.over_of_zero _ hn0 b).symm

end Any

/-- What `recv_packet` calls: reads and the clock. -/
def Listens : Call → Prop
  | .transportWrite _ => False
  | _ => True

theorem awaitFrameStart_only (timeStart : Time) (fuel : Nat) (currByte : U8) :
    (awaitFrameStart timeStart fuel currByte).Only Listens := by
  induction fuel generalizing currByte with
  | zero => trivial
  | succ fuel ih =>
    refine Only.call trivial fun r => Only.call trivial fun now => ?_
    exact Only.ite trivial (Only.ite trivial (Only.ite (ih _) trivial))

theorem drain_only (fuel : Nat) : (drain fuel).Only Listens := by
  induction fuel with
  | zero => trivial
  | succ fuel ih => exact Only.call trivial fun r => Only.ite ih trivial

theorem recvChecksum_only (checksumBuff headerBuf : List U8) (retValue : Int)
    (buf : Option (List U8)) (len : U16) :
    (recvChecksum checksumBuff headerBuf retValue buf len).Only Listens := by
  unfold recvChecksum
  refine Only.call trivial fun r => ?_
  rw [only_ite, only_ite]
  exact ⟨fun _ => trivial, fun _ => ⟨fun _ => trivial, fun _ => trivial⟩⟩

theorem recvBody_only (fuel : Nat) (checksumBuff headerBuf : List U8) (op messageNum : U8)
    (buf : Option (List U8)) (len : U16) :
    (recvBody fuel checksumBuff headerBuf op messageNum buf len).Only Listens := by
  unfold recvBody
  rw [only_ite, only_ite]
  exact ⟨fun _ => Only.bind (drain_only fuel) fun _ _ _ => trivial, fun _ =>
    ⟨fun _ => Only.call trivial fun r => recvChecksum_only _ _ _ _ _,
      fun _ => recvChecksum_only _ _ _ _ _⟩⟩

/-- A frame that is accepted has had its payload read: what that read has made of the
environment is still so at the end, if no other read undoes it. -/
theorem recvBody_reads {σ : Type} {h : (e : Call) → σ → Reply e × σ} {I : σ → Prop} {s : σ}
    (hI : ∀ e s, Listens e → I s → I (h e s).2) (fuel : Nat) (checksumBuff : List U8)
    (op' messageNum' ack hi lo op messageNum : U8) {buf : Option (List U8)} {len : U16}
    (hbuf : len.toNat ≤ (buf.getD []).length) (hpos : 0 < (fromBe16 hi lo).toNat)
    (hread : I (h (.transportRead (fromBe16 hi lo)) s).2) :
    Wlp h (recvBody fuel checksumBuff [frameStart, op', messageNum', ack, hi, lo] op messageNum
        buf len) s
      fun r s' => 0 ≤ r.1 → I s' := by
  unfold recvBody
  have hlo : fromBe16 ([frameStart, op', messageNum', ack, hi, lo].getD 4 0)
      ([frameStart, op', messageNum', ack, hi, lo].getD 5 0) = fromBe16 hi lo := rfl
  have hnonpos := headerError_nonpos op messageNum [frameStart, op', messageNum', ack, hi, lo]
  rw [hlo]
  dsimp only
  generalize headerError op messageNum [frameStart, op', messageNum', ack, hi, lo] = retValue at *
  generalize fromBe16 hi lo = n at *
  split
  next =>
    refine Wlp.bind fun u s' _ => .done fun h => ?_
    exact absurd (show 0 ≤ errorBufferTooSmall from h) (by decide)
  next hle =>
    have hn : n.toNat ≤ len.toNat := Nat.le_of_not_lt fun h => hle h
    rw [clamp_eq hn]
    split
    next =>
      refine .call ((Wlp.invariant (recvChecksum_only _ _ _ _ _) hI hread).mono ?_)
      exact fun r s' hs' _ => hs'
    next hskip =>
      refine (recvChecksum_post checksumBuff _ hnonpos _ n).mono fun r s' hr hr0 => ?_
      obtain ⟨hret, -⟩ := hr hr0
      -- There is a buffer, since the payload fits into it.
      cases buf with
      | none => exact absurd hbuf (by simp; omega)
      | some b => exact absurd ⟨hret, rfl, hpos⟩ hskip

/-- `recv_packet` writes nothing. -/
theorem recvPacket_only (fuel : Nat) (checksumBuff : List U8) (op messageNum : U8)
    (buf : Option (List U8)) (len : U16) :
    (recvPacket fuel checksumBuff op messageNum buf len).Only Listens := by
  unfold recvPacket
  refine Only.call trivial fun start => ?_
  rw [only_ite]
  refine ⟨fun _ => trivial, fun _ => ?_⟩
  refine Only.bind (awaitFrameStart_only _ _ _) fun _ started _ => ?_
  cases started with
  | error code => trivial
  | ok ret =>
    rw [only_ite]
    refine ⟨fun _ => trivial, fun _ => Only.call trivial fun r => ?_⟩
    rw [only_ite]
    refine ⟨fun _ => trivial, fun _ => ?_⟩
    generalize frameStart :: r.over (List.replicate 5 0) = headerBuf
    exact recvBody_only _ _ _ _ _ _ _

end HostInterface.Ifc

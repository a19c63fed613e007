import HostInterface.Ifc.Packet

/-!
# The frames `recv_packet` accepts

`recv_packet` skips what is not `FRAME_START`, and returns a length exactly when
what follows is a response frame to its opcode and message number whose payload
fits into the buffer (`recvPacket_accepts_iff`). The stream is consumed up to the
end of that frame and no further.

The other side is `stream`: each read delivers the next bytes, as long as there
are enough of them. A read that asks for more fails in any way it likes, which
the flag `starved` records, so `starved = false` at the end means that every read
of the exchange succeeded.
-/

namespace HostInterface.Ifc

open Interact Prog

/-- The six bytes of a response header. -/
def respHeader (op messageNum ack : U8) (len : U16) : List U8 :=
  [frameStart, op, messageNum, ack] ++ be16 len

/-- A response frame: header, payload, checksum. -/
def respFrame (op messageNum ack : U8) (payload : List U8) : List U8 :=
  let header := respHeader op messageNum ack (BitVec.ofNat 16 payload.length)
  header ++ (payload ++ be16 (computeChecksum header payload))

/-- A frame in the parts it is read in. -/
theorem respFrame_append (op messageNum ack : U8) (payload rest : List U8) :
    respFrame op messageNum ack payload ++ rest =
      frameStart :: (([op, messageNum, ack] ++ be16 (BitVec.ofNat 16 payload.length)) ++
        (payload ++ (be16 (computeChecksum
          (respHeader op messageNum ack (BitVec.ofNat 16 payload.length)) payload) ++ rest))) := by
  unfold respFrame respHeader
  simp only [List.cons_append, List.nil_append, List.append_assoc]

/-- What is left of the stream, how often the clock has been looked at, and whether a read
has asked for more than there was. -/
structure Stream where
  rest : List U8
  looks : Nat
  starved : Bool

/-- What a read may do when there are not enough bytes. -/
abbrev Starve := (len : U16) → Stream → ReadReply len.toNat × List U8

/-- The serial line as a stream of bytes, and the clock. -/
def stream (clock : Nat → Int × Time) (starve : Starve) : (e : Call) → Stream → Reply e × Stream
  | .transportWrite _, s => ((0 : Int), s)
  | .transportRead len, s =>
    if h : len.toNat ≤ s.rest.length then
      (.ok (s.rest.take len.toNat) (List.length_take_of_le h),
        { s with rest := s.rest.drop len.toNat })
    else ((starve len s).1, { s with rest := (starve len s).2, starved := true })
  | .gettime, s => (clock s.looks, { s with looks := s.looks + 1 })

/-- The clock works, and is never more than two seconds past its first value. -/
def ClockOk (clock : Nat → Int × Time) : Prop :=
  ∀ i, 0 ≤ (clock i).1 ∧ (clock i).2.tvSec - (clock 0).2.tvSec ≤ 2

section Stream

variable {clock : Nat → Int × Time} {starve : Starve} {α : Type}

/-- A read for which there are enough bytes. -/
theorem read_ends {len : U16} {k : ReadReply len.toNat → IfcM α} {l rest : List U8} {i : Nat}
    {b : Bool} {a : α} {s' : Stream} (hlen : l.length = len.toNat)
    (hk : Ends (stream clock starve) (k (.ok l hlen)) ⟨rest, i, b⟩ a s') :
    Ends (stream clock starve) (.call (.transportRead len) k) ⟨l ++ rest, i, b⟩ a s' := by
  refine .call ?_
  have henough : len.toNat ≤ (l ++ rest).length := by
    rw [List.length_append]
    omega
  unfold stream
  simp only [dif_pos henough, List.drop_left' hlen, List.take_left' hlen]
  exact hk

/-- Once a read has starved, the exchange stays so. -/
theorem starved_wlp {p : IfcM α} {s : Stream} (hs : s.starved = true) {Q : α → Stream → Prop} :
    Wlp (stream clock starve) p s fun a s' => s'.starved = false → Q a s' := by
  refine (Wlp.invariant (I := fun s => s.starved = true) (only_true p) ?_ hs).mono ?_
  · intro e s _ hs
    cases e with
    | transportWrite buf => exact hs
    | transportRead len =>
      unfold stream
      dsimp only
      split
      next => exact hs
      next => rfl
    | gettime => exact hs
  · intro a s' hs' hnot
    rw [hs'] at hnot
    cases hnot

/-- What holds after a read, in exchanges that do not starve. -/
theorem read_wlp {len : U16} {k : ReadReply len.toNat → IfcM α} {s : Stream}
    {Q : α → Stream → Prop}
    (hk : ∀ (l rest : List U8) (hlen : l.length = len.toNat), s.rest = l ++ rest →
      Wlp (stream clock starve) (k (.ok l hlen)) { s with rest := rest }
        fun a s' => s'.starved = false → Q a s') :
    Wlp (stream clock starve) (.call (.transportRead len) k) s
      fun a s' => s'.starved = false → Q a s' := by
  refine .call ?_
  unfold stream
  dsimp only
  by_cases h : len.toNat ≤ s.rest.length
  · simp only [dif_pos h]
    exact hk _ _ _ (List.take_append_drop len.toNat s.rest).symm
  · simp only [dif_neg h]
    exact starved_wlp rfl

/-! ## The parts of `recv_packet` on a stream -/

/-- One byte of the wait, in time. -/
theorem awaitFrameStart_byte {timeStart : Time} {fuel : Nat} {currByte x : U8} {rest : List U8}
    {i : Nat} {b : Bool} {r : Except Int Int} {s' : Stream}
    (hclock : 0 ≤ (clock i).1 ∧ (clock i).2.tvSec - timeStart.tvSec ≤ 2)
    (h : Ends (stream clock starve)
      (if x ≠ frameStart then awaitFrameStart timeStart fuel x else .done (.ok 0))
      ⟨rest, i + 1, b⟩ r s') :
    Ends (stream clock starve) (awaitFrameStart timeStart (fuel + 1) currByte)
      ⟨x :: rest, i, b⟩ r s' := by
  obtain ⟨hok, hsoon⟩ := hclock
  refine read_ends (l := [x]) rfl (.call ?_)
  show Ends _ (if (clock i).1 < 0 then _ else
    if (clock i).2.tvSec - timeStart.tvSec > 2 then _ else _) _ _ _
  rw [if_neg (by omega), if_neg (by omega)]
  exact h

/-- What is not `FRAME_START` is skipped. -/
theorem awaitFrameStart_ends {timeStart : Time} {junk rest : List U8} (hjunk : frameStart ∉ junk)
    (hclock : ∀ i, 0 ≤ (clock i).1 ∧ (clock i).2.tvSec - timeStart.tvSec ≤ 2) :
    ∀ (currByte : U8) (i : Nat) (b : Bool),
      Ends (stream clock starve) (awaitFrameStart timeStart (junk.length + 1) currByte)
        ⟨junk ++ frameStart :: rest, i, b⟩ (.ok 0) ⟨rest, i + junk.length + 1, b⟩ := by
  induction junk with
  | nil =>
    intro currByte i b
    refine awaitFrameStart_byte (hclock i) ?_
    rw [if_neg (by simp)]
    exact .done _ _
  | cons x junk ih =>
    intro currByte i b
    have hx : x ≠ frameStart := fun h => hjunk (h ▸ List.mem_cons_self ..)
    have hrest := ih (fun h => hjunk (List.mem_cons_of_mem _ h)) x (i + 1) b
    refine awaitFrameStart_byte (hclock i) ?_
    rw [if_pos hx, List.length_cons,
      show i + (junk.length + 1) + 1 = i + 1 + junk.length + 1 by omega]
    exact hrest

/-- Where the wait ends well, it has skipped what is not `FRAME_START` up to one that is. -/
theorem awaitFrameStart_wlp (timeStart : Time) (fuel : Nat) (currByte : U8) (s : Stream) :
    Wlp (stream clock starve) (awaitFrameStart timeStart fuel currByte) s fun r s' =>
      s'.starved = false →
        match r with
        | .error code => code < 0
        | .ok ret =>
          ret = 0 ∧ ∃ junk, s.rest = junk ++ frameStart :: s'.rest ∧ frameStart ∉ junk := by
  -- The invariant: what has been skipped so far.
  refine awaitFrameStart_rule (I := fun t => t.starved = false →
    ∃ junk, s.rest = junk ++ t.rest ∧ frameStart ∉ junk) timeStart
    (fun code _ hcode _ => by show code < 0; omega) (fun currByte t hI => ?_) fuel currByte s
    fun _ => ⟨[], rfl, List.not_mem_nil⟩
  refine (read_wlp (Q := fun x s' =>
    (x.1 ≠ frameStart → ∃ junk, s.rest = junk ++ s'.rest ∧ frameStart ∉ junk) ∧
    (x.1 = frameStart → x.2 = 0 ∧
      ∃ junk, s.rest = junk ++ frameStart :: s'.rest ∧ frameStart ∉ junk))
    fun l rest hlen hl => ?_).mono
    fun x s' hx => ⟨fun hne hs => (hx hs).1 hne, fun heq hs => (hx hs).2 heq⟩
  obtain ⟨x, rfl⟩ := List.length_eq_one_iff.mp hlen
  refine .call ?_
  refine .done fun hs => ?_
  obtain ⟨junk, hjunk, hnot⟩ := hI hs
  rw [hl] at hjunk
  refine ⟨fun hx => ⟨junk ++ [x], ?_, ?_⟩, fun hx => ⟨rfl, junk, ?_, hnot⟩⟩
  · exact hjunk.trans (List.append_cons ..)
  · exact List.not_mem_append hnot fun hmem => hx (List.mem_singleton.mp hmem).symm
  · have hx : x = frameStart := hx
    rw [hjunk, hx]
    rfl

/-- A matching checksum. -/
theorem recvChecksum_ends (checksumBuff headerBuf rest : List U8) (buf : Option (List U8))
    (len : U16) (i : Nat) (b : Bool) :
    Ends (stream clock starve) (recvChecksum checksumBuff headerBuf 0 buf len)
      ⟨be16 (computeChecksum headerBuf ((buf.getD []).take len.toNat)) ++ rest, i, b⟩
      ((len.toNat : Int), buf) ⟨rest, i, b⟩ := by
  unfold recvChecksum
  generalize computeChecksum headerBuf ((buf.getD []).take len.toNat) = sum
  refine read_ends rfl ?_
  show Ends _ (if fromBe16 ((sum >>> 8).setWidth 8) (sum.setWidth 8) ≠ sum then _
    else if (0 : Int) = 0 then _ else _) _ _ _
  rw [if_neg (not_not_intro (fromBe16_be16 sum)), if_pos rfl]
  exact .done _ _

/-- Where the end of `recv_packet` returns a length, the checksum has matched. -/
theorem recvChecksum_wlp (checksumBuff headerBuf : List U8) {retValue : Int}
    (hret : retValue ≤ 0) (buf : Option (List U8)) (len : U16) (s : Stream) :
    Wlp (stream clock starve) (recvChecksum checksumBuff headerBuf retValue buf len) s
      fun r s' => s'.starved = false → 0 ≤ r.1 →
        retValue = 0 ∧ r = ((len.toNat : Int), buf) ∧
        s.rest = be16 (computeChecksum headerBuf ((buf.getD []).take len.toNat)) ++ s'.rest := by
  refine read_wlp fun l rest hlen hl => ?_
  obtain ⟨hi, lo, rfl⟩ := List.length_eq_two.mp hlen
  dsimp only
  split
  next => exact .done fun _ h => absurd (show 0 ≤ errorChecksumMismatch from h) (by decide)
  next hsum =>
    split
    next hzero =>
      refine .done fun _ _ => ⟨hzero, rfl, ?_⟩
      rw [hl, ← Decidable.not_not.mp hsum]
      exact congrArg (· ++ rest) (be16_fromBe16 hi lo).symm
    next hzero => exact .done fun _ h => absurd (show (0 : Int) ≤ retValue from h) (by omega)

/-- The caller's buffer with a payload at its start. -/
def withPayload (buf : Option (List U8)) (payload : List U8) : Option (List U8) :=
  buf.map fun b => payload ++ b.drop payload.length

@[simp] theorem withPayload_nil (buf : Option (List U8)) : withPayload buf [] = buf := by
  simp [withPayload]

/-- Where `recv_packet` returns a length behind the header, the header is an ACK of this
command and the payload and its checksum have been read. -/
theorem recvBody_wlp (fuel : Nat) (checksumBuff : List U8) (op' messageNum' ack hi lo : U8)
    (op messageNum : U8) {buf : Option (List U8)} {len : U16}
    (hbuf : len.toNat ≤ (buf.getD []).length) (s : Stream) :
    Wlp (stream clock starve)
      (recvBody fuel checksumBuff [frameStart, op', messageNum', ack, hi, lo] op messageNum buf len)
      s fun r s' => s'.starved = false → 0 ≤ r.1 →
        (op' = op ∧ messageNum' = messageNum ∧ ack = 0) ∧
        ∃ payload : List U8, payload.length = (fromBe16 hi lo).toNat ∧
          payload.length ≤ len.toNat ∧ r = ((payload.length : Int), withPayload buf payload) ∧
          s.rest = payload ++ (be16 (computeChecksum [frameStart, op', messageNum', ack, hi, lo]
            payload) ++ s'.rest) := by
  unfold recvBody
  have hlo : fromBe16 ([frameStart, op', messageNum', ack, hi, lo].getD 4 0)
      ([frameStart, op', messageNum', ack, hi, lo].getD 5 0) = fromBe16 hi lo := rfl
  have hnonpos := headerError_nonpos op messageNum [frameStart, op', messageNum', ack, hi, lo]
  have hzero := @headerError_eq_zero op messageNum [frameStart, op', messageNum', ack, hi, lo]
  rw [hlo]
  dsimp only
  generalize headerError op messageNum [frameStart, op', messageNum', ack, hi, lo] = retValue at *
  generalize fromBe16 hi lo = n
  split
  next =>
    refine Wlp.bind fun u s' _ => .done ?_
    intro _ h
    exact absurd (show 0 ≤ errorBufferTooSmall from h) (by decide)
  next hle =>
    have hn : n.toNat ≤ len.toNat := Nat.le_of_not_lt fun h => hle h
    rw [clamp_eq hn]
    split
    next hread =>
      -- The payload fills the start of the buffer, which is what the checksum is computed over.
      obtain ⟨-, hsome, -⟩ := hread
      obtain ⟨b, rfl⟩ := Option.isSome_iff_exists.mp hsome
      refine read_wlp fun payload rest hlen hl => ?_
      refine (recvChecksum_wlp checksumBuff _ hnonpos _ n _).mono fun r s' h hs hr => ?_
      obtain ⟨hret, hreq, hrest⟩ := h hs hr
      have htake : ((((some b).map (ReadReply.ok payload hlen).over).getD []).take n.toNat) =
          payload := by
        show (payload ++ b.drop payload.length).take n.toNat = payload
        exact List.take_left' hlen
      refine ⟨hzero.mp hret, payload, hlen, by omega, ?_, ?_⟩
      · exact hreq.trans
          (congrArg (fun k : Nat => ((k : Int), withPayload (some b) payload)) hlen.symm)
      · rw [hl]
        rw [htake] at hrest
        exact congrArg (payload ++ ·) hrest
    next hskip =>
      refine (recvChecksum_wlp checksumBuff _ hnonpos _ n _).mono fun r s' h hs hr => ?_
      obtain ⟨hret, hreq, hrest⟩ := h hs hr
      -- No payload is read: there is no buffer, which has no room, or no payload.
      have hn0 : n.toNat = 0 := by
        cases buf with
        | none =>
          have : len.toNat ≤ 0 := hbuf
          omega
        | some b =>
          by_contra hne
          exact hskip ⟨hret, rfl, Nat.pos_of_ne_zero hne⟩
      refine ⟨hzero.mp hret, [], hn0.symm, Nat.zero_le _, ?_, ?_⟩
      · rw [hreq, hn0, withPayload_nil]
        rfl
      · rw [hrest, hn0, List.take_zero, List.nil_append]

/-- Behind the header of a frame that answers this command and fits, `recv_packet` reads
the payload and returns its length. -/
theorem recvBody_ends (fuel : Nat) (checksumBuff : List U8) (op messageNum : U8)
    {buf : Option (List U8)} {len : U16} (hbuf : len.toNat ≤ (buf.getD []).length)
    {payload : List U8} (hfit : payload.length ≤ len.toNat) (rest : List U8) (i : Nat) (b : Bool) :
    let header := respHeader op messageNum 0 (BitVec.ofNat 16 payload.length)
    Ends (stream clock starve) (recvBody fuel checksumBuff header op messageNum buf len)
      ⟨payload ++ (be16 (computeChecksum header payload) ++ rest), i, b⟩
      ((payload.length : Int), withPayload buf payload) ⟨rest, i, b⟩ := by
  intro header
  have hlen := len.isLt
  have hsize : (BitVec.ofNat 16 payload.length).toNat = payload.length := by
    rw [BitVec.toNat_ofNat]
    omega
  have hlo : fromBe16 (header.getD 4 0) (header.getD 5 0) = BitVec.ofNat 16 payload.length :=
    fromBe16_be16 _
  have hzero : headerError op messageNum header = 0 := headerError_eq_zero.mpr ⟨rfl, rfl, rfl⟩
  unfold recvBody
  rw [hlo, hzero]
  dsimp only
  have hle : ¬ len < BitVec.ofNat 16 payload.length := by
    rw [BitVec.lt_def, hsize]
    omega
  rw [if_neg hle, clamp_eq (by rw [hsize]; exact hfit)]
  have hsum : ∀ (buf' : Option (List U8)), (buf'.getD []).take payload.length = payload →
      Ends (stream clock starve)
        (recvChecksum checksumBuff header 0 buf' (BitVec.ofNat 16 payload.length))
        ⟨be16 (computeChecksum header payload) ++ rest, i, b⟩ ((payload.length : Int), buf')
        ⟨rest, i, b⟩ := by
    intro buf' htake
    have h := @recvChecksum_ends clock starve checksumBuff header rest buf'
      (BitVec.ofNat 16 payload.length) i b
    rw [hsize, htake] at h
    exact h
  -- The payload is read into the buffer, or there is none to read.
  by_cases hread : (0 : Int) = 0 ∧ buf.isSome = true ∧ 0 < BitVec.ofNat 16 payload.length
  · rw [if_pos hread]
    obtain ⟨old, rfl⟩ := Option.isSome_iff_exists.mp hread.2.1
    refine read_ends hsize.symm ?_
    exact hsum (some (payload ++ old.drop payload.length)) (List.take_left' rfl)
  · rw [if_neg hread]
    have hnil : payload = [] := by
      cases buf with
      | none => exact List.eq_nil_of_length_eq_zero (by have : len.toNat ≤ 0 := hbuf; omega)
      | some old =>
        by_contra hne
        have hpos : 0 < payload.length := List.length_pos_iff.mpr hne
        refine hread ⟨rfl, rfl, ?_⟩
        rw [BitVec.lt_def, hsize]
        exact hpos
    have h := hsum buf
    subst hnil
    rw [withPayload_nil]
    exact h rfl

/-! ## The whole of `recv_packet` -/

/-- Where `recv_packet` returns a length, the stream has been one of its frames. -/
theorem recvPacket_wlp (fuel : Nat) (checksumBuff : List U8) (op messageNum : U8)
    {buf : Option (List U8)} {len : U16} (hbuf : len.toNat ≤ (buf.getD []).length) (s : Stream) :
    Wlp (stream clock starve) (recvPacket fuel checksumBuff op messageNum buf len) s
      fun r s' => s'.starved = false → 0 ≤ r.1 →
        ∃ junk payload : List U8, s.rest = junk ++ (respFrame op messageNum 0 payload ++ s'.rest) ∧
          frameStart ∉ junk ∧ r.1 = payload.length ∧ payload.length ≤ len.toNat ∧
          r.2 = withPayload buf payload := by
  refine .call ?_
  split
  next => exact .done fun _ h => absurd (show 0 ≤ errorHalCallFailed from h) (by decide)
  next =>
    refine Wlp.bind ((awaitFrameStart_wlp _ _ _ _).mono fun started s₁ hstarted => ?_)
    cases hs₁ : s₁.starved with
    | true => exact starved_wlp hs₁
    | false =>
      have hstarted := hstarted hs₁
      cases started with
      | error code =>
        refine .done fun _ h => ?_
        exact absurd (show 0 ≤ code from h) (Int.not_le.mpr hstarted)
      | ok ret =>
        obtain ⟨-, junk, hjunk, hnot⟩ := hstarted
        dsimp only
        split
        next => exact .done fun _ h => absurd (show 0 ≤ errorStartOfFrame from h) (by decide)
        next =>
          refine read_wlp fun l rest₂ hlen hl => ?_
          have hover : (ReadReply.ok l hlen).over (List.replicate 5 0) = l :=
            ReadReply.ok_over hlen rfl
          rw [ReadReply.ok_ret, if_neg (by decide), hover]
          -- The five bytes behind `FRAME_START`.
          obtain ⟨op', messageNum', ack, hi, lo, rfl⟩ : ∃ a b c d e, l = [a, b, c, d, e] := by
            match l, hlen with
            | [a, b, c, d, e], _ => exact ⟨a, b, c, d, e, rfl⟩
          refine (recvBody_wlp fuel checksumBuff op' messageNum' ack hi lo op messageNum hbuf
            _).mono fun r s' hr hs hpos => ?_
          obtain ⟨⟨rfl, rfl, rfl⟩, payload, hsize, hfit, rfl, hrest⟩ := hr hs hpos
          refine ⟨junk, payload, ?_, hnot, rfl, hfit, rfl⟩
          have hhilo : be16 (BitVec.ofNat 16 payload.length) = [hi, lo] := by
            rw [hsize, BitVec.ofNat_toNat, BitVec.setWidth_eq, be16_fromBe16]
          have hrest : rest₂ = _ := hrest
          have hjunk : s.rest = junk ++ frameStart :: s₁.rest := hjunk
          rw [hjunk, hl, hrest, respFrame_append]
          unfold respHeader
          rw [hhilo]
          rfl

end Stream

/-- **`recv_packet` accepts exactly its frames.** Against a stream, in exchanges where every
read succeeds, it returns a length and leaves `rest` if and only if the stream is something
without `FRAME_START`, then an ACK frame of this opcode and message number whose payload fits
into the buffer, then `rest`; the buffer then holds the payload, and behind it what it held. -/
theorem recvPacket_accepts_iff {clock : Nat → Int × Time} (hclock : ClockOk clock)
    (starve : Starve) (checksumBuff : List U8) (op messageNum : U8) {buf : Option (List U8)}
    {len : U16} (hbuf : len.toNat ≤ (buf.getD []).length) (s rest : List U8) (n : Int)
    (buf' : Option (List U8)) :
    (0 ≤ n ∧ ∃ fuel looks, Ends (stream clock starve)
        (recvPacket fuel checksumBuff op messageNum buf len) ⟨s, 0, false⟩ (n, buf')
        ⟨rest, looks, false⟩) ↔
      ∃ junk payload : List U8, s = junk ++ (respFrame op messageNum 0 payload ++ rest) ∧
        frameStart ∉ junk ∧ n = payload.length ∧ payload.length ≤ len.toNat ∧
        buf' = withPayload buf payload := by
  constructor
  · intro h
    obtain ⟨hn, fuel, looks, hends⟩ := h
    exact recvPacket_wlp fuel checksumBuff op messageNum hbuf ⟨s, 0, false⟩ _ _ hends rfl hn
  · intro h
    obtain ⟨junk, payload, rfl, hjunk, rfl, hfit, rfl⟩ := h
    have hfive : ([op, messageNum, 0] ++ be16 (BitVec.ofNat 16 payload.length)).length =
        (5 : U16).toNat := rfl
    have hover : (ReadReply.ok _ hfive).over (List.replicate 5 0) = _ :=
      ReadReply.ok_over hfive rfl
    refine ⟨Int.natCast_nonneg _, junk.length + 1, 1 + junk.length + 1, .call ?_⟩
    show Ends _ (if (clock 0).1 < 0 then _ else _) _ _ _
    rw [if_neg (Int.not_lt.mpr (hclock 0).1), respFrame_append]
    refine (awaitFrameStart_ends hjunk hclock 0 1 false).bind ?_
    show Ends _ (if (0 : Int) < 0 then _ else _) _ _ _
    rw [if_neg (by decide)]
    refine read_ends hfive ?_
    rw [ReadReply.ok_ret, if_neg (by decide), hover]
    exact recvBody_ends _ checksumBuff op messageNum hbuf hfit rest _ false

/-- Two bytes of noise, a frame of two bytes for a buffer of three, one byte more. -/
theorem recvPacket_accepts_two :
    let starve : Starve := fun _ s => (⟨-1, [], Nat.zero_le _, fun h => absurd h (by decide)⟩, s.rest)
    ∃ fuel looks, Ends (stream (fun _ => (0, ⟨7, 0⟩)) starve)
      (recvPacket fuel [0, 0] 40 3 (some [9, 9, 9]) 3)
      ⟨[0xff, 0] ++ (respFrame 40 3 0 [5, 6] ++ [8]), 0, false⟩ (2, some [5, 6, 9])
      ⟨[8], looks, false⟩ :=
  ((recvPacket_accepts_iff (fun _ => by decide) _ [0, 0] 40 3 (by decide) _ [8] 2 _).mpr
    ⟨[0xff, 0], [5, 6], rfl, by decide, rfl, by decide, rfl⟩).2

end HostInterface.Ifc

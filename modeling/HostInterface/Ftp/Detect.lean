import HostInterface.Register
import HostInterface.Ftp.Storage

/-!
# What the CRC of a message detects

`crc32` is a shift register with the pattern `0xEDB88320`, whose top bit is set, so
it detects every change within four consecutive bytes of what it covers
(`crc32_burst`). In a message it covers the bytes from the file id on, and the
checksum stands in front of these. Hence a message changed within four
consecutive bytes of either is refused in every state (`corrupted_rejected`).

The packet type stands in front of both and is not covered. A flipped bit there makes
another message of the same bytes: `flip_accepted_iff` says that this is the only
single-bit error that turns a message into one of another kind, and that it does
so whenever the new type is one there is.
-/

namespace HostInterface.Ftp

open Interact Prog Register

/-! ## `crc32` as a register -/

/-- The pattern of `crc32`. -/
abbrev crcPoly : U32 := 0xEDB88320#32

theorem crc32Bit_eq (c : U32) : crc32Bit c = shift crcPoly c := by
  have hlow : c &&& 1#32 = 1#32 ↔ c.getLsbD 0 = true := by
    constructor
    · intro h
      have := congrArg (fun x => x.getLsbD 0) h
      simpa using this
    · intro h
      apply BitVec.eq_of_getLsbD_eq
      intro i hi
      rw [BitVec.getLsbD_and, BitVec.getLsbD_one]
      cases i with
      | zero => simp [h]
      | succ i => simp
  unfold crc32Bit shift
  by_cases h : c.getLsbD 0 = true
  · rw [if_pos (hlow.mpr h), if_pos h]
  · rw [if_neg (mt hlow.mp h), if_neg h, BitVec.xor_zero]

theorem crc32Byte_eq (c : U32) (b : U8) : crc32Byte c b = feedItem crcPoly c b := by
  unfold crc32Byte feedItem
  rw [show (fun (c : U32) (_ : Nat) => crc32Bit c) = fun c _ => shift crcPoly c from
    funext fun c => funext fun _ => crc32Bit_eq c]
  rfl

theorem crc32_eq (crc : U32) (buf : List U8) : crc32 crc buf = ~~~(feed crcPoly (~~~crc) buf) := by
  unfold crc32 feed
  rw [show crc32Byte = feedItem crcPoly from funext fun c => funext fun b => crc32Byte_eq c b]

/-- **`crc32` detects** every change within four consecutive bytes. -/
theorem crc32_burst {l l' : List U8} {i n : Nat} (hn : n ≤ 4) (hlen : l'.length = l.length)
    (hsame : ∀ j, j < l.length → j < i ∨ i + n ≤ j → l'[j]? = l[j]?) (hne : l' ≠ l) (crc : U32) :
    crc32 crc l' ≠ crc32 crc l := by
  rw [crc32_eq, crc32_eq]
  intro h
  have hfeed := congrArg (fun x => ~~~x) h
  simp only [BitVec.not_not] at hfeed
  exact feed_window (by decide) (by omega) hlen hsame hne _ hfeed

/-! ## Changed messages -/

/-- `b'` is `b` with some of the `n` bytes from `lo` on changed. -/
structure Differ (b b' : RxBuf) (lo n : Nat) : Prop where
  len : b'.len = b.len
  outside : ∀ i, i < b.len.toNat → i < lo ∨ lo + n ≤ i → b'.mem i = b.mem i
  inside : ∃ i, i < b.len.toNat ∧ b'.mem i ≠ b.mem i

namespace Differ

variable {b b' : RxBuf} {lo n : Nat}

/-- Where it lies in front of the body, the body is the same. -/
theorem crcBytes_eq (h : Differ b b' lo n) (hwin : lo + n ≤ 5) : b'.crcBytes = b.crcBytes := by
  unfold RxBuf.crcBytes Ptr.bytes
  rw [h.len]
  refine List.map_congr_left fun i hi => h.outside (5 + i) ?_ (Or.inr (by omega))
  have := List.mem_range.mp hi
  omega

/-- The checksum is not, if it lies there. -/
theorem u32At_ne (h : Differ b b' lo n) (hlo : 1 ≤ lo) (hwin : lo + n ≤ 5) :
    b'.u32At 1 ≠ b.u32At 1 := by
  intro heq
  have hbytes := congrArg le32 heq
  unfold RxBuf.u32At at hbytes
  rw [le32_u32FromBytestream, le32_u32FromBytestream] at hbytes
  simp only [List.cons.injEq, and_true] at hbytes
  obtain ⟨h1, h2, h3, h4⟩ := hbytes
  obtain ⟨i, hi, hne⟩ := h.inside
  have hrange : i = 1 ∨ i = 2 ∨ i = 3 ∨ i = 4 := by
    have : ¬ (i < lo ∨ lo + n ≤ i) := fun hout => hne (h.outside i hi hout)
    omega
  rcases hrange with rfl | rfl | rfl | rfl
  · exact hne h1
  · exact hne h2
  · exact hne h3
  · exact hne h4

/-- Where it lies in the body, the checksum is the same. -/
theorem u32At_eq (h : Differ b b' lo n) (hlen : 5 ≤ b.len.toNat) (hlo : 5 ≤ lo) :
    b'.u32At 1 = b.u32At 1 :=
  u32FromBytestream_congr fun k hk => h.outside (1 + k) (by omega) (Or.inl (by omega))

/-- The CRC of the body is not. -/
theorem crc_ne (h : Differ b b' lo n) (hn : n ≤ 4) (hlo : 5 ≤ lo) :
    crc32 0 b'.crcBytes ≠ crc32 0 b.crcBytes := by
  have hlen := congrArg BitVec.toNat h.len
  refine crc32_burst (i := lo - 5) hn ?_ ?_ ?_ 0
  · rw [length_crcBytes, length_crcBytes, hlen]
  · intro j hj hout
    rw [length_crcBytes] at hj
    rw [getElem?_crcBytes (by omega), getElem?_crcBytes hj,
      h.outside (5 + j) (by omega) (by omega)]
  · intro heq
    obtain ⟨i, hi, hne⟩ := h.inside
    have hin : 5 ≤ i := by
      have : ¬ i < lo := fun hout => hne (h.outside i hi (Or.inl hout))
      omega
    -- The changed byte is one of the body's.
    have hbyte : b'.crcBytes[i - 5]? = b.crcBytes[i - 5]? := by rw [heq]
    rw [getElem?_crcBytes (by omega), getElem?_crcBytes (by omega), Option.some.injEq,
      show 5 + (i - 5) = i by omega] at hbyte
    exact hne hbyte

/-- A message changed inside the checksum or inside the body is an error. -/
theorem parse_error (h : Differ b b' lo n) {msg : Msg} (hparse : parseRxMsg (some b) = (.ok, msg))
    (hn : n ≤ 4) (hwin : 1 ≤ lo ∧ lo + n ≤ 5 ∨ 5 ≤ lo) :
    (parseRxMsg (some b')).1 = .error := by
  have hacc := parseRxMsg_ok hparse
  have hlong := hacc.long
  have htype : MsgType.ofByte (b'.mem 0) = some msg.msgType := by
    rw [h.outside 0 (by omega) (Or.inl (by omega))]
    exact hacc.type
  refine parseRxMsg_mismatch (by rw [h.len]; exact hlong) htype ?_
  rcases hwin with ⟨hlo, hhi⟩ | hlo
  · rw [h.crcBytes_eq hhi, hacc.crc]
    exact (h.u32At_ne hlo hhi).symm
  · rw [h.u32At_eq (by omega) hlo, ← hacc.crc]
    exact h.crc_ne hn hlo

end Differ

/-- **Corrupted messages are refused without effect**: a message whose CRC matches, changed
within four consecutive bytes of its checksum or of what the checksum covers, is answered
with `LL_FTP_ERROR` in every state, with no callback and the object as it was. -/
theorem corrupted_rejected {b b' : RxBuf} {msg : Msg} {lo n : Nat}
    (hparse : parseRxMsg (some b) = (.ok, msg)) (hdiff : Differ b b' lo n) (hn : n ≤ 4)
    (hwin : 1 ≤ lo ∧ lo + n ≤ 5 ∨ 5 ≤ lo ∧ lo + n ≤ b.len.toNat) (f : LlFtp) :
    msgProcess f (some b') = .done (.error, f) :=
  msgProcess_refused (hdiff.parse_error hparse hn (hwin.imp_right And.left)) (by decide)

/-- The smallest file's `TX_INIT` is accepted. -/
theorem parse_tinyInit : ∃ msg, parseRxMsg (some tinyInit) = (.ok, msg) ∧ msg.msgType = .txInit :=
  parseRxMsg_sealMsg (by decide) (by decide) rfl

theorem corrupted_rejected_tiny :
    ∃ b', Differ tinyInit b' 9 4 ∧ ∀ f, msgProcess f (some b') = .done (.error, f) := by
  obtain ⟨msg, hparse, -⟩ := parse_tinyInit
  let changed : RxBuf := ⟨fun k => if k = 9 ∨ k = 12 then 0xFF else tinyInit.mem k, tinyInit.len⟩
  have hdiff : Differ tinyInit changed 9 4 :=
    ⟨rfl, fun i _ hout => if_neg (by omega), 9, by decide, by decide⟩
  exact ⟨_, hdiff, fun f => corrupted_rejected hparse hdiff (by decide) (by decide) f⟩

/-! ## One bit -/

/-- A message with one bit of one byte flipped. -/
def RxBuf.flip (b : RxBuf) (i j : Nat) : RxBuf :=
  { b with mem := fun k => if k = i then b.mem k ^^^ (1#8 <<< j) else b.mem k }

theorem flip_ne (x : U8) {j : Nat} (hj : j < 8) : x ^^^ (1#8 <<< j) ≠ x := by
  intro h
  have hbit := congrArg (fun y => y.getLsbD j) h
  simp [hj] at hbit

@[simp] theorem flip_mem (b : RxBuf) (i j : Nat) :
    (b.flip i j).mem i = b.mem i ^^^ (1#8 <<< j) := if_pos rfl

theorem differ_flip {b : RxBuf} {i j : Nat} (hi : i < b.len.toNat) (hj : j < 8) :
    Differ b (b.flip i j) i 1 where
  len := rfl
  outside k _ hout := if_neg (by omega)
  inside := ⟨i, hi, flip_mem b i j ▸ flip_ne _ hj⟩

/-- The type byte is not covered: a message is accepted under every type there is. -/
theorem parse_flip_type {b : RxBuf} {msg : Msg} {j : Nat}
    (hparse : parseRxMsg (some b) = (.ok, msg)) {ty : MsgType}
    (hty : MsgType.ofByte ((b.flip 0 j).mem 0) = some ty) :
    ∃ msg', parseRxMsg (some (b.flip 0 j)) = (.ok, msg') ∧ msg'.msgType = ty := by
  have hacc := parseRxMsg_ok hparse
  refine parseRxMsg_accepts hacc.long hty ?_
  have hbody : (b.flip 0 j).crcBytes = b.crcBytes := by
    unfold RxBuf.crcBytes Ptr.bytes
    exact List.map_congr_left fun i _ => if_neg (by show ¬ 5 + i = 0; omega)
  have hsum : (b.flip 0 j).u32At 1 = b.u32At 1 :=
    u32FromBytestream_congr fun k _ => if_neg (by omega)
  rw [hbody, hsum, hacc.crc]

/-- **Which one-bit errors make another message.** -/
theorem flip_accepted_iff {b : RxBuf} {msg : Msg} {i j : Nat}
    (hparse : parseRxMsg (some b) = (.ok, msg)) (hi : i < b.len.toNat) (hj : j < 8) :
    ((∃ msg', parseRxMsg (some (b.flip i j)) = (.ok, msg') ∧ msg'.msgType ≠ msg.msgType) ↔
      i = 0 ∧ (MsgType.ofByte (b.mem 0 ^^^ (1#8 <<< j))).isSome) ∧
    (i ≠ 0 → ∀ f, msgProcess f (some (b.flip i j)) = .done (.error, f)) := by
  have hother : i ≠ 0 → (parseRxMsg (some (b.flip i j))).1 = .error := by
    intro hpos
    exact (differ_flip hi hj).parse_error hparse (by decide) (by omega)
  refine ⟨⟨?_, ?_⟩, fun hpos f => msgProcess_refused (hother hpos) (by decide)⟩
  · rintro ⟨msg', hparse', -⟩
    have hzero : i = 0 := by
      by_cases hpos : i = 0
      · exact hpos
      · have := hother hpos
        rw [hparse'] at this
        cases this
    refine ⟨hzero, ?_⟩
    have htype := (parseRxMsg_ok hparse').type
    rw [hzero] at htype
    rw [← flip_mem, htype]
    rfl
  · rintro ⟨rfl, hsome⟩
    obtain ⟨ty, hty⟩ := Option.isSome_iff_exists.mp hsome
    rw [← flip_mem] at hty
    obtain ⟨msg', hparse', hmsg'⟩ := parse_flip_type hparse hty
    refine ⟨msg', hparse', fun hsame => flip_ne (b.mem 0) hj ?_⟩
    -- One type has one byte, and this byte is another.
    refine MsgType.ofByte_inj hty ?_
    rw [← hmsg', hsame]
    exact (parseRxMsg_ok hparse).type

/-- A `TX_INIT` with one bit flipped is a `TX_CANCEL`. -/
theorem init_becomes_cancel :
    ¬ ∀ (b : RxBuf) (msg : Msg) (i j : Nat), parseRxMsg (some b) = (.ok, msg) → i < b.len.toNat →
      j < 8 → ∀ msg', parseRxMsg (some (b.flip i j)) = (.ok, msg') →
        msg'.msgType = msg.msgType := by
  intro hall
  obtain ⟨msg, hparse, hinit⟩ := parse_tinyInit
  have htype : MsgType.ofByte ((tinyInit.flip 0 0).mem 0) = some .txCancel := by decide
  obtain ⟨msg', hparse', hcancel⟩ := parse_flip_type hparse htype
  have := hall tinyInit msg 0 0 hparse (by decide) (by decide) msg' hparse'
  rw [hinit, hcancel] at this
  cases this

theorem flip_accepted_tiny :
    ∃ msg msg', parseRxMsg (some tinyInit) = (.ok, msg) ∧
      parseRxMsg (some (tinyInit.flip 0 0)) = (.ok, msg') ∧ msg'.msgType ≠ msg.msgType := by
  obtain ⟨msg, hparse, -⟩ := parse_tinyInit
  obtain ⟨msg', hparse', hne⟩ :=
    (flip_accepted_iff (i := 0) (j := 0) hparse (by decide) (by decide)).1.mpr
      ⟨rfl, rfl⟩
  exact ⟨msg, msg', hparse, hparse', hne⟩

end HostInterface.Ftp

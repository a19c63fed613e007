import HostInterface.Ftp.Ack

/-!
# The segment request

What the sender can read out of a segment request. `segNumbers` takes the list behind
the head apart again, two bytes a segment, and `request_content` says that it is the
list of the missing segments, in order and each once, whenever the acknowledge byte is
`ACK_NAK_SEGMENT`.

The number of missing segments is compared with `MAX_NUM_RETRY_SEGS` twice: the loops
stop in front of a seventeenth segment, `ll_ftp_ack_segs_request_generate` gives up at
the sixteenth. `full_retransmission_iff` is about the one count between the two, where
the list is complete in the buffer and the whole file is asked for all the same.
-/

namespace HostInterface.Ftp

open Interact Prog Buffer

/-- The segment numbers of a list, `UINT16_FROM_BYTESTREAM` of each two bytes. -/
def segNumbers : List U8 → List Nat
  | lo :: hi :: rest => (u16FromBytestream fun k => [lo, hi].getD k 0).toNat :: segNumbers rest
  | _ => []

/-- What has been listed is read back. -/
theorem segNumbers_segList {ks : List Nat} (h : ∀ k ∈ ks, k < 65536) :
    segNumbers (segList ks) = ks := by
  induction ks with
  | nil => rfl
  | cons k ks ih =>
    have hk : (BitVec.ofNat 16 k).toNat = k := by
      rw [BitVec.toNat_ofNat]
      exact Nat.mod_eq_of_lt (h k (List.mem_cons_self ..))
    have hhead : (u16FromBytestream fun j => (le16 (BitVec.ofNat 16 k)).getD j 0) =
        BitVec.ofNat 16 k := by
      have := u16FromBytestream_le16 (BitVec.ofNat 16 k) []
      rwa [List.append_nil] at this
    have htail := ih fun k' hk' => h k' (List.mem_cons_of_mem _ hk')
    show (u16FromBytestream fun j => (le16 (BitVec.ofNat 16 k)).getD j 0).toNat ::
      segNumbers (segList ks) = k :: ks
    rw [hhead, hk, htail]

/-- The missing segments are listed in increasing order. -/
theorem missingSegs_increasing (rx : RxSegs) (n : Nat) :
    (missingSegs rx n).Pairwise (· < ·) :=
  List.Pairwise.filter _ List.pairwise_lt_range

/-- With at most `MAX_NUM_SEGMENTS` segments no store of a request leaves `tx_buf`. -/
theorem ackSegsRequestGenerate_isSome {f : LlFtp} (h : f.numSegs.toNat ≤ 2400) :
    ∃ len g, ackSegsRequestGenerate f = some (len, g) := by
  obtain ⟨x, hx⟩ := getMissingSegs_isSome (f := f.putAckHead 5 0xFD) true
    (by rw [putAckHead_numSegs]; exact h)
  unfold ackSegsRequestGenerate
  rw [hx]
  exact ⟨_, _, rfl⟩

/-! ## Reading an acknowledgement -/

/-- The acknowledge byte, the length and the list of a buffer that starts with an
acknowledgement. -/
theorem ackMsg_parts {tx : TxBuf} {len : U8} {type ackType : U8} {fileId fileVersion : U32}
    {segs : List Nat} (hsegs : segs.length < 16)
    (h : tx.toList.take len.toNat = ackMsg type ackType fileId fileVersion segs) :
    tx[5]? = some ackType ∧ len.toNat = 14 + 2 * segs.length ∧
      (tx.toList.take len.toNat).drop 14 = segList segs := by
  have htx : tx.toList.length = 46 := Vector.length_toList
  have hlen : len.toNat = 14 + 2 * segs.length := by
    have := congrArg List.length h
    rw [List.length_take, length_ackMsg, htx] at this
    omega
  refine ⟨?_, hlen, by rw [h]; rfl⟩
  have hfive : (tx.toList.take len.toNat)[5]? = some ackType := by
    rw [h]
    rfl
  rw [List.getElem?_take_of_lt (by omega), Vector.getElem?_toList] at hfive
  exact hfive

/-- A request in its parts: the list where it is short, the whole file where it is not. -/
theorem request_parts {f g : LlFtp} {len : U8} (h : ackSegsRequestGenerate f = some (len, g)) :
    ((missingSegs f.rxSegs f.numSegs.toNat).length < 16 ∧ g.txBuf[5]? = some 0xFD ∧
      len.toNat = 14 + 2 * (missingSegs f.rxSegs f.numSegs.toNat).length ∧
      (g.txBuf.toList.take len.toNat).drop 14 = segList (missingSegs f.rxSegs f.numSegs.toNat)) ∨
    (16 ≤ (missingSegs f.rxSegs f.numSegs.toNat).length ∧ g.txBuf[5]? = some 0xFF ∧
      len.toNat = 14) := by
  rcases ackSegsRequestGenerate_msg h with ⟨hfew, hmsg⟩ | ⟨hmany, hmsg⟩
  · exact Or.inl ⟨hfew, ackMsg_parts hfew hmsg⟩
  · have hnone : ([] : List Nat).length < 16 := Nat.zero_lt_succ 15
    obtain ⟨htype, hlen, -⟩ := ackMsg_parts hnone hmsg
    exact Or.inr ⟨hmany, htype, hlen⟩

/-! ## What is asked for -/

/-- **The content of a segment request.** No store leaves `tx_buf`. With the acknowledge
byte `ACK_NAK_SEGMENT` the bytes behind the head are the numbers of exactly the missing
segments, in increasing order; else the byte is `ACK_NAK`, there is no list, and 16 or
more segments are missing. -/
theorem request_content {f : LlFtp} (hmax : f.numSegs.toNat ≤ 2400) :
    ∃ len g, ackSegsRequestGenerate f = some (len, g) ∧
      (g.txBuf[5]? = some 0xFD →
        len.toNat = 14 + 2 * (missingSegs f.rxSegs f.numSegs.toNat).length ∧
        segNumbers ((g.txBuf.toList.take len.toNat).drop 14) =
          missingSegs f.rxSegs f.numSegs.toNat ∧
        (missingSegs f.rxSegs f.numSegs.toNat).Pairwise (· < ·)) ∧
      (g.txBuf[5]? ≠ some 0xFD →
        g.txBuf[5]? = some 0xFF ∧ len.toNat = 14 ∧
        16 ≤ (missingSegs f.rxSegs f.numSegs.toNat).length) := by
  obtain ⟨len, g, hreq⟩ := ackSegsRequestGenerate_isSome hmax
  refine ⟨len, g, hreq, ?_⟩
  rcases request_parts hreq with ⟨-, htype, hlen, hlist⟩ | ⟨hmany, htype, hlen⟩
  · refine ⟨fun _ => ⟨hlen, ?_, missingSegs_increasing _ _⟩, fun hne => absurd htype hne⟩
    rw [hlist]
    refine segNumbers_segList fun k hk => ?_
    have := (mem_missingSegs.mp hk).1
    omega
  · refine ⟨fun hfd => ?_, fun _ => ⟨htype, hlen, hmany⟩⟩
    rw [htype] at hfd
    exact absurd hfd (by decide)

/-- A transfer of `n` segments of which none has been received. -/
def LlFtp.untouched (n : U16) : LlFtp :=
  { LlFtp.blank with numSegs := n }

/-- A request for three segments. -/
theorem request_content_three :
    let f := LlFtp.untouched 3
    ∃ len g, ackSegsRequestGenerate f = some (len, g) ∧
      (g.txBuf[5]? = some 0xFD →
        len.toNat = 14 + 2 * (missingSegs f.rxSegs f.numSegs.toNat).length ∧
        segNumbers ((g.txBuf.toList.take len.toNat).drop 14) =
          missingSegs f.rxSegs f.numSegs.toNat ∧
        (missingSegs f.rxSegs f.numSegs.toNat).Pairwise (· < ·)) ∧
      (g.txBuf[5]? ≠ some 0xFD →
        g.txBuf[5]? = some 0xFF ∧ len.toNat = 14 ∧
        16 ≤ (missingSegs f.rxSegs f.numSegs.toNat).length) :=
  request_content (by decide)

/-- The whole file is asked for only where the request has no room for the list. -/
def OnlyForManySegs (f : LlFtp) : Prop :=
  ∀ len g, ackSegsRequestGenerate f = some (len, g) → g.txBuf[5]? = some 0xFF →
    maxNumRetrySegs < (missingSegs f.rxSegs f.numSegs.toNat).length

/-- **A needless full retransmission** is asked for exactly where 16 segments are missing,
as many as the request has room for. -/
theorem full_retransmission_iff {f : LlFtp} (hmax : f.numSegs.toNat ≤ 2400) :
    OnlyForManySegs f ↔ (missingSegs f.rxSegs f.numSegs.toNat).length ≠ maxNumRetrySegs := by
  constructor
  · intro h hsixteen
    obtain ⟨len, g, hreq⟩ := ackSegsRequestGenerate_isSome hmax
    rcases request_parts hreq with ⟨hfew, -⟩ | ⟨-, htype, -⟩
    · exact absurd hsixteen (Nat.ne_of_lt hfew)
    · exact absurd hsixteen (Nat.ne_of_gt (h len g hreq htype))
  · intro hne len g hreq htype
    rcases request_parts hreq with ⟨-, hlist, -⟩ | ⟨hmany, -⟩
    · rw [htype] at hlist
      exact absurd hlist (by decide)
    · exact Nat.lt_of_le_of_ne hmany hne.symm

/-- Sixteen missing segments would fit, and the whole file is asked for. -/
theorem sixteen_all_requested : ¬ OnlyForManySegs (LlFtp.untouched 16) := by
  intro h
  have hreq : (ackSegsRequestGenerate (LlFtp.untouched 16)).map (fun x => x.2.txBuf[5]?) =
      some (some 0xFF) := by decide +kernel
  obtain ⟨⟨len, g⟩, hg, htype⟩ := Option.map_eq_some_iff.mp hreq
  have hmany := h len g hg htype
  exact absurd hmany (by decide +kernel)

/-- With seventeen there is no room for the list. -/
theorem full_retransmission_seventeen :
    OnlyForManySegs (LlFtp.untouched 17) ↔
      (missingSegs (LlFtp.untouched 17).rxSegs (LlFtp.untouched 17).numSegs.toNat).length ≠
        maxNumRetrySegs :=
  full_retransmission_iff (by decide)

end HostInterface.Ftp

import HostInterface.Ftp.Coverage

/-!
# Delivery in any order

Against an application with storage whose callbacks all return OK, the segments
of a well-formed image may arrive in any order and any number of times: as soon
as each has arrived once, and no sooner, the file is verified and the state is
APPLY, with the image in storage (`delivery`).

`Image` carries what makes an image well formed, the header's four words and
that its segments carry all of it, so an ill-formed one cannot be built.
`Delivering` is the invariant: the slots of the segments seen so far hold the
image's bytes, and the bitmap is the set of their numbers. `InitOf` and `SegmentOf`
say which messages are meant; that a sender has such messages for every image is
`Image.initMsg_spec` and `Image.segmentMsg_spec`.
-/

namespace HostInterface.Ftp

open Interact Prog

/-- An image with its header, `16 + fileSize` bytes, and segments that carry all of it. -/
structure Image where
  bytes : Nat → U8
  fileId : U32
  fileVersion : U32
  fileSize : U32
  nonempty : 1 ≤ fileSize.toNat
  small : fileSize.toNat ≤ 256800
  size_at : wordAt bytes 4 = fileSize
  id_at : wordAt bytes 8 = fileId
  version_at : wordAt bytes 12 = fileVersion
  crc_at : crc32 0 ((Ptr.mk bytes 4).bytes (12 + fileSize.toNat)) = wordAt bytes 0
  carried : 16 + fileSize.toNat ≤ 107 * ceilSegs fileSize.toNat

namespace Image

/-- The length of the image. -/
def length (I : Image) : Nat := 16 + I.fileSize.toNat

/-- The number of its segments. -/
def count (I : Image) : Nat := ceilSegs I.fileSize.toNat

/-- Where segment `k` ends: at the end of its slot or of the image. -/
def slotEnd (I : Image) (k : Nat) : Nat := min (107 * k + 107) I.length

end Image

/-- The message is the accepted announcement of the image. -/
structure InitOf (I : Image) (b : RxBuf) : Prop where
  accepted : (parseRxMsg (some b)).1 = .ok
  type : (parseRxMsg (some b)).2.msgType = .txInit
  id : (parseRxMsg (some b)).2.fileId = I.fileId
  version : (parseRxMsg (some b)).2.fileVersion = I.fileVersion
  size : (parseRxMsg (some b)).2.fileSize = I.fileSize

/-- The segment number of a message. -/
def segNum (b : RxBuf) : Nat := (parseRxMsg (some b)).2.segmentNumber.toNat

/-- The message is an accepted segment of the image and carries the bytes of its slot. -/
structure SegmentOf (I : Image) (b : RxBuf) : Prop where
  accepted : (parseRxMsg (some b)).1 = .ok
  type : (parseRxMsg (some b)).2.msgType = .txSegment
  id : (parseRxMsg (some b)).2.fileId = I.fileId
  version : (parseRxMsg (some b)).2.fileVersion = I.fileVersion
  num : segNum b < I.count
  len : (parseRxMsg (some b)).2.payloadLen.toNat = I.slotEnd (segNum b) - 107 * segNum b
  payload : ∀ i, 107 * segNum b + i < I.slotEnd (segNum b) →
    (parseRxMsg (some b)).2.payload.mem ((parseRxMsg (some b)).2.payload.off + i) =
      I.bytes (107 * segNum b + i)

/-- Segment `k` is among the messages. -/
def Occurs (seen : List RxBuf) (k : Nat) : Prop := ∃ b ∈ seen, segNum b = k

theorem occurs_append {seen : List RxBuf} {b : RxBuf} {k : Nat} :
    Occurs (seen ++ [b]) k ↔ Occurs seen k ∨ k = segNum b := by
  unfold Occurs
  constructor
  · intro h
    obtain ⟨b', hb', rfl⟩ := h
    rcases List.mem_append.mp hb' with hmem | hmem
    · exact Or.inl ⟨b', hmem, rfl⟩
    · rw [List.mem_singleton.mp hmem]
      exact Or.inr rfl
  · intro h
    rcases h with ⟨b', hb', rfl⟩ | rfl
    · exact ⟨b', List.mem_append_left _ hb', rfl⟩
    · exact ⟨b, by simp, rfl⟩

/-- Where the transfer of `I` stands after the segments `seen`. -/
structure Delivering (I : Image) (seen : List RxBuf) (f : LlFtp) (w : World) : Prop where
  id : f.fileId = I.fileId
  version : f.fileVersion = I.fileVersion
  size : f.fileSize = I.fileSize
  count : f.numSegs.toNat = I.count
  stored : ∀ k, Occurs seen k → ∀ i, 107 * k ≤ i → i < I.slotEnd k →
    w.data I.fileId I.fileVersion i = I.bytes i
  phase : (f.state = .segment ∧ (∃ k, k < I.count ∧ ¬ Occurs seen k) ∧
      ∀ k, k < 2400 → (segBit f.rxSegs k = true ↔ Occurs seen k)) ∨
    (f.state = .apply ∧ ∀ k, k < I.count → Occurs seen k)

/-- A message about the image is one about the current file. -/
theorem Delivering.mine {I : Image} {seen : List RxBuf} {f : LlFtp} {w : World} {msg : Msg}
    (h : Delivering I seen f w) (hid : msg.fileId = I.fileId)
    (hversion : msg.fileVersion = I.fileVersion) : isMyFile f msg = true :=
  isMyFile_iff.mpr ⟨hid.trans h.id.symm, hversion.trans h.version.symm⟩

/-! ## The pieces against storage -/

section Storage

variable {p : Policy} (hp : ∀ e, p.ret e = .ok)

/-- The world after a look at the clock. -/
def World.look (w : World) : World := { w with looks := w.looks + 1 }

theorem reset_ends (f : LlFtp) (w : World) :
    Ends (storage p) (reset f) w (f.resetAt (p.clock w.looks)) w.look := ⟨_, rfl⟩

theorem sendAck_ends {f : LlFtp} {ack : U8 × LlFtp} {tx : TxBuf} {t : Time}
    (hack : ack.2 = f.touch tx t) (w : World) :
    Ends (storage p) (sendAck ack) w (f.touch tx (p.clock w.looks)) w.look := by
  obtain ⟨len, g⟩ := ack
  dsimp only at hack
  rw [hack]
  exact ⟨_, rfl⟩

include hp

/-- A close that enters APPLY. -/
theorem applyStart_ends (f : LlFtp) (w : World) :
    ∃ tx t, Ends (storage p) (applyStart f) w (.ok, f.touch tx t) w.look := by
  obtain ⟨tx, htx⟩ := ackGenerate_frame f 5 0x00
  refine ⟨tx, p.clock w.looks, .call ?_⟩
  show Ends _ (if p.ret _ = RetCode.ok then _ else _) w _ _
  rw [if_pos (hp _)]
  exact (sendAck_ends htx w).bind (.done _ _)

/-- An open that begins a transfer. -/
theorem segmentStart_ends (f : LlFtp) (msg : Msg) (w : World) :
    ∃ t tx t' w', Ends (storage p) (segmentStart f msg) w
      (.ok, ((f.resetAt t).newFile msg).touch tx t') w' := by
  obtain ⟨tx, htx⟩ := ackGenerate_frame ((f.resetAt (p.clock w.looks)).newFile msg) 4 0x00
  let w₁ := w.setFile msg.fileId msg.fileVersion
    (p.fresh msg.fileId msg.fileVersion (w.data msg.fileId msg.fileVersion))
  refine ⟨p.clock w.looks, tx, p.clock (w.looks + 1), w₁.look.look, .call ?_⟩
  show Ends _ (if p.ret _ = RetCode.ok then _ else _) (if p.ret _ = RetCode.ok then w₁ else w) _ _
  rw [if_pos (hp _), if_pos (hp _)]
  refine Ends.bind (Ends.bind (reset_ends f w₁) (sendAck_ends htx w₁.look)) ?_
  exact .call (.done _ _)

/-- A write that is tracked. -/
theorem writeSegment_ends {f f' : LlFtp} {msg : Msg}
    (htrack : segNumTrack f msg.segmentNumber = some f') (w : World) :
    Ends (storage p) (writeSegment f msg) w (.ok, f')
      (w.setFile msg.fileId msg.fileVersion
        (putBytes (w.data msg.fileId msg.fileVersion)
          (msg.segmentNumber.setWidth 32 * 107 : U32).toNat msg.payload msg.payloadLen.toNat)) := by
  refine .call ?_
  show Ends _ (if p.ret _ = RetCode.ok then _ else _) (if p.ret _ = RetCode.ok then _ else w) _ _
  rw [if_pos (hp _), if_pos (hp _)]
  exact Ends.bind (.ofOption htrack _) (.done _ _)

omit hp in
/-- The handler of SEGMENT on an accepted message: what the message does, then the
transition it names. -/
theorem segmentProcess_ends {f g : LlFtp} {b : RxBuf} {msg : Msg} {w w₁ w' : World}
    {ret : RetCode} {next : Option State} {r : RetCode × LlFtp}
    (hparse : parseRxMsg (some b) = (.ok, msg)) (hst : f.state = .segment)
    (hhandle : Ends (storage p) (segmentHandleMsg f msg) w (ret, next, g) w₁)
    (hnext : Ends (storage p)
      (match next with
        | none => pure (ret, g)
        | some s => transitionOutOfSegment g msg s) w₁ r w') :
    Ends (storage p) (msgProcess f (some b)) w r w' := by
  unfold msgProcess
  rw [hst]
  dsimp only
  unfold segmentProcessMsg
  rw [hparse]
  dsimp only
  rw [if_neg (by simp)]
  exact hhandle.bind hnext

/-- The world after the write of a segment. -/
def World.written (w : World) (msg : Msg) : World :=
  w.look.setFile msg.fileId msg.fileVersion
    (putBytes (w.data msg.fileId msg.fileVersion)
      (msg.segmentNumber.setWidth 32 * 107 : U32).toNat msg.payload msg.payloadLen.toNat)

/-- A segment is written and tracked, and completeness decides what is next. -/
theorem receive_ends {f f₁ : LlFtp} {msg : Msg} {w : World} {complete : Bool}
    (hty : msg.msgType = .txSegment) (hmine : isMyFile f msg = true)
    (htrack : segNumTrack (f.resetAt (p.clock w.looks)) msg.segmentNumber = some f₁)
    (hcomp : transferIsComplete f₁ = some complete)
    (hverify : complete = true → Ends (storage p) (verifyFile f₁) (w.written msg) .ok
      (w.written msg)) :
    Ends (storage p) (segmentHandleMsg f msg) w
      (.ok, if complete then some .apply else none, f₁) (w.written msg) := by
  unfold segmentHandleMsg
  rw [hty]
  dsimp only
  rw [if_pos hmine]
  unfold segmentReceive
  refine (reset_ends f w).bind ?_
  refine (writeSegment_ends hp htrack w.look).bind ?_
  refine (Ends.ofOption hcomp _).bind ?_
  cases complete with
  | false => exact .done _ _
  | true =>
    refine (hverify rfl).bind ?_
    exact .done _ _

/-- The transition that a complete and verified file makes. -/
theorem toApply_ends (f : LlFtp) (msg : Msg) (w : World) :
    ∃ tx t, Ends (storage p) (transitionOutOfSegment f msg .apply) w
      (.ok, (f.touch tx t).stateSet .apply) w.look := by
  obtain ⟨tx, t, h⟩ := applyStart_ends hp f w
  exact ⟨tx, t, h.bind (.done _ _)⟩

end Storage

/-! ## One message -/

variable {I : Image} {p : Policy}

/-- An image has at least one segment and at most `MAX_NUM_SEGMENTS`. -/
theorem Image.count_bounds (I : Image) : 1 ≤ I.count ∧ I.count ≤ 2400 := by
  have h₁ := I.nonempty
  have h₂ := I.small
  unfold Image.count ceilSegs
  omega

/-- The announcement begins the delivery. -/
theorem init_delivers (hp : ∀ e, p.ret e = .ok) {f : LlFtp} {b : RxBuf} (hidle : f.state = .idle)
    (hb : InitOf I b) (w : World) :
    ∃ ret f' w', Ends (storage p) (msgProcess f (some b)) w (ret, f') w' ∧
      Delivering I [] f' w' := by
  obtain ⟨t, tx, t', w', hstart⟩ := segmentStart_ends hp f (parseRxMsg (some b)).2 w
  refine ⟨.ok, ((((f.resetAt t).newFile (parseRxMsg (some b)).2).touch tx t').stateSet .segment),
    w', ?_, ?_⟩
  · unfold msgProcess
    rw [hidle]
    dsimp only
    unfold idleProcessMsg
    rw [parsed hb.accepted]
    dsimp only
    rw [if_neg (by simp), if_neg (by simp [hb.type])]
    exact hstart.bind (.done _ _)
  · have hcount := I.count_bounds
    refine ⟨hb.id, hb.version, hb.size, ?_, ?_, Or.inl ⟨rfl, ⟨0, by omega, ?_⟩, ?_⟩⟩
    · show (BitVec.ofNat 16 (ceilSegs (parseRxMsg (some b)).2.fileSize.toNat)).toNat = I.count
      rw [hb.size, BitVec.toNat_ofNat]
      show I.count % 65536 = I.count
      omega
    · intro k hk
      obtain ⟨b', hb', -⟩ := hk
      cases hb'
    · intro hk
      obtain ⟨b', hb', -⟩ := hk
      cases hb'
    · intro k _
      show segBit (Vector.replicate 75 0) k = true ↔ _
      rw [segBit_replicate]
      refine iff_of_false (by simp) ?_
      intro hk
      obtain ⟨b', hb', -⟩ := hk
      cases hb'

/-- What is written of a segment is its slot of the image, and the other slots stay. -/
theorem written_stored {seen : List RxBuf} {f : LlFtp} {w : World} {b : RxBuf}
    (hd : Delivering I seen f w) (hb : SegmentOf I b) {k : Nat} (hk : Occurs (seen ++ [b]) k)
    {i : Nat} (hlo : 107 * k ≤ i) (hhi : i < I.slotEnd k) :
    (w.written (parseRxMsg (some b)).2).data I.fileId I.fileVersion i = I.bytes i := by
  have hend : ∀ j, I.slotEnd j ≤ 107 * j + 107 := fun j => Nat.min_le_left ..
  have hoff : (((parseRxMsg (some b)).2.segmentNumber.setWidth 32 * 107 : U32)).toNat =
      107 * segNum b := segment_offset _
  have hlen := hb.len
  have hendk := hend k
  have hendb := hend (segNum b)
  unfold World.written
  rw [hb.id, hb.version, setFile_data, hoff]
  unfold putBytes
  by_cases hsame : k = segNum b
  · subst hsame
    rw [if_pos (by omega), hb.payload _ (by omega),
      show 107 * segNum b + (i - 107 * segNum b) = i by omega]
  · -- The slots of different segments do not overlap.
    have hother : ¬ (107 * segNum b ≤ i ∧
        i < 107 * segNum b + (parseRxMsg (some b)).2.payloadLen.toNat) := by
      omega
    rw [if_neg hother]
    rcases occurs_append.mp hk with hseen | heq
    · exact hd.stored k hseen i hlo hhi
    · exact absurd heq hsame

/-- Where every segment is stored, the image is. -/
theorem stored_image {c : Nat → U8}
    (h : ∀ k, k < I.count → ∀ i, 107 * k ≤ i → i < I.slotEnd k → c i = I.bytes i) {i : Nat}
    (hi : i < I.length) : c i = I.bytes i := by
  have hcarried : I.length ≤ 107 * I.count := I.carried
  refine h (i / 107) (by omega) i (by omega) ?_
  unfold Image.slotEnd
  omega

/-- A file that holds the image verifies. -/
theorem image_good {f : LlFtp} {c : Nat → U8} (hid : f.fileId = I.fileId)
    (hversion : f.fileVersion = I.fileVersion) (hsize : f.fileSize = I.fileSize)
    (h : ∀ i, i < I.length → c i = I.bytes i) : GoodImage f c := by
  have hlen : I.length = 16 + I.fileSize.toNat := rfl
  have hword : ∀ j, j ≤ 12 → wordAt c j = wordAt I.bytes j := by
    intro j hj
    exact u32FromBytestream_congr fun k hk => h _ (by omega)
  refine ⟨?_, ?_, ?_, ?_⟩
  · rw [hword 4 (by omega), I.size_at, hsize]
  · rw [hword 8 (by omega), I.id_at, hid]
  · rw [hword 12 (by omega), I.version_at, hversion]
  · have hbytes : (Ptr.mk c 4).bytes (12 + f.fileSize.toNat) =
        (Ptr.mk I.bytes 4).bytes (12 + I.fileSize.toNat) := by
      rw [hsize]
      unfold Ptr.bytes
      refine List.map_congr_left fun i hi => ?_
      have hlt := List.mem_range.mp hi
      exact h (4 + i) (by omega)
    rw [hbytes, I.crc_at, hword 0 (by omega)]

/-- The object after a tracked segment: the bitmap has one more bit, and the loops of
`ll_ftp_transfer_is_complete` answer whether all segments have occurred. -/
theorem tracked {seen : List RxBuf} {f : LlFtp} {w : World} {b : RxBuf}
    (hd : Delivering I seen f w) (hb : SegmentOf I b) (t : Time)
    (hbits : ∀ k, k < 2400 → (segBit f.rxSegs k = true ↔ Occurs seen k)) :
    ∃ f₁ complete, segNumTrack (f.resetAt t) (parseRxMsg (some b)).2.segmentNumber = some f₁ ∧
      transferIsComplete f₁ = some complete ∧
      (complete = true ↔ ∀ k, k < I.count → Occurs (seen ++ [b]) k) ∧
      (∀ k, k < 2400 → (segBit f₁.rxSegs k = true ↔ Occurs (seen ++ [b]) k)) ∧
      f₁ = { f.resetAt t with rxSegs := f₁.rxSegs } := by
  have hcount := I.count_bounds
  have hnum : (parseRxMsg (some b)).2.segmentNumber.toNat < 2400 :=
    Nat.lt_of_lt_of_le hb.num hcount.2
  obtain ⟨f₁, htrack⟩ := segNumTrack_isSome (f := f.resetAt t) hnum
  have hframe := segNumTrack_frame htrack
  have hbits₁ : ∀ k, k < 2400 → (segBit f₁.rxSegs k = true ↔ Occurs (seen ++ [b]) k) := by
    intro k hk
    rw [segNumTrack_bit hnum htrack hk, Bool.or_eq_true, occurs_append, decide_eq_true_eq]
    exact or_congr (hbits k hk) Iff.rfl
  have hnumSegs : f₁.numSegs.toNat = I.count := by
    rw [hframe]
    exact hd.count
  have hcomp := transferIsComplete_eq (f := f₁) (by omega)
  refine ⟨f₁, _, htrack, hcomp, ?_, hbits₁, hframe⟩
  rw [List.all_eq_true, hnumSegs]
  constructor
  · intro hall k hk
    exact (hbits₁ k (by omega)).mp (hall k (List.mem_range.mpr hk))
  · intro hall k hk
    have hlt := List.mem_range.mp hk
    exact (hbits₁ k (by omega)).mpr (hall k hlt)

/-- **One segment** of the image, new or repeated, keeps the delivery going. -/
theorem segment_delivers (hp : ∀ e, p.ret e = .ok) {seen : List RxBuf} {f : LlFtp} {w : World}
    {b : RxBuf} (hd : Delivering I seen f w) (hb : SegmentOf I b) :
    ∃ ret f' w', Ends (storage p) (msgProcess f (some b)) w (ret, f') w' ∧
      Delivering I (seen ++ [b]) f' w' := by
  have hmine := hd.mine hb.id hb.version
  rcases hd.phase with ⟨hst, -, hbits⟩ | ⟨hst, hall⟩
  · obtain ⟨f₁, complete, htrack, hcomp, hiff, hbits₁, hframe⟩ :=
      tracked hd hb (p.clock w.looks) hbits
    have hid₁ : f₁.fileId = I.fileId := by rw [hframe]; exact hd.id
    have hversion₁ : f₁.fileVersion = I.fileVersion := by rw [hframe]; exact hd.version
    have hsize₁ : f₁.fileSize = I.fileSize := by rw [hframe]; exact hd.size
    have hcount₁ : f₁.numSegs.toNat = I.count := by rw [hframe]; exact hd.count
    have hstored := fun k hk i hlo hhi => @written_stored I seen f w b hd hb k hk i hlo hhi
    have hreceive := receive_ends hp hb.type hmine htrack hcomp
    cases complete with
    | false =>
      -- Some segment has not occurred yet, and the transfer goes on.
      have hnot : ¬ ∀ k, k < I.count → Occurs (seen ++ [b]) k := fun hall =>
        Bool.false_ne_true (hiff.mpr hall)
      obtain ⟨k, hk⟩ := Classical.not_forall.mp hnot
      obtain ⟨hk, hmiss⟩ := Classical.not_imp.mp hk
      refine ⟨.ok, f₁, w.written (parseRxMsg (some b)).2, ?_, hid₁, hversion₁, hsize₁, hcount₁,
        hstored, Or.inl ⟨?_, ⟨k, hk, hmiss⟩, hbits₁⟩⟩
      · exact segmentProcess_ends (parsed hb.accepted) hst
          (hreceive fun h => absurd h (by simp)) (.done _ _)
      · rw [hframe]
        exact hst
    | true =>
      -- The last one: storage holds the image, so the verification succeeds.
      have hall := hiff.mp rfl
      have hgood : GoodImage f₁ ((w.written (parseRxMsg (some b)).2).data f₁.fileId
          f₁.fileVersion) := by
        rw [hid₁, hversion₁]
        exact image_good hid₁ hversion₁ hsize₁ fun i hi =>
          stored_image (fun k hk i hlo hhi => hstored k (hall k hk) i hlo hhi) hi
      have hsmall := I.small
      obtain ⟨ret, hverify, hret⟩ := verifyFile_ends
        (storage_storing (fun _ _ _ _ => hp _) (w.written (parseRxMsg (some b)).2) f₁)
        (by rw [hsize₁]; omega)
      rw [hret.mpr hgood] at hverify
      obtain ⟨tx, t, happly⟩ :=
        toApply_ends hp f₁ (parseRxMsg (some b)).2 (w.written (parseRxMsg (some b)).2)
      refine ⟨.ok, (f₁.touch tx t).stateSet .apply, (w.written (parseRxMsg (some b)).2).look, ?_,
        hid₁, hversion₁, hsize₁, hcount₁, hstored, Or.inr ⟨rfl, hall⟩⟩
      exact segmentProcess_ends (parsed hb.accepted) hst (hreceive fun _ => hverify) happly
  · -- In APPLY a repeated segment restarts the timer and does nothing else.
    have hkeep : ∀ k, Occurs (seen ++ [b]) k → Occurs seen k := by
      intro k hk
      rcases occurs_append.mp hk with hseen | rfl
      · exact hseen
      · exact hall _ hb.num
    refine ⟨.noAction, f.resetAt (p.clock w.looks), w.look, ?_, hd.id, hd.version, hd.size,
      hd.count, fun k hk => hd.stored k (hkeep k hk), Or.inr ⟨hst, fun k hk => ?_⟩⟩
    · unfold msgProcess
      rw [hst]
      dsimp only
      unfold applyProcessMsg
      rw [parsed hb.accepted]
      dsimp only
      rw [if_neg (by simp)]
      unfold applyHandleMsg
      rw [hb.type]
      dsimp only
      rw [if_pos hmine]
      have hreset : Ends (storage p)
          (reset f >>= fun g => pure (RetCode.noAction, (none : Option State), g)) w
          (.noAction, none, f.resetAt (p.clock w.looks)) w.look :=
        (reset_ends f w).bind (.done _ _)
      exact hreset.bind (.done _ _)
    · exact occurs_append.mpr (Or.inl (hall k hk))

/-! ## The sender

A file's content makes an image (`Image.ofFile`), and for every image the messages
that `InitOf` and `SegmentOf` ask for exist: they are put together as the sender
does. -/

namespace Image

/-- What the CRC of an image covers. -/
def body (id version : U32) (content : List U8) : List U8 :=
  le32 (BitVec.ofNat 32 content.length) ++ (le32 id ++ (le32 version ++ content))

/-- The image of a file: the header, then the content. -/
def ofFile (id version : U32) (content : List U8) (hpos : 1 ≤ content.length)
    (hsmall : content.length ≤ 256800)
    (hcarried : 16 + content.length ≤ 107 * ceilSegs content.length) : Image :=
  have hsize : (BitVec.ofNat 32 content.length).toNat = content.length := by
    rw [BitVec.toNat_ofNat]
    omega
  { bytes := fun i => (le32 (crc32 0 (body id version content)) ++ body id version content).getD i 0
    fileId := id
    fileVersion := version
    fileSize := BitVec.ofNat 32 content.length
    nonempty := by rwa [hsize]
    small := by rwa [hsize]
    carried := by rwa [hsize]
    size_at := by
      refine Eq.trans ?_ (u32FromBytestream_le32 (BitVec.ofNat 32 content.length)
        (le32 id ++ (le32 version ++ content)))
      exact u32FromBytestream_congr fun k _ => by rw [Nat.add_comm]; rfl
    id_at := by
      refine Eq.trans ?_ (u32FromBytestream_le32 id (le32 version ++ content))
      exact u32FromBytestream_congr fun k _ => by rw [Nat.add_comm]; rfl
    version_at := by
      refine Eq.trans ?_ (u32FromBytestream_le32 version content)
      exact u32FromBytestream_congr fun k _ => by rw [Nat.add_comm]; rfl
    crc_at := by
      have hword : wordAt (fun i => (le32 (crc32 0 (body id version content)) ++
          body id version content).getD i 0) 0 = crc32 0 (body id version content) := by
        refine Eq.trans ?_ (u32FromBytestream_le32 _ (body id version content))
        exact u32FromBytestream_congr fun k _ => by rw [Nat.zero_add]
      have hlen : (body id version content).length = 12 + content.length := by
        simp only [body, le32, List.length_append, List.length_cons, List.length_nil]
        omega
      rw [hword, hsize]
      refine congrArg _ (List.ext_getElem ?_ ?_)
      · rw [Ptr.length_bytes, hlen]
      · intro i h₁ h₂
        rw [Ptr.getElem_bytes]
        show (le32 (crc32 0 (body id version content)) ++
          body id version content).getD (4 + i) 0 = _
        rw [Nat.add_comm 4 i]
        show (body id version content).getD i 0 = _
        rw [List.getD_eq_getElem?_getD, List.getElem?_eq_getElem h₂]
        rfl }

end Image

theorem fileMsg_len {type : U8} {id version size : U32} {rest : List U8}
    (hrest : rest.length ≤ 238) :
    (fileMsg type id version size rest).len.toNat = 17 + rest.length := by
  unfold fileMsg sealMsg RxBuf.ofList le32
  rw [BitVec.toNat_ofNat]
  simp only [List.length_cons, List.length_append, List.length_nil]
  omega

/-- The bytes behind the type and the CRC. -/
theorem fileMsg_mem (type : U8) (id version size : U32) (rest : List U8) (i : Nat) :
    (fileMsg type id version size rest).mem (5 + i) =
      (le32 id ++ (le32 version ++ (le32 size ++ rest))).getD i 0 := by
  unfold fileMsg sealMsg RxBuf.ofList
  rw [show 5 + i = i + 1 + 1 + 1 + 1 + 1 by omega]
  simp only [List.append_assoc]
  rfl

/-- What the parser makes of a sealed message about a file. -/
theorem fileMsg_parsed {type : U8} {id version size : U32} {rest : List U8} {ty : MsgType}
    (hrest : rest.length ≤ 238) (hty : MsgType.ofByte type = some ty) :
    ∃ msg, parseRxMsg (some (fileMsg type id version size rest)) = (.ok, msg) ∧
      msg.msgType = ty ∧ msg.fileId = id ∧ msg.fileVersion = version ∧ msg.fileSize = size := by
  have hbody : (le32 id ++ le32 version ++ le32 size ++ rest).length = 12 + rest.length := by
    simp only [le32, List.length_append, List.length_cons, List.length_nil]
  obtain ⟨msg, hparse, hmsg⟩ := @parseRxMsg_sealMsg type
    (le32 id ++ le32 version ++ le32 size ++ rest) ty (by omega) (by omega) hty
  have hacc := parseRxMsg_ok hparse
  refine ⟨msg, hparse, hmsg, ?_, ?_, ?_⟩
  · refine hacc.fileId.trans
      (Eq.trans ?_ (u32FromBytestream_le32 id (le32 version ++ (le32 size ++ rest))))
    exact u32FromBytestream_congr fun k _ => fileMsg_mem type id version size rest k
  · refine hacc.fileVersion.trans
      (Eq.trans ?_ (u32FromBytestream_le32 version (le32 size ++ rest)))
    refine u32FromBytestream_congr fun k _ => ?_
    rw [show 9 + k = 5 + (k + 4) by omega]
    exact fileMsg_mem type id version size rest (k + 4)
  · refine hacc.fileSize.trans (Eq.trans ?_ (u32FromBytestream_le32 size rest))
    refine u32FromBytestream_congr fun k _ => ?_
    rw [show 13 + k = 5 + (k + 8) by omega]
    exact fileMsg_mem type id version size rest (k + 8)

namespace Image

/-- The announcement of the image. -/
def initMsg (I : Image) : RxBuf :=
  fileMsg 0 I.fileId I.fileVersion I.fileSize []

/-- The bytes of segment `k`. -/
def slot (I : Image) (k : Nat) : List U8 :=
  (Ptr.mk I.bytes (107 * k)).bytes (I.slotEnd k - 107 * k)

/-- The message that carries segment `k`. -/
def segmentMsg (I : Image) (k : Nat) : RxBuf :=
  fileMsg 3 I.fileId I.fileVersion I.fileSize
    (le16 (BitVec.ofNat 16 k) ++ (le16 (BitVec.ofNat 16 I.count) ++ I.slot k))

theorem slot_length (I : Image) (k : Nat) : (I.slot k).length ≤ 107 := by
  unfold slot slotEnd
  rw [Ptr.length_bytes]
  omega

/-- The announcement is one. -/
theorem initMsg_spec (I : Image) : InitOf I I.initMsg := by
  obtain ⟨msg, hparse, hty, hid, hversion, hsize⟩ :=
    @fileMsg_parsed 0 I.fileId I.fileVersion I.fileSize [] .txInit (by simp) rfl
  rw [show fileMsg 0 I.fileId I.fileVersion I.fileSize [] = I.initMsg from rfl] at hparse
  constructor <;> rw [hparse] <;> assumption

/-- The segments of the image are, each under its number. -/
theorem segmentMsg_spec (I : Image) {k : Nat} (hk : k < I.count) :
    SegmentOf I (I.segmentMsg k) ∧ segNum (I.segmentMsg k) = k := by
  have hcount := I.count_bounds
  have hslot := I.slot_length k
  have hrest : (le16 (BitVec.ofNat 16 k) ++ (le16 (BitVec.ofNat 16 I.count) ++ I.slot k)).length =
      4 + (I.slot k).length := by
    simp only [le16, List.length_append, List.length_cons, List.length_nil]
    omega
  have hlen := @fileMsg_len 3 I.fileId I.fileVersion I.fileSize
    (le16 (BitVec.ofNat 16 k) ++ (le16 (BitVec.ofNat 16 I.count) ++ I.slot k)) (by omega)
  have hmem : ∀ i, (I.segmentMsg k).mem (17 + i) =
      (le16 (BitVec.ofNat 16 k) ++ (le16 (BitVec.ofNat 16 I.count) ++ I.slot k)).getD i 0 := by
    intro i
    rw [show 17 + i = 5 + (i + 12) by omega]
    exact fileMsg_mem 3 I.fileId I.fileVersion I.fileSize _ (i + 12)
  obtain ⟨msg, hparse, hty, hid, hversion, -⟩ :=
    @fileMsg_parsed 3 I.fileId I.fileVersion I.fileSize
      (le16 (BitVec.ofNat 16 k) ++ (le16 (BitVec.ofNat 16 I.count) ++ I.slot k)) .txSegment
      (by omega) rfl
  have hacc := parseRxMsg_ok hparse
  have hnum : msg.segmentNumber = BitVec.ofNat 16 k := by
    refine (hacc.segmentNumber hty).trans (Eq.trans ?_ (u16FromBytestream_le16
      (BitVec.ofNat 16 k) (le16 (BitVec.ofNat 16 I.count) ++ I.slot k)))
    exact u16FromBytestream_congr fun i _ => hmem i
  have hpaylen : msg.payloadLen.toNat = (I.slot k).length := by
    rw [hacc.payloadLen hty, BitVec.toNat_sub, BitVec.toNat_setWidth, hlen, hrest,
      show (21 : U16).toNat = 21 from rfl]
    omega
  have hsegNum : segNum (I.segmentMsg k) = k := by
    unfold segNum segmentMsg
    rw [hparse]
    dsimp only
    rw [hnum, BitVec.toNat_ofNat]
    omega
  rw [show fileMsg 3 I.fileId I.fileVersion I.fileSize
    (le16 (BitVec.ofNat 16 k) ++ (le16 (BitVec.ofNat 16 I.count) ++ I.slot k)) =
      I.segmentMsg k from rfl] at hparse
  refine ⟨⟨?_, ?_, ?_, ?_, ?_, ?_, ?_⟩, hsegNum⟩
  · rw [hparse]
  · rw [hparse]; exact hty
  · rw [hparse]; exact hid
  · rw [hparse]; exact hversion
  · rw [hsegNum]; exact hk
  · rw [hparse, hsegNum]
    exact hpaylen.trans (Ptr.length_bytes ..)
  · intro i hi
    rw [hsegNum] at hi ⊢
    rw [hparse]
    dsimp only
    rw [hacc.payload hty]
    have hin : i < (I.slot k).length := by
      unfold slot
      rw [Ptr.length_bytes]
      omega
    show (I.segmentMsg k).mem (21 + i) = _
    rw [show 21 + i = 17 + (i + 4) by omega, hmem]
    show (I.slot k).getD i 0 = _
    rw [List.getD_eq_getElem?_getD, List.getElem?_eq_getElem hin]
    exact Ptr.getElem_bytes _ hin

end Image

/-! ## The whole sequence -/

/-- The segments one after the other. -/
theorem segments_deliver (hp : ∀ e, p.ret e = .ok) (segs : List RxBuf)
    (hsegs : ∀ b ∈ segs, SegmentOf I b) :
    ∀ {seen : List RxBuf} {f : LlFtp} {w : World}, Delivering I seen f w →
      ∃ hist f' w', execAll msgProcess (storage p) f (segs.map some) w = some (hist, f', w') ∧
        Delivering I (seen ++ segs) f' w' := by
  induction segs with
  | nil =>
    intro seen f w hd
    rw [List.append_nil]
    exact ⟨[], f, w, rfl, hd⟩
  | cons b segs ih =>
    intro seen f w hd
    obtain ⟨ret, f₁, w₁, ⟨tr, hx⟩, hd₁⟩ := segment_delivers hp hd (hsegs b (List.mem_cons_self ..))
    obtain ⟨hist, f', w', hrest, hd'⟩ := ih (fun b' h' => hsegs b' (List.mem_cons_of_mem _ h')) hd₁
    refine ⟨⟨f, some b, tr, ret, f₁⟩ :: hist, f', w', ?_, ?_⟩
    · rw [List.map_cons, execAll_cons hx, hrest]
      rfl
    · rwa [List.append_cons]

/-- **Delivery in any order.** After the announcement of an image, any sequence of its
segments ends in APPLY exactly when each has occurred, with the image in storage;
otherwise in SEGMENT, and the bitmap is the set of segments that have. -/
theorem delivery (hp : ∀ e, p.ret e = .ok) {f : LlFtp} (hidle : f.state = .idle) {b : RxBuf}
    (hinit : InitOf I b) (segs : List RxBuf) (hsegs : ∀ b ∈ segs, SegmentOf I b) (w : World) :
    ∃ hist f' w', execAll msgProcess (storage p) f ((b :: segs).map some) w = some (hist, f', w') ∧
      (f'.state = .apply ↔ ∀ k, k < I.count → Occurs segs k) ∧
      ((∀ k, k < I.count → Occurs segs k) →
        ∀ i, i < I.length → w'.data I.fileId I.fileVersion i = I.bytes i) ∧
      (¬ (∀ k, k < I.count → Occurs segs k) →
        f'.state = .segment ∧ ∀ k, segBit f'.rxSegs k = true ↔ Occurs segs k) := by
  obtain ⟨ret, f₁, w₁, ⟨tr, hx⟩, hd₁⟩ := init_delivers hp hidle hinit w
  obtain ⟨hist, f', w', hrest, hd⟩ := segments_deliver hp segs hsegs hd₁
  rw [List.nil_append] at hd
  have hcount := I.count_bounds
  refine ⟨⟨f, some b, tr, ret, f₁⟩ :: hist, f', w', ?_, ?_, ?_, ?_⟩
  · rw [List.map_cons, execAll_cons hx, hrest]
    rfl
  · rcases hd.phase with ⟨hst, ⟨k, hk, hmiss⟩, -⟩ | ⟨hst, hall⟩
    · exact iff_of_false (by rw [hst]; simp) fun hall => hmiss (hall k hk)
    · exact iff_of_true hst hall
  · intro hall i hi
    exact stored_image (fun k hk => hd.stored k (hall k hk)) hi
  · intro hnot
    rcases hd.phase with ⟨hst, -, hbits⟩ | ⟨-, hall⟩
    · refine ⟨hst, fun k => ?_⟩
      rcases Nat.lt_or_ge k 2400 with hlt | hge
      · exact hbits k hlt
      · -- No segment of an image has a number past the array.
        rw [segBit_out hge]
        refine iff_of_false (by simp) ?_
        intro hk
        obtain ⟨b', hb', rfl⟩ := hk
        have := (hsegs b' hb').num
        omega
    · exact absurd hall hnot

/-- A file of 108 bytes in two segments. -/
def pairImage : Image :=
  .ofFile 7 1 (List.replicate 108 5) (by decide) (by decide) (by decide)

/-- The second segment first, and once more at the end. -/
theorem delivery_pair :
    let segs := [pairImage.segmentMsg 1, pairImage.segmentMsg 0, pairImage.segmentMsg 1]
    ∃ hist f' w', execAll msgProcess (storage .willing) LlFtp.blank.reinit
        ((pairImage.initMsg :: segs).map some) .empty = some (hist, f', w') ∧
      f'.state = .apply ∧ ∀ i, i < 124 → w'.data 7 1 i = pairImage.bytes i := by
  intro segs
  obtain ⟨h₀, hnum₀⟩ := pairImage.segmentMsg_spec (show 0 < pairImage.count by decide)
  obtain ⟨h₁, hnum₁⟩ := pairImage.segmentMsg_spec (show 1 < pairImage.count by decide)
  have hsegs : ∀ b ∈ segs, SegmentOf pairImage b := by
    intro b hb
    simp only [segs, List.mem_cons, List.not_mem_nil, or_false] at hb
    rcases hb with rfl | rfl | rfl
    · exact h₁
    · exact h₀
    · exact h₁
  have hall : ∀ k, k < pairImage.count → Occurs segs k := by
    intro k hk
    have hk2 : k < 2 := hk
    rcases Nat.lt_or_ge k 1 with hlt | hge
    · exact ⟨pairImage.segmentMsg 0, by simp [segs], by omega⟩
    · exact ⟨pairImage.segmentMsg 1, by simp [segs], by omega⟩
  obtain ⟨hist, f', w', hx, hstate, hstored, -⟩ := delivery (p := .willing) (fun _ => rfl)
    (reinit_state LlFtp.blank) pairImage.initMsg_spec segs hsegs .empty
  exact ⟨hist, f', w', hx, hstate.mpr hall, hstored hall⟩

end HostInterface.Ftp

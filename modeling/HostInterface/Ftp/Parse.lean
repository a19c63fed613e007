import HostInterface.Ftp.Object

/-!
# Received messages (`ll_ftp_parse_rx_msg`)

A received message is a pointer into memory and a length (`RxBuf`): the memory
goes on behind the last received byte, and a read there is not a fault but a
read of whatever lies behind the message. `parseReads` lists the indices the
parser dereferences, branch by branch, and `parseRxMsg_congr` checks the list:
the result depends on no other byte of the buffer.

The minimum length all messages are held to is 17, the header of a segment is
21 bytes long, and the CRC covers bytes 5 up to the length. So a segment of 17
to 20 bytes with a matching CRC is accepted, with fields read from behind the
message and a payload length that has wrapped around; `parse_segment_inside_iff`
says that this is the only way in which an accepted segment leaves its buffer.
-/

namespace HostInterface.Ftp

open Interact

/-- The arguments `buf` and `len` of `ll_ftp_msg_process`: what memory holds from
`buf` on, and how many bytes of it were received. -/
structure RxBuf where
  mem : Nat → U8
  len : U8

/-- A received message as the bytes `l` (zeros behind them). -/
def RxBuf.ofList (l : List U8) : RxBuf :=
  ⟨fun i => l.getD i 0, BitVec.ofNat 8 l.length⟩

/-- `ll_ftp_msg_type_t`, less the count at its end. -/
inductive MsgType where
  | txInit
  | txCancel
  | txApply
  | txSegment
  | ackInit
  | ackSegment
  | ackApply
  | tick
  deriving DecidableEq, Repr

/-- The message type of a packet-type byte; `none` from `NUM_MSG_TYPES` on. -/
def MsgType.ofByte (b : U8) : Option MsgType :=
  match b.toNat with
  | 0 => some .txInit
  | 1 => some .txCancel
  | 2 => some .txApply
  | 3 => some .txSegment
  | 4 => some .ackInit
  | 5 => some .ackSegment
  | 6 => some .ackApply
  | 7 => some .tick
  | _ => none

/-- A type is its number. -/
theorem MsgType.ofByte_eq {x : U8} {ty : MsgType} (h : MsgType.ofByte x = some ty) :
    x.toNat = ty.ctorIdx := by
  unfold MsgType.ofByte at h
  split at h <;> first | (cases h; assumption) | cases h

/-- One byte for each type. -/
theorem MsgType.ofByte_inj {x y : U8} {ty : MsgType} (hx : MsgType.ofByte x = some ty)
    (hy : MsgType.ofByte y = some ty) : x = y := by
  apply BitVec.eq_of_toNat_eq
  rw [MsgType.ofByte_eq hx, MsgType.ofByte_eq hy]

/-- `ll_ftp_msg_t`. The payload is a pointer into the received buffer. -/
structure Msg where
  crc : U32
  fileId : U32
  fileVersion : U32
  fileSize : U32
  msgType : MsgType
  segmentNumber : U16
  numSegs : U16
  payloadLen : U16
  payload : Ptr

/-- The message variable of a handler before the parser has filled it: no handler
reads a field the parser has not written, so the values do not matter. -/
def Msg.blank : Msg :=
  { crc := 0, fileId := 0, fileVersion := 0, fileSize := 0, msgType := .tick, segmentNumber := 0
    numSegs := 0, payloadLen := 0, payload := ⟨fun _ => 0, 0⟩ }

/-- The bytes the CRC of a message covers, `buf[LL_FTP_MSG_FILE_ID_INDEX .. len)`. -/
def RxBuf.crcBytes (b : RxBuf) : List U8 :=
  (Ptr.mk b.mem 5).bytes (b.len.toNat - 5)

@[simp] theorem length_crcBytes (b : RxBuf) : b.crcBytes.length = b.len.toNat - 5 :=
  Ptr.length_bytes _ _

/-- Byte `j` of the body is byte `5 + j` of the message. -/
theorem getElem?_crcBytes {b : RxBuf} {j : Nat} (hj : j < b.len.toNat - 5) :
    b.crcBytes[j]? = some (b.mem (5 + j)) := by
  rw [List.getElem?_eq_getElem (by rw [length_crcBytes]; exact hj)]
  exact congrArg some (Ptr.getElem_bytes _ _)

/-- The little-endian word at index `i`. -/
def RxBuf.u32At (b : RxBuf) (i : Nat) : U32 :=
  u32FromBytestream fun k => b.mem (i + k)

/-- The little-endian half word at index `i`. -/
def RxBuf.u16At (b : RxBuf) (i : Nat) : U16 :=
  u16FromBytestream fun k => b.mem (i + k)

/-- `ll_ftp_parse_rx_msg`; `none` is the `NULL` buffer of a timeout. -/
def parseRxMsg : Option RxBuf → RetCode × Msg
  | none => (.ok, { Msg.blank with msgType := .tick })
  | some b =>
    if b.len.toNat < 17 then (.invalidValue, Msg.blank) -- LL_FTP_MSG_MIN_SIZE
    else
      match MsgType.ofByte (b.mem 0) with
      | none => (.oor, Msg.blank)
      | some ty =>
        -- Stuff all messages have
        let msg : Msg :=
          { Msg.blank with
            msgType := ty
            crc := b.u32At 1
            fileId := b.u32At 5
            fileVersion := b.u32At 9
            fileSize := b.u32At 13 }
        -- Stuff only segments have
        let msg : Msg :=
          if ty = .txSegment then
            { msg with
              segmentNumber := b.u16At 17
              numSegs := b.u16At 19
              payload := ⟨b.mem, 21⟩
              payloadLen := b.len.setWidth 16 - 21 }
          else msg
        let crc := crc32 0 b.crcBytes
        (if crc = msg.crc then .ok else .error, msg)

/-- The indices of the buffer `ll_ftp_parse_rx_msg` reads. -/
def parseReads (b : RxBuf) : List Nat :=
  if b.len.toNat < 17 then []
  else
    match MsgType.ofByte (b.mem 0) with
    | none => [0]
    | some ty =>
      (List.range 17) ++ (if ty = .txSegment then [17, 18, 19, 20] else []) ++
        (List.range (b.len.toNat - 5)).map (5 + ·)

/-- The parser looks at no other byte: memory that agrees on `parseReads` gives the
same result, up to where the payload pointer points. -/
theorem parseRxMsg_congr {b b' : RxBuf} (hlen : b'.len = b.len)
    (h : ∀ i ∈ parseReads b, b'.mem i = b.mem i) :
    (parseRxMsg (some b')).1 = (parseRxMsg (some b)).1 ∧
      { (parseRxMsg (some b')).2 with payload := (parseRxMsg (some b)).2.payload } =
        (parseRxMsg (some b)).2 := by
  unfold parseReads at h
  unfold parseRxMsg
  dsimp only
  rw [hlen]
  split at h
  next hshort => simp only [if_pos hshort, and_self]
  next hshort =>
    simp only [if_neg hshort]
    cases hty : MsgType.ofByte (b.mem 0) with
    | none =>
      rw [hty] at h
      simp only [h 0 (by simp), hty, and_self]
    | some ty =>
      rw [hty] at h
      dsimp only at h
      have hhead : ∀ i, i < 17 → b'.mem i = b.mem i := fun i hi => h i (by simp [hi])
      have h32 : ∀ i, i + 3 < 17 → b'.u32At i = b.u32At i := by
        intro i hi
        exact u32FromBytestream_congr fun k hk => hhead (i + k) (by omega)
      have hcrc : b'.crcBytes = b.crcBytes := by
        unfold RxBuf.crcBytes Ptr.bytes
        rw [hlen]
        refine List.map_congr_left fun i hi => h (5 + i) ?_
        simp [List.mem_range.mp hi]
      rw [hhead 0 (by omega), hty]
      dsimp only
      rw [h32 1 (by omega), h32 5 (by omega), h32 9 (by omega), h32 13 (by omega), hcrc]
      -- Only a segment is read behind the common fields.
      by_cases hseg : ty = .txSegment
      · have htail : ∀ i, 17 ≤ i → i < 21 → b'.mem i = b.mem i := by
          intro i hlo hhi
          refine h i ?_
          have : i = 17 ∨ i = 18 ∨ i = 19 ∨ i = 20 := by omega
          rw [if_pos hseg]
          simp only [List.mem_append, List.mem_cons, List.not_mem_nil, or_false]
          exact Or.inl (Or.inr this)
        have h16 : ∀ i, 17 ≤ i → i + 1 < 21 → b'.u16At i = b.u16At i := by
          intro i hlo hhi
          exact u16FromBytestream_congr fun k hk => htail (i + k) (by omega) (by omega)
        simp only [if_pos hseg, h16 17 (by omega) (by omega), h16 19 (by omega) (by omega),
          and_self]
      · simp only [if_neg hseg, and_self]

/-! ## What an accepted message says -/

/-- The parser's result, where it accepts. -/
theorem parsed {inp : Option RxBuf} (h : (parseRxMsg inp).1 = .ok) :
    parseRxMsg inp = (.ok, (parseRxMsg inp).2) :=
  Prod.ext h rfl

/-- One input is one message. -/
theorem parse_unique {inp : Option RxBuf} {msg msg' : Msg} {ret : RetCode}
    (h : parseRxMsg inp = (.ok, msg)) (h' : parseRxMsg inp = (ret, msg')) :
    ret = .ok ∧ msg' = msg := by
  rw [h] at h'
  exact ⟨(Prod.mk.inj h').1.symm, (Prod.mk.inj h').2.symm⟩

/-- A message of one type is not one of another. -/
theorem not_other_type {P : Prop} {inp : Option RxBuf} {msg msg' : Msg} {ty ty' : MsgType}
    (h : parseRxMsg inp = (.ok, msg)) (hty : msg.msgType = ty)
    (h' : parseRxMsg inp = (.ok, msg')) (hty' : msg'.msgType = ty') (hne : ty' ≠ ty) : P := by
  rw [(parse_unique h h').2] at hty'
  exact absurd (hty'.symm.trans hty) hne

/-- The fields of an accepted message, and that its CRC matches. -/
structure Accepted (b : RxBuf) (msg : Msg) : Prop where
  long : 17 ≤ b.len.toNat
  type : MsgType.ofByte (b.mem 0) = some msg.msgType
  crc : crc32 0 b.crcBytes = b.u32At 1
  fileId : msg.fileId = b.u32At 5
  fileVersion : msg.fileVersion = b.u32At 9
  fileSize : msg.fileSize = b.u32At 13
  segmentNumber : msg.msgType = .txSegment → msg.segmentNumber = b.u16At 17
  payload : msg.msgType = .txSegment → msg.payload = ⟨b.mem, 21⟩
  payloadLen : msg.msgType = .txSegment → msg.payloadLen = b.len.setWidth 16 - 21

/-- A check that answers OK or ERROR and answered OK. -/
theorem ok_of_check {c : Prop} [Decidable c]
    (h : (if c then RetCode.ok else RetCode.error) = .ok) : c := by
  by_cases hc : c
  · exact hc
  · rw [if_neg hc] at h
    cases h

theorem parseRxMsg_ok {b : RxBuf} {msg : Msg} (h : parseRxMsg (some b) = (.ok, msg)) :
    Accepted b msg := by
  unfold parseRxMsg at h
  dsimp only at h
  split at h
  next => cases h
  next hlong =>
    split at h
    next => cases h
    next ty hty =>
      simp only [Prod.mk.injEq] at h
      obtain ⟨hret, hmsg⟩ := h
      by_cases hseg : ty = .txSegment
      · simp only [if_pos hseg] at hret hmsg
        rw [← hmsg]
        exact ⟨Nat.le_of_not_lt hlong, hty, ok_of_check hret, rfl, rfl, rfl, fun _ => rfl,
          fun _ => rfl, fun _ => rfl⟩
      · simp only [if_neg hseg] at hret hmsg
        rw [← hmsg]
        exact ⟨Nat.le_of_not_lt hlong, hty, ok_of_check hret, rfl, rfl, rfl,
          fun he => absurd he hseg, fun he => absurd he hseg, fun he => absurd he hseg⟩

/-- Every buffer of the right length, type and CRC is accepted. -/
theorem parseRxMsg_accepts {b : RxBuf} {ty : MsgType} (hlen : 17 ≤ b.len.toNat)
    (hty : MsgType.ofByte (b.mem 0) = some ty) (hcrc : crc32 0 b.crcBytes = b.u32At 1) :
    ∃ msg, parseRxMsg (some b) = (.ok, msg) ∧ msg.msgType = ty := by
  unfold parseRxMsg
  dsimp only
  rw [if_neg (Nat.not_lt.mpr hlen), hty]
  dsimp only
  by_cases hseg : ty = .txSegment
  · simp only [if_pos hseg, if_pos hcrc]
    exact ⟨_, rfl, hseg ▸ rfl⟩
  · simp only [if_neg hseg, if_pos hcrc]
    exact ⟨_, rfl, rfl⟩

/-- A CRC that does not match is an error. -/
theorem parseRxMsg_mismatch {b : RxBuf} {ty : MsgType} (hlen : 17 ≤ b.len.toNat)
    (hty : MsgType.ofByte (b.mem 0) = some ty) (hcrc : crc32 0 b.crcBytes ≠ b.u32At 1) :
    (parseRxMsg (some b)).1 = .error := by
  unfold parseRxMsg
  dsimp only
  rw [if_neg (Nat.not_lt.mpr hlen), hty]
  dsimp only
  by_cases hseg : ty = .txSegment
  · simp only [if_pos hseg, if_neg hcrc]
  · simp only [if_neg hseg, if_neg hcrc]

/-- A message as its sender puts it together: the type, the CRC of the body, the body. -/
def sealMsg (type : U8) (body : List U8) : List U8 :=
  type :: (le32 (crc32 0 body) ++ body)

/-- A sealed message of a known type and a fitting length is accepted. -/
theorem parseRxMsg_sealMsg {type : U8} {body : List U8} {ty : MsgType} (hmin : 12 ≤ body.length)
    (hmax : body.length ≤ 250) (hty : MsgType.ofByte type = some ty) :
    ∃ msg, parseRxMsg (some (RxBuf.ofList (sealMsg type body))) = (.ok, msg) ∧
      msg.msgType = ty := by
  have hlen : (RxBuf.ofList (sealMsg type body)).len.toNat = body.length + 5 := by
    unfold RxBuf.ofList sealMsg le32
    rw [BitVec.toNat_ofNat]
    simp only [List.length_cons, List.length_append, List.length_nil]
    omega
  have hbody : (RxBuf.ofList (sealMsg type body)).crcBytes = body := by
    unfold RxBuf.crcBytes
    rw [hlen, Nat.add_sub_cancel]
    apply List.ext_getElem
    · rw [Ptr.length_bytes]
    · intro i h₁ h₂
      rw [Ptr.getElem_bytes]
      show (sealMsg type body).getD (5 + i) 0 = body[i]
      unfold sealMsg le32
      rw [show 5 + i = i + 1 + 1 + 1 + 1 + 1 by omega]
      simp [List.getD_eq_getElem?_getD, h₂]
  refine parseRxMsg_accepts ?_ hty ?_
  · rw [hlen]
    omega
  · rw [hbody]
    refine (Eq.trans ?_ (u32FromBytestream_le32 (crc32 0 body) body)).symm
    refine u32FromBytestream_congr fun k _ => ?_
    show (sealMsg type body).getD (1 + k) 0 = _
    rw [Nat.add_comm]
    rfl

/-- A segment too short for its header, with a matching CRC. -/
def ShortSegment (b : RxBuf) : Prop :=
  b.mem 0 = 3 ∧ 17 ≤ b.len.toNat ∧ b.len.toNat < 21 ∧ crc32 0 b.crcBytes = b.u32At 1

/-- The type byte of a segment is 3. -/
theorem ofByte_txSegment {x : U8} : MsgType.ofByte x = some .txSegment ↔ x = 3 := by
  constructor
  · intro h
    unfold MsgType.ofByte at h
    have h3 : x.toNat = 3 := by
      split at h <;> simp_all
    exact BitVec.eq_of_toNat_eq h3
  · intro h
    subst h
    rfl

/-- A segment whose header goes on behind the message, accepted or not. -/
def CutHeader (b : RxBuf) : Prop :=
  b.mem 0 = 3 ∧ 17 ≤ b.len.toNat ∧ b.len.toNat < 21

/-- The parser stays inside the message unless that is one. -/
theorem parseReads_inside_iff (b : RxBuf) :
    (∀ i ∈ parseReads b, i < b.len.toNat) ↔ ¬ CutHeader b := by
  unfold parseReads
  by_cases hshort : b.len.toNat < 17
  · rw [if_pos hshort]
    refine iff_of_true (fun i hi => absurd hi List.not_mem_nil) ?_
    rintro ⟨-, hlong, -⟩
    omega
  rw [if_neg hshort]
  cases hty : MsgType.ofByte (b.mem 0) with
  | none =>
    refine iff_of_true (fun i hi => ?_) ?_
    · rw [List.mem_singleton.mp hi]
      omega
    · rintro ⟨h3, -⟩
      rw [ofByte_txSegment.mpr h3] at hty
      cases hty
  | some ty =>
    dsimp only
    by_cases hseg : ty = .txSegment
    · have h3 : b.mem 0 = 3 := ofByte_txSegment.mp (hseg ▸ hty)
      constructor
      · rintro hall ⟨-, -, hcut⟩
        have hlast := hall 20 (by simp [hseg])
        omega
      · intro hcut i hi
        have hlong : 21 ≤ b.len.toNat :=
          Nat.le_of_not_lt fun hlt => hcut ⟨h3, Nat.le_of_not_lt hshort, hlt⟩
        simp only [if_pos hseg, List.mem_append, List.mem_range, List.mem_cons, List.not_mem_nil,
          or_false, List.mem_map] at hi
        omega
    · refine iff_of_true (fun i hi => ?_) fun h => hseg ?_
      · simp only [if_neg hseg, List.append_nil, List.mem_append, List.mem_range,
          List.mem_map] at hi
        omega
      · exact Option.some.inj (hty.symm.trans (ofByte_txSegment.mpr h.1))

/-- What the parser reads and reports of an accepted segment lies inside the `len`
bytes that were received. -/
def InsideBuffer (b : RxBuf) (msg : Msg) : Prop :=
  21 ≤ b.len.toNat ∧ (∀ i ∈ parseReads b, i < b.len.toNat) ∧
    msg.payloadLen.toNat = b.len.toNat - 21

/-- Twenty-one bytes are enough. -/
theorem insideBuffer_of_long {b : RxBuf} {msg : Msg} (h : Accepted b msg)
    (hseg : msg.msgType = .txSegment) (hlen : 21 ≤ b.len.toNat) : InsideBuffer b msg := by
  refine ⟨hlen, ?_, ?_⟩
  · intro i hi
    unfold parseReads at hi
    rw [if_neg (by omega), h.type, hseg] at hi
    simp only [if_true, List.mem_append, List.mem_range, List.mem_cons, List.not_mem_nil, or_false,
      List.mem_map] at hi
    rcases hi with (hi | hi) | ⟨k, hk, hki⟩
    · omega
    · omega
    · omega
  · rw [h.payloadLen hseg, BitVec.toNat_sub, BitVec.toNat_setWidth,
      show (21 : U16).toNat = 21 from rfl]
    have := b.len.isLt
    omega

/-- A segment is parsed inside its buffer exactly when it is not a short one. -/
theorem parse_segment_inside_iff (b : RxBuf) :
    (∀ msg, parseRxMsg (some b) = (.ok, msg) → msg.msgType = .txSegment → InsideBuffer b msg) ↔
      ¬ ShortSegment b := by
  constructor
  · intro hall hshort
    obtain ⟨h3, h17, h21, hcrc⟩ := hshort
    -- A short segment is accepted, and is too short to be inside.
    obtain ⟨msg, hparse, hty⟩ := parseRxMsg_accepts h17 (ofByte_txSegment.mpr h3) hcrc
    have := (hall msg hparse hty).1
    omega
  · intro hns msg hparse hseg
    have hacc := parseRxMsg_ok hparse
    have h3 : b.mem 0 = 3 := ofByte_txSegment.mp (hseg ▸ hacc.type)
    have hlen : 21 ≤ b.len.toNat := by
      rcases Nat.lt_or_ge b.len.toNat 21 with hlt | hge
      · exact absurd ⟨h3, hacc.long, hlt, hacc.crc⟩ hns
      · exact hge
    exact insideBuffer_of_long hacc hseg hlen

end HostInterface.Ftp

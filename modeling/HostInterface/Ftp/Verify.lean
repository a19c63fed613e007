import HostInterface.Ftp.Uplink

/-!
# Verification of a stored file (`ll_ftp_verify_file`)

A complete transfer is read back through the `read` callback: the four words of
the file's header first, then the range `[4, 16 + file_size)` in pieces of 16
bytes, whose chained CRC must be the header's first word.

The loop over that range counts in 32 bits. As long as its end is not behind the
last offset of the form `4 + 16 k` it walks the list `crcChunks`: `computeFileCrcLoop_eq`
turns the loop into `readChunks` over that list, which is what every later statement
about the loop uses. Against storage that answers every read
(`Storing`) the verification succeeds exactly on `GoodImage`
(`verifyFile_ends`).
-/

namespace HostInterface.Ftp

open Interact Prog

/-- One word of the header: the result of the read callback and the four bytes
of `tmp_buf` afterwards. -/
def readWord (f : LlFtp) (offset : U32) : FtpM (RetCode × U32) :=
  .call (.read f.fileId f.fileVersion offset 4) fun x =>
    .done (x.1, u32FromBytestream fun k => x.2.toList.getD k 0)

/-- `ll_ftp_verify_file_info`: the result and `*file_crc`. -/
def verifyFileInfo (f : LlFtp) : FtpM (RetCode × U32) := do
  let (cbRet, fileCrc) ← readWord f 0 -- LL_FTP_HDR_OFFSET_CRC
  if cbRet ≠ .ok then return (cbRet, 0)
  let (cbRet, fileSize) ← readWord f 4 -- LL_FTP_HDR_OFFSET_SIZE
  if cbRet ≠ .ok then return (cbRet, fileCrc)
  let (cbRet, fileId) ← readWord f 8 -- LL_FTP_HDR_OFFSET_ID
  if cbRet ≠ .ok then return (cbRet, fileCrc)
  let (cbRet, fileVersion) ← readWord f 12 -- LL_FTP_HDR_OFFSET_VERSION
  if cbRet ≠ .ok then return (cbRet, fileCrc)
  if fileSize ≠ f.fileSize ∨ fileId ≠ f.fileId ∨ fileVersion ≠ f.fileVersion then
    return (.error, fileCrc)
  return (.ok, fileCrc)

/-- The loop of `ll_ftp_compute_file_crc`, at most `fuel` turns of it. A failed read
leaves the CRC as it is. -/
def computeFileCrcLoop (f : LlFtp) : Nat → U32 → U32 → U32 → FtpM U32
  | 0, _, _, _ => .fault
  | fuel + 1, offset, len, crc =>
    if offset < 16 + f.fileSize then
      let len := if offset + len > 16 + f.fileSize then 16 + f.fileSize - offset else len
      .call (.read f.fileId f.fileVersion offset (len.setWidth 16)) fun x =>
        computeFileCrcLoop f fuel (offset + len) len
          (if x.1 = .ok then crc32 crc x.2.toList else crc)
    else .done crc

/-- `ll_ftp_compute_file_crc`. The variables of the loop have fewer than `2 ^ 32`
different values on its way, so a loop that is not over by then never ends. -/
def computeFileCrc (f : LlFtp) : FtpM (RetCode × U32) := do
  let crc ← computeFileCrcLoop f 0x100000000 4 16 0
  return (.ok, crc)

/-- `ll_ftp_verify_file`. -/
def verifyFile (f : LlFtp) : FtpM RetCode := do
  let (ret, fileCrc) ← verifyFileInfo f
  if ret = .ok then
    let (ret, crc) ← computeFileCrc f
    if ret = .ok ∧ crc = fileCrc then return .ok else return .error
  else return ret

/-! ## Verification reads, and nothing else -/

/-- A read of the object's file. -/
def IsRead (f : LlFtp) (e : Call) : Prop :=
  ∃ offset len, e = .read f.fileId f.fileVersion offset len

theorem computeFileCrcLoop_only (f : LlFtp) (fuel : Nat) (offset len crc : U32) :
    (computeFileCrcLoop f fuel offset len crc).Only (IsRead f) := by
  induction fuel generalizing offset len crc with
  | zero => trivial
  | succ fuel ih =>
    unfold computeFileCrcLoop
    split
    next => exact ⟨⟨_, _, rfl⟩, fun x => ih _ _ _⟩
    next => trivial

theorem readWord_only {f : LlFtp} {offset : U32} {G : Call → Prop}
    (h : G (.read f.fileId f.fileVersion offset 4)) : (readWord f offset).Only G :=
  ⟨h, fun _ => trivial⟩

/-- The header is read in its four words. -/
theorem verifyFileInfo_only {f : LlFtp} {G : Call → Prop}
    (h : ∀ offset ∈ [(0 : U32), 4, 8, 12], G (.read f.fileId f.fileVersion offset 4)) :
    (verifyFileInfo f).Only G := by
  unfold verifyFileInfo
  refine (readWord_only (h _ (by simp))).bind fun _ x _ => ?_
  obtain ⟨cbRet, fileCrc⟩ := x
  refine .ite (only_pure _) ?_
  refine (readWord_only (h _ (by simp))).bind fun _ x _ => ?_
  obtain ⟨cbRet, fileSize⟩ := x
  refine .ite (only_pure _) ?_
  refine (readWord_only (h _ (by simp))).bind fun _ x _ => ?_
  obtain ⟨cbRet, fileId⟩ := x
  refine .ite (only_pure _) ?_
  refine (readWord_only (h _ (by simp))).bind fun _ x _ => ?_
  exact .ite (only_pure _) (.ite (only_pure _) (only_pure _))

/-- A verification calls what its two parts call. -/
theorem verifyFile_only_of {f : LlFtp} {G : Call → Prop} (hinfo : (verifyFileInfo f).Only G)
    (hcrc : (computeFileCrc f).Only G) : (verifyFile f).Only G := by
  unfold verifyFile
  refine hinfo.bind fun _ x _ => .ite ?_ (only_pure _)
  exact hcrc.bind fun _ y _ => .ite (only_pure _) (only_pure _)

/-- Every call of a verification is a read of the file. -/
theorem verifyFile_only (f : LlFtp) : (verifyFile f).Only (IsRead f) := by
  refine verifyFile_only_of (verifyFileInfo_only fun offset _ => ⟨offset, 4, rfl⟩) ?_
  exact (computeFileCrcLoop_only f _ _ _ _).bind fun _ _ _ => only_pure _

/-! ## The loop as a list of pieces -/

/-- The pieces in which the range `[lo, hi)` is read: 16 bytes each, the last one
what is left. -/
def crcChunks (lo hi : Nat) : List (Nat × Nat) :=
  if lo < hi then (lo, min 16 (hi - lo)) :: crcChunks (lo + 16) hi else []
termination_by hi - lo

/-- Read the pieces in order and chain their CRC. -/
def readChunks (f : LlFtp) : List (Nat × Nat) → U32 → FtpM U32
  | [], crc => .done crc
  | c :: cs, crc =>
    .call (.read f.fileId f.fileVersion (BitVec.ofNat 32 c.1) (BitVec.ofNat 16 c.2)) fun x =>
      readChunks f cs (if x.1 = .ok then crc32 crc x.2.toList else crc)

theorem crcChunks_of_ge {lo hi : Nat} (h : hi ≤ lo) : crcChunks lo hi = [] := by
  unfold crcChunks
  rw [if_neg (by omega)]

theorem crcChunks_of_lt {lo hi : Nat} (h : lo < hi) :
    crcChunks lo hi = (lo, min 16 (hi - lo)) :: crcChunks (lo + 16) hi := by
  conv => lhs; unfold crcChunks
  rw [if_pos h]

/-- A piece is not empty and lies in the range. -/
theorem crcChunks_mem {lo hi : Nat} : ∀ c ∈ crcChunks lo hi,
    lo ≤ c.1 ∧ 0 < c.2 ∧ c.2 ≤ 16 ∧ c.1 + c.2 ≤ hi := by
  fun_induction crcChunks lo hi with
  | case1 lo hlt ih =>
    intro c hc
    rcases List.mem_cons.mp hc with rfl | hc
    · show lo ≤ lo ∧ 0 < min 16 (hi - lo) ∧ min 16 (hi - lo) ≤ 16 ∧ lo + min 16 (hi - lo) ≤ hi
      omega
    · obtain ⟨h₁, h₂, h₃, h₄⟩ := ih c hc
      exact ⟨by omega, h₂, h₃, h₄⟩
  | case2 lo hge =>
    intro c hc
    cases hc

/-- The last byte of the range is in some piece. -/
theorem crcChunks_last {lo hi : Nat} (h : lo < hi) :
    ∃ c ∈ crcChunks lo hi, c.1 + c.2 = hi := by
  fun_induction crcChunks lo hi with
  | case1 lo hlt ih =>
    by_cases hnext : lo + 16 < hi
    · obtain ⟨c, hc, hlast⟩ := ih hnext
      exact ⟨c, List.mem_cons_of_mem _ hc, hlast⟩
    · refine ⟨_, List.mem_cons_self .., ?_⟩
      show lo + min 16 (hi - lo) = hi
      omega
  | case2 lo hge => exact absurd h hge

theorem crcChunks_length {lo hi : Nat} : (crcChunks lo hi).length ≤ hi - lo := by
  fun_induction crcChunks lo hi with
  | case1 lo hlt ih =>
    rw [List.length_cons]
    omega
  | case2 lo hge => exact Nat.zero_le _

/-- The loop reads the pieces of `crcChunks`: nothing wraps when the range ends at
`2 ^ 32 - 12` or before. -/
theorem computeFileCrcLoop_eq {f : LlFtp} (hs : f.fileSize.toNat < 0x100000000 - 27) :
    ∀ (fuel lo : Nat) (crc : U32), (crcChunks lo (16 + f.fileSize.toNat)).length < fuel →
      lo % 16 = 4 → lo < 0x100000000 →
      computeFileCrcLoop f fuel (BitVec.ofNat 32 lo) 16 crc =
        readChunks f (crcChunks lo (16 + f.fileSize.toNat)) crc := by
  have hend : ((16 : U32) + f.fileSize).toNat = 16 + f.fileSize.toNat := by
    rw [BitVec.toNat_add, show (16 : U32).toNat = 16 from rfl]
    omega
  intro fuel
  induction fuel with
  | zero => intro lo crc hfuel _ _; omega
  | succ fuel ih =>
    intro lo crc hfuel hstep hlo
    have hlo32 : (BitVec.ofNat 32 lo).toNat = lo := by
      rw [BitVec.toNat_ofNat]
      omega
    unfold computeFileCrcLoop
    -- Both bounds of the loop are exact here, so the comparisons are those of numbers.
    by_cases hlt : lo < 16 + f.fileSize.toNat
    · have hlt32 : BitVec.ofNat 32 lo < 16 + f.fileSize := by
        rw [BitVec.lt_def, hlo32, hend]
        exact hlt
      have hsum : (BitVec.ofNat 32 lo + (16 : U32)).toNat = lo + 16 := by
        rw [BitVec.toNat_add, hlo32, show (16 : U32).toNat = 16 from rfl]
        omega
      rw [crcChunks_of_lt hlt] at hfuel ⊢
      rw [List.length_cons] at hfuel
      rw [if_pos hlt32]
      unfold readChunks
      dsimp only
      by_cases hlast : 16 + f.fileSize.toNat < lo + 16
      · -- The last piece is cut off, and the loop ends behind it.
        have hgt : BitVec.ofNat 32 lo + 16 > 16 + f.fileSize := by
          rw [gt_iff_lt, BitVec.lt_def, hsum, hend]
          exact hlast
        have hrest : (16 + f.fileSize - BitVec.ofNat 32 lo : U32) =
            BitVec.ofNat 32 (16 + f.fileSize.toNat - lo) := by
          apply BitVec.eq_of_toNat_eq
          rw [BitVec.toNat_sub, hend, hlo32, BitVec.toNat_ofNat]
          omega
        have hmin : min 16 (16 + f.fileSize.toNat - lo) = 16 + f.fileSize.toNat - lo := by omega
        have hlen : (BitVec.ofNat 32 (16 + f.fileSize.toNat - lo)).setWidth 16 =
            BitVec.ofNat 16 (min 16 (16 + f.fileSize.toNat - lo)) := by
          apply BitVec.eq_of_toNat_eq
          rw [BitVec.toNat_setWidth, BitVec.toNat_ofNat, BitVec.toNat_ofNat]
          omega
        have hnext : (BitVec.ofNat 32 lo + BitVec.ofNat 32 (16 + f.fileSize.toNat - lo) : U32) =
            16 + f.fileSize := by
          apply BitVec.eq_of_toNat_eq
          rw [BitVec.toNat_add, hlo32, BitVec.toNat_ofNat, hend]
          omega
        rw [if_pos hgt, hrest, hlen, hnext, crcChunks_of_ge (by omega)]
        refine congrArg _ (funext fun x => ?_)
        cases fuel with
        | zero => rw [crcChunks_of_ge (by omega)] at hfuel; simp at hfuel
        | succ fuel =>
          unfold computeFileCrcLoop readChunks
          rw [if_neg (BitVec.lt_irrefl _)]
      · have hle : ¬ BitVec.ofNat 32 lo + 16 > 16 + f.fileSize := by
          rw [gt_iff_lt, BitVec.lt_def, hsum, hend]
          exact hlast
        have hmin : min 16 (16 + f.fileSize.toNat - lo) = 16 := by omega
        have hnext : (BitVec.ofNat 32 lo + 16 : U32) = BitVec.ofNat 32 (lo + 16) := by
          apply BitVec.eq_of_toNat_eq
          rw [hsum, BitVec.toNat_ofNat]
          omega
        rw [if_neg hle, hmin, hnext]
        refine congrArg _ (funext fun x => ?_)
        exact ih (lo + 16) _ (by omega) (by omega) (by omega)
    · have hge32 : ¬ BitVec.ofNat 32 lo < 16 + f.fileSize := by
        rw [BitVec.lt_def, hlo32, hend]
        exact hlt
      rw [if_neg hge32, crcChunks_of_ge (by omega)]
      rfl

/-- **The file's CRC is read in the pieces of `[4, 16 + file_size)`.** -/
theorem computeFileCrc_eq {f : LlFtp} (hs : f.fileSize.toNat < 0x100000000 - 27) :
    computeFileCrc f =
      (readChunks f (crcChunks 4 (16 + f.fileSize.toNat)) 0 >>= fun crc =>
        .done (.ok, crc)) := by
  have hlen := @crcChunks_length 4 (16 + f.fileSize.toNat)
  unfold computeFileCrc
  rw [show (4 : U32) = BitVec.ofNat 32 4 from rfl,
    computeFileCrcLoop_eq hs 0x100000000 4 0 (by omega) (by omega) (by omega)]
  rfl

/-! ## Storage that answers every read -/

variable {σ : Type} {h : (e : Call) → σ → Reply e × σ}

/-- In state `s` the handler answers each read of the object's file with the bytes
`c` and keeps its state. -/
def Storing (h : (e : Call) → σ → Reply e × σ) (s : σ) (f : LlFtp) (c : Nat → U8) : Prop :=
  ∀ offset len, h (.read f.fileId f.fileVersion offset len) s =
    ((.ok, Vector.ofFn fun i => c (offset.toNat + i.val)), s)

/-- The little-endian word of stored bytes at `i`. -/
def wordAt (c : Nat → U8) (i : Nat) : U32 :=
  u32FromBytestream fun k => c (i + k)

/-- What `ll_ftp_verify_file` accepts: the header names the object's file and its
first word is the CRC of the rest. -/
structure GoodImage (f : LlFtp) (c : Nat → U8) : Prop where
  size : wordAt c 4 = f.fileSize
  id : wordAt c 8 = f.fileId
  version : wordAt c 12 = f.fileVersion
  crc : crc32 0 ((Ptr.mk c 4).bytes (12 + f.fileSize.toNat)) = wordAt c 0

/-- Two adjoining ranges. -/
theorem bytes_append (c : Nat → U8) (lo m n : Nat) :
    (Ptr.mk c lo).bytes m ++ (Ptr.mk c (lo + m)).bytes n = (Ptr.mk c lo).bytes (m + n) := by
  unfold Ptr.bytes
  rw [List.range_add, List.map_append, List.map_map]
  refine congrArg _ (List.map_congr_left fun i _ => ?_)
  show c (lo + m + i) = c (lo + (m + i))
  rw [Nat.add_assoc]

/-- The first piece of a range, and what is behind it. -/
theorem bytes_piece (c : Nat → U8) (lo hi : Nat) :
    (Ptr.mk c lo).bytes (hi - lo) =
      (Ptr.mk c lo).bytes (min 16 (hi - lo)) ++ (Ptr.mk c (lo + 16)).bytes (hi - (lo + 16)) := by
  rcases Nat.lt_or_ge (hi - lo) 16 with hshort | hlong
  · rw [show min 16 (hi - lo) = hi - lo by omega, show hi - (lo + 16) = 0 by omega]
    simp [Ptr.bytes]
  · rw [show min 16 (hi - lo) = 16 by omega, bytes_append,
      show 16 + (hi - (lo + 16)) = hi - lo by omega]

/-- A buffer filled with the stored bytes of a piece. -/
theorem toList_piece (c : Nat → U8) {lo n : Nat} (hlo : lo < 0x100000000) (hn : n < 0x10000) :
    (Vector.ofFn fun i : Fin (BitVec.ofNat 16 n).toNat =>
      c ((BitVec.ofNat 32 lo).toNat + i.val)).toList = (Ptr.mk c lo).bytes n := by
  have hlo32 : (BitVec.ofNat 32 lo).toNat = lo := by
    rw [BitVec.toNat_ofNat]
    omega
  have hn16 : (BitVec.ofNat 16 n).toNat = n := by
    rw [BitVec.toNat_ofNat]
    omega
  apply List.ext_getElem
  · rw [Vector.length_toList, Ptr.length_bytes, hn16]
  · intro i h₁ h₂
    rw [Ptr.getElem_bytes]
    simp [hlo32]

/-- The word in a buffer filled with four stored bytes. -/
theorem word_ofFn (c : Nat → U8) (i : Nat) :
    (u32FromBytestream fun k =>
      (Vector.ofFn fun j : Fin (4 : U16).toNat => c (i + j.val)).toList.getD k 0) =
        wordAt c i := by
  refine u32FromBytestream_congr fun k hk => ?_
  simp [List.getD_eq_getElem?_getD, hk]

/-- The chained CRC of the pieces is the CRC of the range. -/
theorem readChunks_ends {s : σ} {f : LlFtp} {c : Nat → U8} (hst : Storing h s f c) {lo hi : Nat}
    (hhi : hi < 0x100000000) (crc : U32) :
    Ends h (readChunks f (crcChunks lo hi) crc) s
      (crc32 crc ((Ptr.mk c lo).bytes (hi - lo))) s := by
  fun_induction crcChunks lo hi generalizing crc with
  | case1 lo hlt ih =>
    unfold readChunks
    refine .call ?_
    rw [hst]
    dsimp only
    rw [if_pos rfl, toList_piece c (by omega) (by omega), bytes_piece, crc32_append]
    exact ih _
  | case2 lo hge =>
    rw [show hi - lo = 0 by omega]
    simp only [readChunks, Ptr.bytes, List.range_zero, List.map_nil, crc32_nil]
    exact .done crc s

theorem readWord_ends {s : σ} {f : LlFtp} {c : Nat → U8} (hst : Storing h s f c) {offset : U32}
    {i : Nat} (hi : offset.toNat = i) :
    Ends h (readWord f offset) s (.ok, wordAt c i) s := by
  subst hi
  unfold readWord
  refine .call ?_
  rw [hst]
  dsimp only
  rw [word_ofFn]
  exact .done _ s

/-- The header is compared with the object. -/
theorem verifyFileInfo_ends {s : σ} {f : LlFtp} {c : Nat → U8} (hst : Storing h s f c) :
    ∃ ret, Ends h (verifyFileInfo f) s (ret, wordAt c 0) s ∧
      (ret = .ok ↔
        wordAt c 4 = f.fileSize ∧ wordAt c 8 = f.fileId ∧ wordAt c 12 = f.fileVersion) := by
  have hwords : ∀ {ret : RetCode}, Ends h (if wordAt c 4 ≠ f.fileSize ∨ wordAt c 8 ≠ f.fileId ∨
        wordAt c 12 ≠ f.fileVersion then pure (RetCode.error, wordAt c 0)
        else pure (.ok, wordAt c 0)) s (ret, wordAt c 0) s →
      Ends h (verifyFileInfo f) s (ret, wordAt c 0) s := by
    intro ret hlast
    unfold verifyFileInfo
    refine (readWord_ends hst (show (0 : U32).toNat = 0 from rfl)).bind ?_
    refine (readWord_ends hst (show (4 : U32).toNat = 4 from rfl)).bind ?_
    refine (readWord_ends hst (show (8 : U32).toNat = 8 from rfl)).bind ?_
    exact (readWord_ends hst (show (12 : U32).toNat = 12 from rfl)).bind hlast
  by_cases hgood : wordAt c 4 = f.fileSize ∧ wordAt c 8 = f.fileId ∧ wordAt c 12 = f.fileVersion
  · have hmatch : ¬ (wordAt c 4 ≠ f.fileSize ∨ wordAt c 8 ≠ f.fileId ∨
        wordAt c 12 ≠ f.fileVersion) := by
      intro hor
      rcases hor with h' | h' | h'
      · exact h' hgood.1
      · exact h' hgood.2.1
      · exact h' hgood.2.2
    refine ⟨.ok, hwords ?_, iff_of_true rfl hgood⟩
    rw [if_neg hmatch]
    exact .done _ s
  · have hdiff : wordAt c 4 ≠ f.fileSize ∨ wordAt c 8 ≠ f.fileId ∨
        wordAt c 12 ≠ f.fileVersion := by
      by_cases h₁ : wordAt c 4 = f.fileSize
      · by_cases h₂ : wordAt c 8 = f.fileId
        · exact Or.inr (Or.inr fun h₃ => hgood ⟨h₁, h₂, h₃⟩)
        · exact Or.inr (Or.inl h₂)
      · exact Or.inl h₁
    refine ⟨.error, hwords ?_, iff_of_false (by simp) hgood⟩
    rw [if_pos hdiff]
    exact .done _ s

/-- **Verification against storage that answers every read** is OK exactly on a good
image, and leaves the storage alone. -/
theorem verifyFile_ends {s : σ} {f : LlFtp} {c : Nat → U8} (hst : Storing h s f c)
    (hs : f.fileSize.toNat < 0x100000000 - 32) :
    ∃ ret, Ends h (verifyFile f) s ret s ∧ (ret = .ok ↔ GoodImage f c) := by
  obtain ⟨ret₁, h₁, hret₁⟩ := verifyFileInfo_ends hst
  by_cases hok : ret₁ = .ok
  · subst hok
    obtain ⟨hsize, hid, hversion⟩ := hret₁.mp rfl
    have h₂ := @readChunks_ends _ _ _ _ _ hst 4 (16 + f.fileSize.toNat) (by omega) 0
    rw [show 16 + f.fileSize.toNat - 4 = 12 + f.fileSize.toNat by omega] at h₂
    -- The header matches, so what is left is the comparison of the CRC.
    have hcrcs : ∀ {ret : RetCode}, Ends h (if RetCode.ok = .ok ∧
          crc32 0 ((Ptr.mk c 4).bytes (12 + f.fileSize.toNat)) = wordAt c 0 then pure RetCode.ok
          else pure .error) s ret s → Ends h (verifyFile f) s ret s := by
      intro ret hlast
      unfold verifyFile
      refine h₁.bind ?_
      dsimp only
      rw [if_pos rfl, computeFileCrc_eq (by omega), bind_assoc]
      exact h₂.bind hlast
    by_cases hcrc : crc32 0 ((Ptr.mk c 4).bytes (12 + f.fileSize.toNat)) = wordAt c 0
    · refine ⟨.ok, hcrcs ?_, iff_of_true rfl ⟨hsize, hid, hversion, hcrc⟩⟩
      rw [if_pos ⟨rfl, hcrc⟩]
      exact .done _ s
    · refine ⟨.error, hcrcs ?_, iff_of_false (by simp) fun hg => hcrc hg.crc⟩
      rw [if_neg fun hand => hcrc hand.2]
      exact .done _ s
  · refine ⟨ret₁, ?_, iff_of_false hok fun hg => hok (hret₁.mpr ⟨hg.size, hg.id, hg.version⟩)⟩
    unfold verifyFile
    refine h₁.bind ?_
    dsimp only
    rw [if_neg hok]
    exact .done _ s

end HostInterface.Ftp

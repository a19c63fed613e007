import HostInterface.Ftp.Storage

/-!
# Reading a file back

Two questions about the loop of `ll_ftp_compute_file_crc`. With storage that answers
every read, it is a single pass: the reads tile the range (`Tiles`) and their chained
CRC is the CRC of the whole (`computeFileCrc_whole`).

With reads that fail it is not. `unreliable` is storage whose `n`-th read returns
`results n`; a failed read leaves its buffer as it was. The header's reads give up at the first
failure, the loop goes on to the next piece and leaves the failed one out of the CRC.
So a verification is OK exactly when the header matches and its first word is the CRC
of what has been `delivered` (`verifyFile_ok_iff`), and `verify_closed_iff` says when
that is as good as having read the file.
-/

namespace HostInterface.Ftp

open Interact Prog

/-! ## One pass -/

/-- The pieces follow each other from `lo` to `hi`, none of them empty or longer than `max`. -/
inductive Tiles (max : Nat) : Nat → Nat → List (Nat × Nat) → Prop
  | nil (hi : Nat) : Tiles max hi hi []
  | cons {lo n hi : Nat} {ps : List (Nat × Nat)} :
      0 < n → n ≤ max → Tiles max (lo + n) hi ps → Tiles max lo hi ((lo, n) :: ps)

/-- The pieces of the loop. -/
theorem crcChunks_tiles {lo hi : Nat} (h : lo ≤ hi) : Tiles 16 lo hi (crcChunks lo hi) := by
  fun_induction crcChunks lo hi with
  | case1 lo hlt ih =>
    refine .cons (by omega) (Nat.min_le_left _ _) ?_
    rcases Nat.lt_or_ge (hi - lo) 16 with hshort | hlong
    · -- The last piece ends the range.
      rw [crcChunks_of_ge (by omega), show lo + min 16 (hi - lo) = hi by omega]
      exact .nil hi
    · rw [show lo + min 16 (hi - lo) = lo + 16 by omega]
      exact ih (by omega)
  | case2 lo hge =>
    obtain rfl : lo = hi := by omega
    exact .nil lo

/-- The read of one piece. -/
def readCall (f : LlFtp) (piece : Nat × Nat) : Call :=
  .read f.fileId f.fileVersion (BitVec.ofNat 32 piece.1) (BitVec.ofNat 16 piece.2)

/-- Whatever the replies, the pieces are read in order, each once. -/
theorem readChunks_calls {f : LlFtp} {ps : List (Nat × Nat)} {crc crc' : U32} {tr : List Ev}
    (h : Runs (readChunks f ps crc) tr crc') : tr.map (fun ev => ev.1) = ps.map (readCall f) := by
  induction ps generalizing crc tr with
  | nil =>
    rw [readChunks, runs_done] at h
    rw [h.1]
    rfl
  | cons p ps ih =>
    rw [readChunks, runs_call] at h
    obtain ⟨r, tr', rfl, h⟩ := h
    exact congrArg (readCall f p :: ·) (ih h)

/-- **The chunked CRC is the CRC of the whole file.** Where every read is answered, the
reads tile the range `[4, 16 + file_size)` in pieces of at most 16 bytes, in order, and
the result is `crc32` of those bytes in one call; the checksum can be chained over any
split of a buffer. -/
theorem computeFileCrc_whole {σ : Type} {h : (e : Call) → σ → Reply e × σ} {s : σ} {f : LlFtp}
    {c : Nat → U8} (hst : Storing h s f c) (hs : f.fileSize.toNat < 0x100000000 - 32) :
    (∃ tr pieces, exec h (computeFileCrc f) s =
        some (tr, (.ok, crc32 0 ((Ptr.mk c 4).bytes (12 + f.fileSize.toNat))), s) ∧
      tr.map (fun ev => ev.1) = pieces.map (readCall f) ∧
      Tiles 16 4 (16 + f.fileSize.toNat) pieces) ∧
    ∀ (crc : U32) (a b : List U8), crc32 (crc32 crc a) b = crc32 crc (a ++ b) := by
  refine ⟨?_, fun crc a b => (crc32_append crc a b).symm⟩
  obtain ⟨tr, htr⟩ := @readChunks_ends _ _ _ _ _ hst 4 (16 + f.fileSize.toNat) (by omega) 0
  rw [show 16 + f.fileSize.toNat - 4 = 12 + f.fileSize.toNat by omega] at htr
  refine ⟨tr, _, ?_, readChunks_calls (exec_runs htr), crcChunks_tiles (by omega)⟩
  rw [computeFileCrc_eq (by omega), exec_bind_some htr]
  simp

/-- The smallest file, which is 13 bytes behind its CRC. -/
def LlFtp.smallest : LlFtp :=
  { LlFtp.blank with fileId := 7, fileVersion := 1, fileSize := 1 }

/-- It is read in one piece. -/
theorem computeFileCrc_whole_smallest :
    (∃ tr pieces, exec (storage .willing) (computeFileCrc .smallest) World.empty =
        some (tr, (.ok, crc32 0 ((Ptr.mk (World.empty.data 7 1) 4).bytes
          (12 + LlFtp.smallest.fileSize.toNat))), World.empty) ∧
      tr.map (fun ev => ev.1) = pieces.map (readCall .smallest) ∧
      Tiles 16 4 (16 + LlFtp.smallest.fileSize.toNat) pieces) ∧
    ∀ (crc : U32) (a b : List U8), crc32 (crc32 crc a) b = crc32 crc (a ++ b) :=
  computeFileCrc_whole (storage_storing (fun _ _ _ _ => rfl) World.empty .smallest) (by decide)

/-! ## Reads that fail -/

/-- Storage of one file whose `n`-th read returns `results n`; `stale` is what is in the
buffer of a read that fails. -/
def unreliable (results : Nat → RetCode) (stale : Nat → (len : U16) → Vector U8 len.toNat)
    (c : Nat → U8) : (e : Call) → Nat → Reply e × Nat
  | .read _ _ offset len, n =>
    ((results n,
      if results n = .ok then Vector.ofFn fun i => c (offset.toNat + i.val) else stale n len),
      n + 1)
  | .open _ _ _, n => (RetCode.ok, n)
  | .write _ _ _ _ _, n => (RetCode.ok, n)
  | .close _ _, n => (RetCode.ok, n)
  | .apply _ _ _, n => (RetCode.ok, n)
  | .uplink _ _ _ _, n => (RetCode.ok, n)
  | .config _, n => (RetCode.ok, n)
  | .gettime, n => ((⟨0, 0⟩ : Time), n)

/-- The bytes of the pieces whose read succeeds, from the `n`-th read on. -/
def delivered (results : Nat → RetCode) (c : Nat → U8) : Nat → List (Nat × Nat) → List U8
  | _, [] => []
  | n, p :: ps =>
    (if results n = .ok then (Ptr.mk c p.1).bytes p.2 else []) ++ delivered results c (n + 1) ps

variable {results : Nat → RetCode} {stale : Nat → (len : U16) → Vector U8 len.toNat}
  {c : Nat → U8} {f : LlFtp}

/-- The loop computes the CRC of what is delivered. -/
theorem readChunks_unreliable {ps : List (Nat × Nat)}
    (hps : ∀ p ∈ ps, p.1 < 0x100000000 ∧ p.2 < 0x10000) (n : Nat) (crc : U32) :
    Ends (unreliable results stale c) (readChunks f ps crc) n
      (crc32 crc (delivered results c n ps)) (n + ps.length) := by
  induction ps generalizing n crc with
  | nil =>
    unfold readChunks delivered
    rw [crc32_nil]
    exact .done crc n
  | cons p ps ih =>
    obtain ⟨hlo, hlen⟩ := hps p (List.mem_cons_self ..)
    have hrest := fun crc => ih (fun q hq => hps q (List.mem_cons_of_mem _ hq)) (n + 1) crc
    unfold readChunks delivered
    rw [List.length_cons, ← Nat.add_assoc, Nat.add_right_comm, crc32_append]
    refine .call ?_
    unfold unreliable
    dsimp only
    by_cases hok : results n = .ok
    · rw [if_pos hok, if_pos hok, if_pos hok, toList_piece c hlo hlen]
      exact hrest _
    · rw [if_neg hok, if_neg hok, crc32_nil]
      exact hrest _

/-- Where every read succeeds, the whole range is delivered. -/
theorem delivered_all {lo hi n : Nat}
    (hall : ∀ i, i < (crcChunks lo hi).length → results (n + i) = .ok) :
    delivered results c n (crcChunks lo hi) = (Ptr.mk c lo).bytes (hi - lo) := by
  fun_induction crcChunks lo hi generalizing n with
  | case1 lo hlt ih =>
    rw [List.length_cons] at hall
    have hfirst : results n = .ok := hall 0 (Nat.zero_lt_succ _)
    unfold delivered
    rw [if_pos hfirst, bytes_piece]
    refine congrArg _ (ih fun i hi => ?_)
    have := hall (i + 1) (Nat.succ_lt_succ hi)
    rwa [← Nat.add_assoc, Nat.add_right_comm] at this
  | case2 lo hge =>
    rw [show hi - lo = 0 by omega]
    rfl

/-- One word of the header, where its read succeeds. -/
theorem readWord_unreliable {n i : Nat} {offset : U32} (hi : offset.toNat = i)
    (hok : results n = .ok) :
    Ends (unreliable results stale c) (readWord f offset) n (.ok, wordAt c i) (n + 1) := by
  subst hi
  unfold readWord
  refine .call ?_
  unfold unreliable
  dsimp only
  rw [if_pos hok, word_ofFn, hok]
  exact .done _ _

/-- What the header's reads have to do and to say. -/
structure HeaderRead (results : Nat → RetCode) (c : Nat → U8) (f : LlFtp) : Prop where
  reads : ∀ i, i < 4 → results i = .ok
  size : wordAt c 4 = f.fileSize
  id : wordAt c 8 = f.fileId
  version : wordAt c 12 = f.fileVersion

/-- One word of the header: the result of its read, and the stored word where that is OK. -/
theorem readWord_wlp (f : LlFtp) (offset : U32) (n : Nat) :
    Wlp (unreliable results stale c) (readWord f offset) n fun r n' =>
      n' = n + 1 ∧ r.1 = results n ∧ (results n = .ok → r.2 = wordAt c offset.toNat) := by
  refine .call (.done ⟨rfl, rfl, fun hok => ?_⟩)
  unfold unreliable
  dsimp only
  rw [if_pos hok, word_ofFn]

/-- The header's reads stop at the first that fails, so an OK says that all have been made. -/
theorem verifyFileInfo_wlp (f : LlFtp) :
    Wlp (unreliable results stale c) (verifyFileInfo f) 0 fun r n =>
      r.1 = .ok → HeaderRead results c f ∧ r.2 = wordAt c 0 ∧ n = 4 := by
  unfold verifyFileInfo
  refine .bind ((readWord_wlp f 0 0).mono fun x n h₀ => ?_)
  obtain ⟨ret₀, crc⟩ := x
  obtain ⟨rfl, hr₀, hcrc⟩ := h₀
  dsimp only
  split
  next hne => exact .done fun hok => absurd hok hne
  next hok₀ =>
    refine .bind ((readWord_wlp f 4 1).mono fun x n h₁ => ?_)
    obtain ⟨ret₁, size⟩ := x
    obtain ⟨rfl, hr₁, hsize⟩ := h₁
    dsimp only
    split
    next hne => exact .done fun hok => absurd hok hne
    next hok₁ =>
      refine .bind ((readWord_wlp f 8 2).mono fun x n h₂ => ?_)
      obtain ⟨ret₂, id⟩ := x
      obtain ⟨rfl, hr₂, hid⟩ := h₂
      dsimp only
      split
      next hne => exact .done fun hok => absurd hok hne
      next hok₂ =>
        refine .bind ((readWord_wlp f 12 3).mono fun x n h₃ => ?_)
        obtain ⟨ret₃, version⟩ := x
        obtain ⟨rfl, hr₃, hversion⟩ := h₃
        dsimp only
        split
        next hne => exact .done fun hok => absurd hok hne
        next hok₃ =>
          have hok₀ := hr₀.symm.trans (Decidable.not_not.mp hok₀)
          have hok₁ := hr₁.symm.trans (Decidable.not_not.mp hok₁)
          have hok₂ := hr₂.symm.trans (Decidable.not_not.mp hok₂)
          have hok₃ := hr₃.symm.trans (Decidable.not_not.mp hok₃)
          have hsize : size = wordAt c 4 := hsize hok₁
          have hid : id = wordAt c 8 := hid hok₂
          have hversion : version = wordAt c 12 := hversion hok₃
          split
          next => exact .done fun hok => absurd (show RetCode.error = .ok from hok) (by decide)
          next hsame =>
            rw [hsize, hid, hversion, not_or, not_or, Decidable.not_not,
              Decidable.not_not, Decidable.not_not] at hsame
            obtain ⟨hsize, hid, hversion⟩ := hsame
            refine .done fun _ => ⟨⟨fun i hi => ?_, hsize, hid, hversion⟩, hcrc hok₀, rfl⟩
            match i, hi with
            | 0, _ => exact hok₀
            | 1, _ => exact hok₁
            | 2, _ => exact hok₂
            | 3, _ => exact hok₃

/-- And where all succeed and the header names the object's file, it is OK. -/
theorem verifyFileInfo_unreliable (h : HeaderRead results c f) :
    Ends (unreliable results stale c) (verifyFileInfo f) 0 (.ok, wordAt c 0) 4 := by
  unfold verifyFileInfo
  refine (readWord_unreliable rfl (h.reads 0 (by decide))).bind ?_
  refine (readWord_unreliable rfl (h.reads 1 (by decide))).bind ?_
  refine (readWord_unreliable rfl (h.reads 2 (by decide))).bind ?_
  refine (readWord_unreliable rfl (h.reads 3 (by decide))).bind ?_
  have hsame : ¬ (wordAt c (4 : U32).toNat ≠ f.fileSize ∨ wordAt c (8 : U32).toNat ≠ f.fileId ∨
      wordAt c (12 : U32).toNat ≠ f.fileVersion) := by
    rw [not_or, not_or, Decidable.not_not, Decidable.not_not, Decidable.not_not]
    exact ⟨h.size, h.id, h.version⟩
  dsimp only
  rw [if_neg hsame]
  exact .done _ _

/-- The pieces of the file, as the loop asks for them. -/
def filePieces (f : LlFtp) : List (Nat × Nat) :=
  crcChunks 4 (16 + f.fileSize.toNat)

/-- The loop behind the four reads of the header. -/
theorem computeFileCrc_unreliable (hs : f.fileSize.toNat < 0x100000000 - 32) :
    Ends (unreliable results stale c) (computeFileCrc f) 4
      (.ok, crc32 0 (delivered results c 4 (filePieces f))) (4 + (filePieces f).length) := by
  rw [computeFileCrc_eq (by omega)]
  refine (readChunks_unreliable (fun p hp => ?_) 4 0).bind (.done _ _)
  have := crcChunks_mem p hp
  omega

/-- **What a verification accepts** from storage whose reads may fail: a header it has
read in full and that names the file, with the CRC of the pieces it has been given. -/
theorem verifyFile_ok_iff (hs : f.fileSize.toNat < 0x100000000 - 32) {n : Nat} :
    Ends (unreliable results stale c) (verifyFile f) 0 .ok n ↔
      HeaderRead results c f ∧
      crc32 0 (delivered results c 4 (filePieces f)) = wordAt c 0 ∧
      n = 4 + (filePieces f).length := by
  have hcrc := @computeFileCrc_unreliable results stale c f hs
  constructor
  · intro h
    refine (?_ : Wlp _ (verifyFile f) 0 fun ret n => ret = RetCode.ok →
      HeaderRead results c f ∧ crc32 0 (delivered results c 4 (filePieces f)) = wordAt c 0 ∧
        n = 4 + (filePieces f).length) _ _ h rfl
    unfold verifyFile
    refine .bind ((verifyFileInfo_wlp f).mono fun r m hinfo => ?_)
    dsimp only
    split
    next hok =>
      obtain ⟨hheader, hword, rfl⟩ := hinfo hok
      refine .bind fun x k hx => ?_
      obtain ⟨rfl, rfl⟩ := hx.unique hcrc
      dsimp only
      split
      next hmatch => exact .done fun _ => ⟨hheader, hmatch.2.trans hword, rfl⟩
      next => exact .done fun hbad => absurd hbad (by decide)
    next hne => exact .done fun hok => absurd hok hne
  · rintro ⟨hheader, hmatch, rfl⟩
    unfold verifyFile
    refine (verifyFileInfo_unreliable hheader).bind ?_
    dsimp only
    rw [if_pos rfl]
    refine hcrc.bind ?_
    dsimp only
    rw [if_pos ⟨rfl, hmatch⟩]
    exact .done _ _

/-- A verification fails closed: it is OK only if every read it made was, and the file
they read is a good image. -/
def FailsClosed (results : Nat → RetCode) (stale : Nat → (len : U16) → Vector U8 len.toNat)
    (c : Nat → U8) (f : LlFtp) : Prop :=
  ∀ ret n, Ends (unreliable results stale c) (verifyFile f) 0 ret n → ret = .ok →
    (∀ i, i < n → results i = .ok) ∧ GoodImage f c

/-- Some piece of the file cannot be read, and the header, which can, names the file and
carries the CRC of the other pieces. -/
structure Overlooked (results : Nat → RetCode) (c : Nat → U8) (f : LlFtp) : Prop where
  header : HeaderRead results c f
  failed : ∃ i, i < (filePieces f).length ∧ results (4 + i) ≠ .ok
  crc : crc32 0 (delivered results c 4 (filePieces f)) = wordAt c 0

/-- **Verification fails closed** exactly unless a failed read of the file is overlooked. -/
theorem verify_closed_iff (hs : f.fileSize.toNat < 0x100000000 - 32) :
    FailsClosed results stale c f ↔ ¬ Overlooked results c f := by
  constructor
  · rintro hclosed ⟨hheader, ⟨i, hi, hfail⟩, hmatch⟩
    have hends := (@verifyFile_ok_iff results stale c f hs _).mpr ⟨hheader, hmatch, rfl⟩
    exact hfail ((hclosed _ _ hends rfl).1 (4 + i) (by omega))
  · rintro hno ret n hends rfl
    obtain ⟨hheader, hmatch, rfl⟩ := (verifyFile_ok_iff hs).mp hends
    have hall : ∀ i, i < (filePieces f).length → results (4 + i) = .ok := by
      intro i hi
      by_cases hok : results (4 + i) = .ok
      · exact hok
      · exact absurd ⟨hheader, ⟨i, hi, hok⟩, hmatch⟩ hno
    refine ⟨fun i hi => ?_, hheader.size, hheader.id, hheader.version, ?_⟩
    · rcases Nat.lt_or_ge i 4 with hlt | hge
      · exact hheader.reads i hlt
      · have := hall (i - 4) (by omega)
        rwa [Nat.add_sub_cancel' hge] at this
    · rw [← hmatch, filePieces, delivered_all hall,
        show 16 + f.fileSize.toNat - 4 = 12 + f.fileSize.toNat by omega]

/-- The header of the smallest file with the CRC of no bytes at all. -/
def emptyCrcImage (i : Nat) : U8 :=
  (le32 0 ++ le32 1 ++ le32 7 ++ le32 1).getD i 0

/-- The fifth read fails, the only one of the file itself. -/
def fifthFails (n : Nat) : RetCode :=
  if n = 4 then .error else .ok

/-- Nothing but the header is read, and the file is verified. -/
theorem unread_file_verified :
    ¬ FailsClosed fifthFails (fun _ _ => Vector.replicate _ 0) emptyCrcImage .smallest := by
  intro h
  have hsize : LlFtp.smallest.fileSize.toNat < 0x100000000 - 32 := by decide
  have hheader : HeaderRead fifthFails emptyCrcImage .smallest :=
    ⟨by decide, by decide, by decide, by decide⟩
  have hpieces : filePieces .smallest = [(4, 13)] := by
    unfold filePieces
    rw [crcChunks_of_lt (by decide), crcChunks_of_ge (by decide)]
    rfl
  have hcrc : crc32 0 (delivered fifthFails emptyCrcImage 4 (filePieces .smallest)) =
      wordAt emptyCrcImage 0 := by
    rw [hpieces]
    decide
  have hfour := (h _ _ ((verifyFile_ok_iff hsize).mpr ⟨hheader, hcrc, rfl⟩) rfl).1 4
    (by rw [hpieces]; decide)
  exact absurd hfour (by decide)

/-- With all reads answered nothing can be overlooked. -/
theorem verify_closed_smallest :
    FailsClosed (fun _ => .ok) (fun _ _ => Vector.replicate _ 0) emptyCrcImage .smallest ↔
      ¬ Overlooked (fun _ => .ok) emptyCrcImage .smallest :=
  verify_closed_iff (by decide)

end HostInterface.Ftp

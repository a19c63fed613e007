import HostInterface.Ftp.Storage

/-!
# The CRC loop near `2 ^ 32` (`ll_ftp_compute_file_crc`)

Nothing checks the file size that a `TX_INIT` announces, and the loop over the stored
file adds it to 16, and 16 to the offset, in 32 bits. The offsets are 4, 20, 36 and
so on, up to `2 ^ 32 - 12`; behind that comes 4 again. As long as the end of the file
is not behind the last of them, no sum wraps, and the loop reads the file once. If it is, the
loop goes round for ever; and from `2 ^ 32 - 16` on the end itself wraps
(`crcLoop_sound_iff`).
-/

namespace HostInterface.Ftp

open Interact Prog

/-- The length of the piece at `offset`: cut, where it would pass the end. -/
def crcLen (f : LlFtp) (offset len : U32) : U32 :=
  if offset + len > 16 + f.fileSize then 16 + f.fileSize - offset else len

/-- The values of `offset` and `len` with which the loop comes to its test. They do not
depend on what is read. -/
inductive CrcTurn (f : LlFtp) : U32 → U32 → Prop where
  | start : CrcTurn f 4 16
  | next {offset len : U32} : CrcTurn f offset len → offset < 16 + f.fileSize →
      CrcTurn f (offset + crcLen f offset len) (crcLen f offset len)

/-- What is expected of the loop: it ends, whatever the callback does; it reads inside the file,
behind the CRC; and none of its three sums wraps. -/
structure CrcLoopSound (f : LlFtp) : Prop where
  ends : ∀ {σ : Type} (h : (e : Call) → σ → Reply e × σ) (s : σ),
    ∃ fuel crc s', Ends h (computeFileCrcLoop f fuel 4 16 0) s crc s'
  reads : ∀ fuel, (computeFileCrcLoop f fuel 4 16 0).Only fun e =>
    ∃ offset len, e = .read f.fileId f.fileVersion offset len ∧ 4 ≤ offset.toNat ∧
      offset.toNat + len.toNat ≤ 16 + f.fileSize.toNat
  size : 16 + f.fileSize.toNat < 0x100000000
  sums : ∀ {offset len}, CrcTurn f offset len → offset < 16 + f.fileSize →
    offset.toNat + len.toNat < 0x100000000 ∧
      offset.toNat + (crcLen f offset len).toNat < 0x100000000

/-- The loop reads a piece in every turn. -/
theorem computeFileCrcLoop_turns (f : LlFtp) (fuel : Nat) {offset len : U32}
    (h : CrcTurn f offset len) (crc : U32) :
    (computeFileCrcLoop f fuel offset len crc).Only fun e =>
      ∃ offset len, CrcTurn f offset len ∧ offset < 16 + f.fileSize ∧
        e = .read f.fileId f.fileVersion offset ((crcLen f offset len).setWidth 16) := by
  induction fuel generalizing offset len crc with
  | zero => trivial
  | succ fuel ih =>
    unfold computeFileCrcLoop
    split
    next hlt => exact ⟨⟨_, _, h, hlt, rfl⟩, fun x => ih (h.next hlt) _⟩
    next => trivial

section Small

variable {f : LlFtp}

/-- One piece of a file that ends at `2 ^ 32 - 12` or before. -/
theorem crcLen_small (hs : f.fileSize.toNat < 0x100000000 - 27) {offset : U32}
    (hstep : offset.toNat % 16 = 4) (hlt : offset.toNat < 16 + f.fileSize.toNat) :
    (crcLen f offset 16).toNat = min 16 (16 + f.fileSize.toNat - offset.toNat) := by
  have hend : ((16 : U32) + f.fileSize).toNat = 16 + f.fileSize.toNat := by
    rw [BitVec.toNat_add, show (16 : U32).toNat = 16 from rfl]
    omega
  have hsum : (offset + (16 : U32)).toNat = offset.toNat + 16 := by
    rw [BitVec.toNat_add, show (16 : U32).toNat = 16 from rfl]
    omega
  unfold crcLen
  split
  next hgt =>
    rw [gt_iff_lt, BitVec.lt_def, hsum, hend] at hgt
    rw [BitVec.toNat_sub, hend]
    omega
  next hle =>
    rw [gt_iff_lt, BitVec.lt_def, hsum, hend] at hle
    rw [show (16 : U32).toNat = 16 from rfl]
    omega

/-- The offsets are 4, 20, 36 and so on, up to the end. -/
theorem CrcTurn.small (hs : f.fileSize.toNat < 0x100000000 - 27) {offset len : U32}
    (h : CrcTurn f offset len) :
    4 ≤ offset.toNat ∧
      (offset.toNat < 16 + f.fileSize.toNat → offset.toNat % 16 = 4 ∧ len = 16) := by
  induction h with
  | start => exact ⟨Nat.le_refl 4, fun _ => ⟨rfl, rfl⟩⟩
  | @next offset len h hlt ih =>
    have hend : ((16 : U32) + f.fileSize).toNat = 16 + f.fileSize.toNat := by
      rw [BitVec.toNat_add, show (16 : U32).toNat = 16 from rfl]
      omega
    rw [BitVec.lt_def, hend] at hlt
    obtain ⟨hlow, hinv⟩ := ih
    obtain ⟨hstep, rfl⟩ := hinv hlt
    have hlen := crcLen_small hs hstep hlt
    have hnext : (offset + crcLen f offset 16).toNat =
        offset.toNat + min 16 (16 + f.fileSize.toNat - offset.toNat) := by
      rw [BitVec.toNat_add, hlen]
      omega
    rw [hnext]
    refine ⟨by omega, fun hmore => ⟨by omega, BitVec.eq_of_toNat_eq ?_⟩⟩
    rw [hlen, show (16 : U32).toNat = 16 from rfl]
    omega

/-- Every read answers, so the pieces are read to their end. -/
theorem readChunks_done {σ : Type} (h : (e : Call) → σ → Reply e × σ) (cs : List (Nat × Nat))
    (crc : U32) (s : σ) : ∃ crc' s', Ends h (readChunks f cs crc) s crc' s' := by
  induction cs generalizing crc s with
  | nil => exact ⟨crc, s, .done _ _⟩
  | cons c cs ih =>
    obtain ⟨crc', s', hends⟩ := ih _ _
    exact ⟨crc', s', .call hends⟩

theorem crcLoop_sound (hs : f.fileSize.toNat < 0x100000000 - 27) : CrcLoopSound f := by
  have hend : ((16 : U32) + f.fileSize).toNat = 16 + f.fileSize.toNat := by
    rw [BitVec.toNat_add, show (16 : U32).toNat = 16 from rfl]
    omega
  -- What a turn reads.
  have hturn : ∀ {offset len : U32}, CrcTurn f offset len → offset < 16 + f.fileSize →
      4 ≤ offset.toNat ∧ offset.toNat + 16 < 0x100000000 ∧ len = 16 ∧
        (crcLen f offset len).toNat = min 16 (16 + f.fileSize.toNat - offset.toNat) := by
    intro offset len h hlt
    rw [BitVec.lt_def, hend] at hlt
    obtain ⟨hlow, hinv⟩ := h.small hs
    obtain ⟨hstep, rfl⟩ := hinv hlt
    exact ⟨hlow, by omega, rfl, crcLen_small hs hstep hlt⟩
  constructor
  · intro σ h s
    obtain ⟨crc, s', hends⟩ := @readChunks_done f σ h (crcChunks 4 (16 + f.fileSize.toNat)) 0 s
    refine ⟨(crcChunks 4 (16 + f.fileSize.toNat)).length + 1, crc, s', ?_⟩
    rw [show (4 : U32) = BitVec.ofNat 32 4 from rfl, computeFileCrcLoop_eq hs _ 4 0
      (Nat.lt_succ_self _) (by decide) (by decide)]
    exact hends
  · intro fuel
    refine (computeFileCrcLoop_turns f fuel .start 0).mono ?_
    rintro e ⟨offset, len, h, hlt, rfl⟩
    obtain ⟨hlow, -, -, hlen⟩ := hturn h hlt
    rw [BitVec.lt_def, hend] at hlt
    refine ⟨_, _, rfl, hlow, ?_⟩
    rw [BitVec.toNat_setWidth, hlen]
    omega
  · omega
  · intro offset len h hlt
    obtain ⟨-, hsum, rfl, hlen⟩ := hturn h hlt
    rw [hlen, show (16 : U32).toNat = 16 from rfl]
    exact ⟨hsum, by omega⟩

/-- Where the end is behind `2 ^ 32 - 12`, and does not wrap itself, the loop never ends. -/
theorem crcLoop_endless (hs : 0x100000000 - 27 ≤ f.fileSize.toNat)
    (hend : 16 + f.fileSize.toNat < 0x100000000) {σ : Type} {h : (e : Call) → σ → Reply e × σ}
    (fuel : Nat) {offset : U32} (hstep : offset.toNat % 16 = 4) (crc crc' : U32) (s s' : σ) :
    ¬ Ends h (computeFileCrcLoop f fuel offset 16 crc) s crc' s' := by
  have hend : ((16 : U32) + f.fileSize).toNat = 16 + f.fileSize.toNat := by
    rw [BitVec.toNat_add, show (16 : U32).toNat = 16 from rfl]
    omega
  induction fuel generalizing offset crc s with
  | zero =>
    rintro ⟨tr, hx⟩
    cases hx
  | succ fuel ih =>
    have hoff := offset.isLt
    -- The next offset is 16 further, or 4 again, and neither is behind the end.
    have hnext : (offset + (16 : U32)).toNat % 16 = 4 ∧
        (offset + (16 : U32)).toNat ≤ 0x100000000 - 12 := by
      rw [BitVec.toNat_add, show (16 : U32).toNat = 16 from rfl]
      omega
    have hlt : offset < 16 + f.fileSize := by
      rw [BitVec.lt_def, hend]
      omega
    have hle : ¬ offset + 16 > 16 + f.fileSize := by
      rw [gt_iff_lt, BitVec.lt_def, hend]
      omega
    unfold computeFileCrcLoop
    rw [if_pos hlt, if_neg hle, ends_call]
    exact ih hnext.1 _ _

end Small

/-- **The CRC loop is sound exactly for the sizes up to `2 ^ 32 - 28`.** -/
theorem crcLoop_sound_iff (f : LlFtp) :
    CrcLoopSound f ↔ f.fileSize.toNat ≤ 0x100000000 - 28 := by
  constructor
  · intro h
    have hend := h.size
    obtain ⟨fuel, crc, s', hends⟩ := h.ends (storage .willing) World.empty
    have hnot : ¬ 0x100000000 - 27 ≤ f.fileSize.toNat := fun hbig =>
      crcLoop_endless hbig hend fuel (show (4 : U32).toNat % 16 = 4 from rfl) 0 crc _ s' hends
    omega
  · intro hsmall
    exact crcLoop_sound (by omega)

/-- An announced size for which the loop goes round for ever. -/
theorem crcLoop_announced :
    (¬ ∃ fuel crc s', Ends (storage .willing)
      (computeFileCrcLoop { LlFtp.blank with fileSize := 0xFFFFFFE5 } fuel 4 16 0) World.empty crc
      s') ∧
    ¬ CrcLoopSound { LlFtp.blank with fileSize := 0xFFFFFFE5 } := by
  have hloop : ¬ ∃ fuel crc s', Ends (storage .willing)
      (computeFileCrcLoop { LlFtp.blank with fileSize := 0xFFFFFFE5 } fuel 4 16 0) World.empty crc
      s' := by
    rintro ⟨fuel, crc, s', hends⟩
    exact crcLoop_endless (by decide) (by decide) fuel
      (show (4 : U32).toNat % 16 = 4 from rfl) 0 crc _ s' hends
  exact ⟨hloop, fun h => hloop (h.ends _ _)⟩

end HostInterface.Ftp

import HostInterface.Ftp.Invariants

/-!
# What verification reads

`ll_ftp_new_file_initialize` counts the segments of `file_size` bytes;
`ll_ftp_verify_file` reads `LL_FTP_HDR_LEN + file_size` of them. The 16 bytes of
the header fit behind the file's last byte in its last segment only where that
segment is short enough, and `reads_received_iff` says where: the last segment
holds at most 91 bytes. Everywhere else a complete transfer is verified over
bytes no segment has delivered.
-/

namespace HostInterface.Ftp

open Interact Prog

/-- A read stays in the slots of the segments the bitmap counts. -/
def ReadsReceived (f : LlFtp) (e : Call) : Prop :=
  ∀ id version offset len, e = .read id version offset len →
    ∀ i, i < len.toNat →
      ∃ k, k < f.numSegs.toNat ∧ 107 * k ≤ offset.toNat + i ∧ offset.toNat + i < 107 * k + 107

/-- The range of a read is in the slots when its end is. -/
theorem readsReceived_read {f : LlFtp} {id version offset : U32} {len : U16} :
    ReadsReceived f (.read id version offset len) ↔
      (0 < len.toNat → offset.toNat + len.toNat ≤ 107 * f.numSegs.toNat) := by
  constructor
  · intro h hpos
    obtain ⟨k, hk, -, hlt⟩ := h _ _ _ _ rfl (len.toNat - 1) (by omega)
    omega
  · intro h id' version' offset' len' heq i hi
    simp only [Call.read.injEq] at heq
    obtain ⟨-, -, rfl, rfl⟩ := heq
    have hend := h (by omega)
    exact ⟨(offset.toNat + i) / 107, by omega, by omega, by omega⟩

/-! ## The reads of a verification -/

/-- The pieces are what the loop asks for. -/
theorem readChunks_only_iff {f : LlFtp} {G : Call → Prop} (cs : List (Nat × Nat)) (crc : U32) :
    (readChunks f cs crc).Only G ↔
      ∀ c ∈ cs, G (.read f.fileId f.fileVersion (BitVec.ofNat 32 c.1) (BitVec.ofNat 16 c.2)) := by
  induction cs generalizing crc with
  | nil => simp [readChunks]
  | cons c cs ih =>
    unfold readChunks
    rw [only_call]
    simp only [ih, List.mem_cons, forall_eq_or_imp]
    constructor
    · intro h
      exact ⟨h.1, h.2 (.ok, Vector.replicate _ 0)⟩
    · intro h
      exact ⟨h.1, fun _ => h.2⟩

/-- The header that names the object's file. -/
def matchingHeader (f : LlFtp) : Nat → U8 :=
  fun i => (le32 0 ++ (le32 f.fileSize ++ (le32 f.fileId ++ le32 f.fileVersion))).getD i 0

/-- Some answers to its reads make `ll_ftp_verify_file_info` go on. -/
theorem verifyFileInfo_passes (f : LlFtp) : ∃ tr crc, Runs (verifyFileInfo f) tr (.ok, crc) := by
  have hst : Storing (storage .willing) ⟨fun _ _ => matchingHeader f, 0⟩ f (matchingHeader f) :=
    storage_storing (fun _ _ _ _ => rfl) _ f
  obtain ⟨ret, hends, hret⟩ := verifyFileInfo_ends hst
  have hok : ret = .ok := by
    refine hret.mpr ⟨?_, ?_, ?_⟩
    · exact u32FromBytestream_le32 f.fileSize (le32 f.fileId ++ le32 f.fileVersion)
    · exact u32FromBytestream_le32 f.fileId (le32 f.fileVersion)
    · exact u32FromBytestream_le32 f.fileVersion []
  subst hok
  obtain ⟨tr, hr⟩ := hends.runs
  exact ⟨tr, _, hr⟩

/-- A verification stays in the slots exactly when the slots hold the header too. -/
theorem verify_only_iff {f : LlFtp} (hs : f.fileSize.toNat < 0x100000000 - 32) :
    (verifyFile f).Only (ReadsReceived f) ↔ 16 + f.fileSize.toNat ≤ 107 * f.numSegs.toNat := by
  constructor
  · intro h
    obtain ⟨tr, crc, hinfo⟩ := verifyFileInfo_passes f
    have hcrc : (computeFileCrc f).Only (ReadsReceived f) := by
      unfold verifyFile at h
      have hrest := h.of_bind hinfo
      dsimp only at hrest
      rw [if_pos rfl] at hrest
      exact hrest.of_bind_left
    rw [computeFileCrc_eq (by omega)] at hcrc
    -- The piece that ends the range decides: it is read in the runs that pass the header.
    obtain ⟨c, hc, hlast⟩ := @crcChunks_last 4 (16 + f.fileSize.toNat) (by omega)
    obtain ⟨-, hpos, hle, -⟩ := crcChunks_mem c hc
    have hread := (readChunks_only_iff _ _).mp hcrc.of_bind_left c hc
    rw [readsReceived_read, BitVec.toNat_ofNat, BitVec.toNat_ofNat] at hread
    omega
  · intro h
    refine verifyFile_only_of (verifyFileInfo_only fun offset hmem => ?_) ?_
    · rw [readsReceived_read]
      simp only [List.mem_cons, List.not_mem_nil, or_false] at hmem
      rcases hmem with rfl | rfl | rfl | rfl <;>
        simp only [BitVec.reduceToNat] <;> omega
    · rw [computeFileCrc_eq (by omega)]
      refine Only.bind ((readChunks_only_iff _ _).mpr fun c hc => ?_) fun _ _ _ => trivial
      obtain ⟨-, hpos, hle, hend⟩ := crcChunks_mem c hc
      rw [readsReceived_read, BitVec.toNat_ofNat, BitVec.toNat_ofNat]
      omega

/-! ## Which sizes -/

/-- The slots hold the header and the file exactly when the last segment is 1 to 91
bytes long. -/
theorem header_fits_iff {s : Nat} : 16 + s ≤ 107 * ceilSegs s ↔ 1 ≤ s % 107 ∧ s % 107 ≤ 91 := by
  unfold ceilSegs
  omega

/-- An accepted announcement leaves its size and the count of its segments. -/
theorem announced {f f' : LlFtp} {inp : Option RxBuf} {msg : Msg} {tr : List Ev} {ret : RetCode}
    (hrun : (msgProcess f inp).Runs tr (ret, f')) (hparse : parseRxMsg inp = (.ok, msg))
    (hstart : StartsTransfer f msg) (hopen : Kind.openOk ∈ kinds tr) :
    f'.fileSize = msg.fileSize ∧ f'.numSegs = BitVec.ofNat 16 (ceilSegs msg.fileSize.toNat) := by
  have hb := (msgProcess_runs hrun).begins hparse hstart
  cases hb with
  | accepted hs =>
    obtain ⟨r, t, -, rfl⟩ := hs
    exact ⟨rfl, rfl⟩
  | refused hne hs => simp [kind_open_fail hne, hs.kinds_eq] at hopen

/-- **Verification covers received data only** exactly when the last of the announced
segments is 1 to 91 bytes long, for the object the announcement leaves and whatever
the transfer makes of it as long as it keeps size and count. -/
theorem reads_received_iff {f f' : LlFtp} {inp : Option RxBuf} {msg : Msg} {tr : List Ev}
    {ret : RetCode} (hrun : (msgProcess f inp).Runs tr (ret, f'))
    (hparse : parseRxMsg inp = (.ok, msg)) (hstart : StartsTransfer f msg)
    (hopen : Kind.openOk ∈ kinds tr) (hmin : 1 ≤ msg.fileSize.toNat)
    (hmax : msg.fileSize.toNat ≤ 256800) :
    ∀ g, SameCount f' g →
      ((verifyFile g).Only (ReadsReceived g) ∧
          16 + msg.fileSize.toNat ≤ 107 * g.numSegs.toNat ↔
        1 ≤ msg.fileSize.toNat % 107 ∧ msg.fileSize.toNat % 107 ≤ 91) := by
  intro g hg
  obtain ⟨hsize, hnum⟩ := announced hrun hparse hstart hopen
  have hgsize : g.fileSize = msg.fileSize := hg.fileSize.trans hsize
  have hgnum : g.numSegs.toNat = ceilSegs msg.fileSize.toNat := by
    rw [hg.numSegs, hnum, BitVec.toNat_ofNat]
    unfold ceilSegs
    omega
  have honly : (verifyFile g).Only (ReadsReceived g) ↔
      16 + msg.fileSize.toNat ≤ 107 * g.numSegs.toNat := by
    rw [← hgsize]
    exact verify_only_iff (by rw [hgsize]; omega)
  rw [honly, and_self, hgnum]
  exact header_fits_iff

/-- A file of 107 bytes is one segment, and its verification reads 123 bytes. -/
theorem reads_past_segments :
    let f := demoEnd .willing [some (fileMsg 0 7 1 107 [])]
    FtpRun (demoHist .willing [some (fileMsg 0 7 1 107 [])]) f ∧ f.state = .segment ∧
      f.fileSize.toNat = 107 ∧ f.numSegs.toNat = 1 ∧ ¬ (verifyFile f).Only (ReadsReceived f) ∧
      ¬ 16 + f.fileSize.toNat ≤ 107 * f.numSegs.toNat := by
  refine ⟨demo_run (by decide +kernel), by decide +kernel, by decide +kernel, by decide +kernel,
    ?_, by decide +kernel⟩
  exact mt (verify_only_iff (by decide +kernel)).mp (by decide +kernel)

/-- The announcement of the smallest file, whose one segment is 1 byte long. -/
theorem reads_received_tiny :
    ∃ tr ret f', (msgProcess LlFtp.blank.reinit (some tinyInit)).Runs tr (ret, f') ∧
      ∀ g, SameCount f' g →
        ((verifyFile g).Only (ReadsReceived g) ∧
            16 + (parseRxMsg (some tinyInit)).2.fileSize.toNat ≤ 107 * g.numSegs.toNat ↔
          1 ≤ (parseRxMsg (some tinyInit)).2.fileSize.toNat % 107 ∧
            (parseRxMsg (some tinyInit)).2.fileSize.toNat % 107 ≤ 91) := by
  have hsome : (exec (storage .willing) (msgProcess LlFtp.blank.reinit (some tinyInit))
      World.empty).map (fun x => kinds x.1) =
        some [.openOk, .gettime, .uplink, .gettime, .configOn] := by decide +kernel
  obtain ⟨⟨tr, ⟨ret, f'⟩, w⟩, hx, hk⟩ := Option.map_eq_some_iff.mp hsome
  refine ⟨tr, ret, f', exec_runs hx, ?_⟩
  refine reads_received_iff (exec_runs hx) (parsed (by decide +kernel))
    ⟨Or.inl (by decide +kernel), Or.inl rfl⟩ ?_ (by decide +kernel) (by decide +kernel)
  rw [hk]
  decide

end HostInterface.Ftp

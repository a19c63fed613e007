import HostInterface.Buffer
import HostInterface.Ftp.Shape
import HostInterface.Ftp.Storage

/-!
# The uplinks of a run

Four generators build the acknowledgements in one shared buffer. `ackMsg` is what
they are for: a message of a type, sealed with its CRC, that names the file and
may list missing segments. Each generator is shown to leave exactly such a
message at the start of `tx_buf`, whatever was there before:

* `ackGenerate_msg` for the three fixed ones;
* `missingLoops_scan` for the loops behind the request: they count the clear
  bits, and list them as long as there is room for all;
* `ackSegsRequestGenerate_msg` for the request: the missing segments if they are
  fewer than `MAX_NUM_RETRY_SEGS`, else the whole file.

`uplink_wellFormed` is the result for every uplink of every run: it is an
`ackMsg` for the file the object holds at that moment.
-/

namespace HostInterface.Ftp

open Interact Prog Buffer

/-! ## Acknowledgements as messages -/

/-- The segments below `n` whose bit is clear, in order. -/
def missingSegs (rx : RxSegs) (n : Nat) : List Nat :=
  (List.range n).filter fun k => !segBit rx k

/-- Segment numbers as a request lists them, two bytes each. -/
def segList (ks : List Nat) : List U8 :=
  ks.flatMap fun k => le16 (BitVec.ofNat 16 k)

/-- An acknowledgement about a file, with the segments it lists. -/
def ackMsg (type ackType : U8) (fileId fileVersion : U32) (segs : List Nat) : List U8 :=
  sealMsg type (ackType :: (le32 fileId ++ le32 fileVersion ++ segList segs))

@[simp] theorem length_le32 (x : U32) : (le32 x).length = 4 := rfl

@[simp] theorem length_segList (ks : List Nat) : (segList ks).length = 2 * ks.length := by
  unfold segList
  induction ks with
  | nil => rfl
  | cons k ks ih =>
    rw [List.flatMap_cons, List.length_append, ih, List.length_cons]
    show 2 + 2 * ks.length = _
    omega

theorem segList_append (ks ks' : List Nat) : segList (ks ++ ks') = segList ks ++ segList ks' :=
  List.flatMap_append

@[simp] theorem length_ackMsg (type ackType : U8) (fileId fileVersion : U32) (segs : List Nat) :
    (ackMsg type ackType fileId fileVersion segs).length = 14 + 2 * segs.length := by
  simp only [ackMsg, sealMsg, List.length_cons, List.length_append, length_le32, length_segList]
  omega

/-- One more segment is looked at. -/
theorem missingSegs_succ (rx : RxSegs) (n : Nat) :
    missingSegs rx (n + 1) = missingSegs rx n ++ if segBit rx n then [] else [n] := by
  unfold missingSegs
  rw [List.range_succ, List.filter_append]
  cases h : segBit rx n <;> simp [h]

theorem length_missingSegs_le (rx : RxSegs) (n : Nat) : (missingSegs rx n).length ≤ n := by
  have := List.length_filter_le (fun k => !segBit rx k) (List.range n)
  rwa [List.length_range] at this

/-- The bitmap misses a segment exactly if the list of them is not empty. -/
theorem mem_missingSegs {rx : RxSegs} {n k : Nat} :
    k ∈ missingSegs rx n ↔ k < n ∧ segBit rx k = false := by
  simp [missingSegs]

/-! ## The stores -/

theorem toList_putU32 (tx : TxBuf) (i : Nat) (x : U32) :
    (putU32 tx i x).toList = store tx.toList i (le32 x) := by
  simp only [putU32, Vector.toList_setIfInBounds, le32, store]

/-- The head and the CRC of an acknowledgement: with the list already in place, the
buffer starts with the message. -/
theorem putAckCrc_msg {f g : LlFtp} {type ackType : U8} {segs : List Nat}
    (hsegs : segs.length ≤ 16) (hlist : At g.txBuf.toList 14 (segList segs))
    (hhead : At g.txBuf.toList 0 [type] ∧
      At g.txBuf.toList 5 (ackType :: (le32 f.fileId ++ le32 f.fileVersion))) :
    (g.putAckCrc (14 + 2 * segs.length)).txBuf.toList.take (14 + 2 * segs.length) =
      ackMsg type ackType f.fileId f.fileVersion segs := by
  have hlen : g.txBuf.toList.length = 46 := Vector.length_toList
  -- The bytes the CRC covers lie side by side.
  have hbody : At g.txBuf.toList 5
      (ackType :: (le32 f.fileId ++ le32 f.fileVersion ++ segList segs)) := by
    rw [← List.cons_append, at_append]
    exact ⟨hhead.2, hlist⟩
  have hcrc : (g.txBuf.toList.take (14 + 2 * segs.length)).drop 5 =
      ackType :: (le32 f.fileId ++ le32 f.fileVersion ++ segList segs) := by
    have hroom := hbody.drop_take (by
      simp only [List.length_cons, List.length_append, length_le32, length_segList]
      omega)
    simp only [List.length_cons, List.length_append, length_le32, length_segList] at hroom
    rw [← hroom]
    congr 2
    omega
  unfold LlFtp.putAckCrc
  dsimp only
  rw [toList_putU32, hcrc, ← length_ackMsg type ackType f.fileId f.fileVersion segs]
  refine At.take_eq ?_ (by rw [length_ackMsg, length_store]; omega)
  unfold ackMsg sealMsg
  rw [at_cons, at_append]
  refine ⟨hhead.1.store (Or.inl (Nat.le_refl _)), at_store (by simp [hlen]), ?_⟩
  exact hbody.store (Or.inr (Nat.le_refl _))

theorem putAckHead_rxSegs (f : LlFtp) (msgType ackType : U8) :
    (f.putAckHead msgType ackType).rxSegs = f.rxSegs := by
  unfold LlFtp.putAckHead
  rfl

theorem putAckHead_numSegs (f : LlFtp) (msgType ackType : U8) :
    (f.putAckHead msgType ackType).numSegs = f.numSegs := by
  unfold LlFtp.putAckHead
  rfl

/-- The head of an acknowledgement is in the buffer once it is stored. -/
theorem putAckHead_at (f : LlFtp) (msgType ackType : U8) :
    At (f.putAckHead msgType ackType).txBuf.toList 0 [msgType] ∧
      At (f.putAckHead msgType ackType).txBuf.toList 5
        (ackType :: (le32 f.fileId ++ le32 f.fileVersion)) := by
  have hlen : f.txBuf.toList.length = 46 := Vector.length_toList
  have htx : (f.putAckHead msgType ackType).txBuf.toList =
      store (store (store (store f.txBuf.toList 0 [msgType]) 5 [ackType]) 6 (le32 f.fileId)) 10
        (le32 f.fileVersion) := by
    unfold LlFtp.putAckHead
    dsimp only
    rw [toList_putU32, toList_putU32, Vector.toList_set, Vector.toList_set]
    rfl
  rw [htx]
  constructor
  · refine ((At.store ?_ ?_).store ?_).store ?_
    · exact at_store (by simp [hlen])
    · exact Or.inl (by simp)
    · exact Or.inl (by simp)
    · exact Or.inl (by simp)
  · rw [at_cons, at_append]
    refine ⟨(At.store ?_ ?_).store ?_, At.store ?_ ?_, ?_⟩
    · exact at_store (by simp [hlen])
    · exact Or.inl (by simp)
    · exact Or.inl (by simp)
    · exact at_store (by simp [hlen])
    · exact Or.inl (by simp)
    · exact at_store (by simp [hlen])

/-- A fixed acknowledgement is its message. -/
theorem ackGenerate_msg (f : LlFtp) (msgType ackType : U8) :
    (ackGenerate f msgType ackType).1.toNat = 14 ∧
      (ackGenerate f msgType ackType).2.txBuf.toList.take 14 =
        ackMsg msgType ackType f.fileId f.fileVersion [] := by
  have hroom : ([] : List Nat).length ≤ 16 := Nat.zero_le 16
  have hmsg := putAckCrc_msg hroom (at_nil _ 14) (putAckHead_at f msgType ackType)
  rw [List.length_nil, Nat.mul_zero, Nat.add_zero] at hmsg
  exact ⟨rfl, hmsg⟩

/-! ## The loops behind a request -/

/-- What the loops have done after the segments below `n`: without room for all
missing ones they stand still, else the missing ones are counted and, to fill the
buffer, listed. -/
structure Scanned (rx : RxSegs) (fillBuf : Bool) (tx : TxBuf) (n : Nat) (st : MissingScan) :
    Prop where
  full : st.full = true → fillBuf = true ∧ 16 < (missingSegs rx n).length
  count : st.full = false → st.numMissingSegs.toNat = (missingSegs rx n).length
  room : st.full = false → fillBuf = true → (missingSegs rx n).length ≤ 16
  list : st.full = false → fillBuf = true →
    At st.txBuf.toList 14 (segList (missingSegs rx n))
  head : ∀ k, k < 14 → st.txBuf.toList[k]? = tx.toList[k]?

theorem scanned_start (rx : RxSegs) (fillBuf : Bool) (tx : TxBuf) :
    Scanned rx fillBuf tx 0 ⟨0, tx, false⟩ :=
  ⟨fun h => (by cases h), fun _ => rfl, fun _ _ => Nat.zero_le _, fun _ _ => at_nil _ _,
    fun _ _ => rfl⟩

theorem toList_putSegNum {tx tx' : TxBuf} {idx : U8} {segNum : U16}
    (h : putSegNum tx idx segNum = some tx') :
    tx'.toList = store tx.toList (14 + idx.toNat) (le16 segNum) := by
  unfold putSegNum at h
  split at h
  next =>
    rw [← Option.some.inj h, Vector.toList_set, Vector.toList_set]
    rfl
  next => cases h

/-- The position of the next segment number, while fewer than 16 are listed. -/
theorem segNum_index {num : U16} (h : num.toNat < 16) :
    ((num * 2).setWidth 8 : U8).toNat = 2 * num.toNat := by
  rw [BitVec.toNat_setWidth, BitVec.toNat_mul, show (2 : U16).toNat = 2 from rfl]
  omega

/-- One segment more. -/
theorem Scanned.step {rx : RxSegs} {fillBuf : Bool} {tx : TxBuf} {n : Nat} {st st' : MissingScan}
    (h : Scanned rx fillBuf tx n st)
    (hbit : missingBit rx fillBuf (n / 32) (n % 32) st = some st') :
    Scanned rx fillBuf tx (n + 1) st' := by
  unfold missingBit at hbit
  cases hfull : st.full with
  | true =>
    -- The loops stand still, and what is missing can only grow.
    rw [if_pos hfull] at hbit
    obtain rfl := Option.some.inj hbit
    obtain ⟨hfill, hmany⟩ := h.full hfull
    have hmore : 16 < (missingSegs rx (n + 1)).length := by
      rw [missingSegs_succ, List.length_append]
      omega
    exact ⟨fun _ => ⟨hfill, hmore⟩, by simp [hfull], by simp [hfull], by simp [hfull], h.head⟩
  | false =>
    rw [if_neg (by simp [hfull])] at hbit
    have hcount := h.count hfull
    cases hw : rx[n / 32]? with
    | none => simp [hw] at hbit
    | some w =>
      have hn : n < 2400 := by
        have := (Vector.getElem?_eq_some_iff.mp hw).1
        omega
      have hle := length_missingSegs_le rx n
      have hseg : segBit rx n = w.getLsbD (n % 32) := by
        unfold segBit
        rw [hw]
        rfl
      rw [hw] at hbit
      dsimp only at hbit
      cases hset : w.getLsbD (n % 32) with
      | true =>
        -- Received: nothing changes.
        rw [if_pos hset] at hbit
        obtain rfl := Option.some.inj hbit
        have hsame : missingSegs rx (n + 1) = missingSegs rx n := by
          rw [missingSegs_succ, hseg, hset, if_pos rfl, List.append_nil]
        exact ⟨by simp [hfull], hsame ▸ h.count, hsame ▸ h.room, hsame ▸ h.list, h.head⟩
      | false =>
        have hnext : missingSegs rx (n + 1) = missingSegs rx n ++ [n] := by
          rw [missingSegs_succ, hseg, hset, if_neg (by simp)]
        rw [if_neg (by simp [hset])] at hbit
        by_cases hroom : (maxNumRetrySegs ≤ st.numMissingSegs.toNat && fillBuf) = true
        · -- A seventeenth one: the whole file is asked for instead.
          rw [if_pos hroom] at hbit
          obtain rfl := Option.some.inj hbit
          rw [Bool.and_eq_true, decide_eq_true_eq] at hroom
          have hmany : 16 < (missingSegs rx (n + 1)).length := by
            rw [hnext, List.length_append, List.length_singleton, ← hcount]
            exact Nat.lt_succ_of_le hroom.1
          exact ⟨fun _ => ⟨hroom.2, hmany⟩, by simp, by simp, by simp, h.head⟩
        · rw [if_neg hroom] at hbit
          have hone : (st.numMissingSegs + 1).toNat = (missingSegs rx (n + 1)).length := by
            rw [hnext, List.length_append, List.length_singleton, ← hcount, BitVec.toNat_add,
              show (1 : U16).toNat = 1 from rfl]
            omega
          cases hfill : fillBuf with
          | false =>
            rw [hfill, if_neg (by simp)] at hbit
            obtain rfl := Option.some.inj hbit
            exact ⟨by simp [hfull], fun _ => hone, by simp, by simp, h.head⟩
          | true =>
            rw [hfill, if_pos rfl, Option.map_eq_some_iff] at hbit
            obtain ⟨tx', hput, rfl⟩ := hbit
            have hnum : st.numMissingSegs.toNat < 16 := by simpa [hfill] using hroom
            have hlist := h.list hfull hfill
            have hstore := toList_putSegNum hput
            rw [segNum_index hnum, Nat.div_add_mod' n 32] at hstore
            have hlen : st.txBuf.toList.length = 46 := Vector.length_toList
            refine ⟨by simp [hfull], fun _ => hone, fun _ _ => ?_, fun _ _ => ?_, fun k hk => ?_⟩
            · rw [← hone, BitVec.toNat_add, show (1 : U16).toNat = 1 from rfl]
              omega
            · rw [hnext, segList_append, at_append, hstore, length_segList, ← hcount]
              refine ⟨hlist.store (Or.inl (Nat.le_of_eq (by rw [length_segList, ← hcount]))), ?_⟩
              exact at_store (by rw [hlen]; show _ + 2 ≤ 46; omega)
            · rw [hstore, getElem?_store_of_out (Or.inl (by omega))]
              exact h.head k hk

/-- **The loops of `ll_ftp_get_missing_segs`** count the clear bits, and list them
while there is room. -/
theorem missingLoops_scan {f : LlFtp} {fillBuf : Bool} {st : MissingScan}
    (h : missingLoops f fillBuf = some st) :
    Scanned f.rxSegs fillBuf f.txBuf f.numSegs.toNat st := by
  rw [missingLoops_eq] at h
  generalize f.numSegs.toNat = n at h
  induction n generalizing st with
  | zero =>
    obtain rfl := Option.some.inj h
    exact scanned_start _ _ _
  | succ n ih =>
    rw [List.range_succ, List.foldlM_append] at h
    obtain ⟨st₁, h₁, h⟩ := Option.bind_eq_some_iff.mp h
    rw [List.foldlM_cons] at h
    obtain ⟨st₂, h₂, h⟩ := Option.bind_eq_some_iff.mp h
    obtain rfl := Option.some.inj h
    exact (ih h₁).step h₂

/-- Without a buffer to fill, the missing segments are counted. -/
theorem getMissingSegs_count {f : LlFtp} (h : f.numSegs.toNat ≤ 2400) :
    ∃ n g, getMissingSegs f false = some (n, g) ∧
      n.toNat = (missingSegs f.rxSegs f.numSegs.toNat).length := by
  obtain ⟨⟨n, g⟩, hx⟩ := getMissingSegs_isSome false h
  refine ⟨n, g, hx, ?_⟩
  unfold getMissingSegs at hx
  obtain ⟨st, hst, heq⟩ := Option.map_eq_some_iff.mp hx
  have hscan := missingLoops_scan hst
  have hfull : st.full = false := by
    cases hf : st.full with
    | false => rfl
    | true => cases (hscan.full hf).1
  rw [hfull, if_neg (by simp)] at heq
  rw [← (Prod.mk.inj heq).1]
  exact hscan.count hfull

/-- `ll_ftp_num_missing_segs_get` in a transfer: the number of missing segments. -/
theorem numMissingSegsGet_eq {f : LlFtp} (hpos : 1 ≤ f.numSegs.toNat)
    (h : f.numSegs.toNat ≤ 2400) :
    numMissingSegsGet f = some ((missingSegs f.rxSegs f.numSegs.toNat).length : Int) := by
  have hin : ¬ (f.numSegs.toNat = 0 ∨ maxNumSegments < f.numSegs.toNat) := by
    rintro (h0 | hgt)
    · omega
    · exact absurd h (Nat.not_le.mpr hgt)
  obtain ⟨n, g, hget, hn⟩ := getMissingSegs_count h
  unfold numMissingSegsGet
  rw [if_neg hin, hget]
  exact congrArg some (congrArg Int.ofNat hn)

/-- A request whose acknowledge type is replaced by `ACK_NAK`. -/
theorem putNak_msg {f g : LlFtp} {ackType : U8} (htype : At g.txBuf.toList 0 [5])
    (hfile : At g.txBuf.toList 5 (ackType :: (le32 f.fileId ++ le32 f.fileVersion))) :
    ({ g with txBuf := g.txBuf.set 5 0xFF (by decide) }.putAckCrc 14).txBuf.toList.take 14 =
      ackMsg 5 0xFF f.fileId f.fileVersion [] := by
  have hset : (g.txBuf.set 5 0xFF).toList = store g.txBuf.toList 5 [0xFF] :=
    Vector.toList_set _
  have hlen : g.txBuf.toList.length = 46 := Vector.length_toList
  have hhead : At (g.txBuf.set 5 0xFF).toList 0 [5] ∧
      At (g.txBuf.set 5 0xFF).toList 5 (0xFF :: (le32 f.fileId ++ le32 f.fileVersion)) := by
    rw [hset]
    refine ⟨htype.store (Or.inl (by simp)), at_cons.mpr ⟨at_store (by simp [hlen]), ?_⟩⟩
    exact (at_cons.mp hfile).2.store (Or.inr (by simp))
  have hroom : ([] : List Nat).length ≤ 16 := Nat.zero_le 16
  have hmsg := putAckCrc_msg (f := f) (g := { g with txBuf := g.txBuf.set 5 0xFF }) hroom
    (at_nil _ 14) hhead
  rw [List.length_nil, Nat.mul_zero, Nat.add_zero] at hmsg
  exact hmsg

/-- What the loops of a request leave: the head as it was, and the outcome of the scan. -/
theorem request_scan {f g : LlFtp} {num : U16}
    (h : getMissingSegs (f.putAckHead 5 0xFD) true = some (num, g)) :
    At g.txBuf.toList 0 [5] ∧ At g.txBuf.toList 5 (0xFD :: (le32 f.fileId ++ le32 f.fileVersion)) ∧
      ((num.toNat = (missingSegs f.rxSegs f.numSegs.toNat).length ∧
        At g.txBuf.toList 14 (segList (missingSegs f.rxSegs f.numSegs.toNat))) ∨
      (num = 0xFFFF ∧ 16 < (missingSegs f.rxSegs f.numSegs.toNat).length)) := by
  unfold getMissingSegs at h
  obtain ⟨st, hst, heq⟩ := Option.map_eq_some_iff.mp h
  have hscan := missingLoops_scan hst
  rw [putAckHead_rxSegs, putAckHead_numSegs] at hscan
  rw [Prod.mk.injEq] at heq
  obtain ⟨hnum, rfl⟩ := heq
  have hhead := putAckHead_at f 5 0xFD
  refine ⟨hhead.1.congr fun k _ hk => hscan.head k ?_, hhead.2.congr fun k _ hk => hscan.head k ?_,
    ?_⟩
  · rw [List.length_singleton] at hk
    omega
  · simp only [List.length_cons, List.length_append, length_le32] at hk
    omega
  · cases hfull : st.full with
    | true =>
      rw [hfull, if_pos rfl] at hnum
      exact Or.inr ⟨hnum.symm, (hscan.full hfull).2⟩
    | false =>
      rw [hfull, if_neg (by simp)] at hnum
      rw [← hnum]
      exact Or.inl ⟨hscan.count hfull, hscan.list hfull rfl⟩

/-- **The segment request**: it lists the missing segments, or where they are
`MAX_NUM_RETRY_SEGS` or more it asks for the whole file. -/
theorem ackSegsRequestGenerate_msg {f g : LlFtp} {len : U8}
    (h : ackSegsRequestGenerate f = some (len, g)) :
    ((missingSegs f.rxSegs f.numSegs.toNat).length < 16 ∧
      g.txBuf.toList.take len.toNat =
        ackMsg 5 0xFD f.fileId f.fileVersion (missingSegs f.rxSegs f.numSegs.toNat)) ∨
    (16 ≤ (missingSegs f.rxSegs f.numSegs.toNat).length ∧
      g.txBuf.toList.take len.toNat = ackMsg 5 0xFF f.fileId f.fileVersion []) := by
  unfold ackSegsRequestGenerate at h
  obtain ⟨⟨num, g₀⟩, hget, heq⟩ := Option.map_eq_some_iff.mp h
  obtain ⟨htype, hfile, hout⟩ := request_scan hget
  dsimp only at heq
  by_cases hmany : maxNumRetrySegs ≤ num.toNat
  · -- Too many: the acknowledge type is replaced, and the list left out.
    rw [if_pos hmany, Prod.mk.injEq] at heq
    obtain ⟨rfl, rfl⟩ := heq
    refine Or.inr ⟨?_, putNak_msg htype hfile⟩
    rcases hout with ⟨hcount, -⟩ | ⟨-, hgt⟩
    · rw [← hcount]
      exact hmany
    · exact Nat.le_of_lt hgt
  · rw [if_neg hmany, Prod.mk.injEq] at heq
    obtain ⟨rfl, rfl⟩ := heq
    rcases hout with ⟨hcount, hlist⟩ | ⟨hfull, -⟩
    · have hlt : num.toNat < 16 := Nat.lt_of_not_le hmany
      have hlen : (14 + (num * 2).setWidth 8 : U8).toNat =
          14 + 2 * (missingSegs f.rxSegs f.numSegs.toNat).length := by
        rw [BitVec.toNat_add, segNum_index hlt, show (14 : U8).toNat = 14 from rfl, ← hcount]
        omega
      refine Or.inl ⟨by omega, ?_⟩
      rw [hlen]
      exact putAckCrc_msg (by omega) hlist ⟨htype, hfile⟩
    · rw [hfull] at hmany
      exact absurd (by decide) hmany

/-! ## The uplinks of a step -/

/-- The file the object holds, followed through the calls: a successful open is what
changes it. -/
def heldStep (file : U32 × U32) : Ev → U32 × U32
  | ⟨.open id version _, r⟩ => if r = RetCode.ok then (id, version) else file
  | _ => file

/-- The file held after the calls `evs`. -/
def heldFile (file : U32 × U32) (evs : List Ev) : U32 × U32 :=
  evs.foldl heldStep file

/-- The acknowledgements there are for `file`, where `f` says which segments are
missing. Nothing else of the object goes into one. Segments are asked for in SEGMENT. -/
inductive IsAck (f : LlFtp) (file : U32 × U32) : List U8 → Prop
  | init (ack : Bool) : IsAck f file (ackMsg 4 (if ack then 0x00 else 0xFF) file.1 file.2 [])
  | complete : IsAck f file (ackMsg 5 0x00 file.1 file.2 [])
  | missing : f.state = .segment → (missingSegs f.rxSegs f.numSegs.toNat).length < 16 →
      IsAck f file (ackMsg 5 0xFD file.1 file.2 (missingSegs f.rxSegs f.numSegs.toNat))
  | all : f.state = .segment → 16 ≤ (missingSegs f.rxSegs f.numSegs.toNat).length →
      IsAck f file (ackMsg 5 0xFF file.1 file.2 [])
  | apply : IsAck f file (ackMsg 6 0x00 file.1 file.2 [])

/-- A call that, if it is an uplink, is an acknowledgement on `LL_FTP_PORT`, with
`ll_ul_max_port` raised to it. -/
def UplinkAcks (f : LlFtp) (file : U32 × U32) : Ev → Prop
  | ⟨.uplink buf _ p maxPort, _⟩ => IsAck f file buf ∧ p = port ∧ maxPort = port
  | _ => True

/-- Every uplink of the calls acknowledges for the file held when it is sent. -/
def AllAcks (f : LlFtp) : U32 × U32 → List Ev → Prop
  | _, [] => True
  | file, ev :: evs => UplinkAcks f file ev ∧ AllAcks f (heldStep file ev) evs

@[simp] theorem allAcks_nil (f : LlFtp) (file : U32 × U32) : AllAcks f file [] := trivial

@[simp] theorem allAcks_cons {f : LlFtp} {file : U32 × U32} {ev : Ev} {evs : List Ev} :
    AllAcks f file (ev :: evs) ↔ UplinkAcks f file ev ∧ AllAcks f (heldStep file ev) evs := Iff.rfl

theorem allAcks_append {f : LlFtp} {file : U32 × U32} {evs evs' : List Ev} :
    AllAcks f file (evs ++ evs') ↔ AllAcks f file evs ∧ AllAcks f (heldFile file evs) evs' := by
  induction evs generalizing file with
  | nil => simp [heldFile]
  | cons ev evs ih => rw [List.cons_append, allAcks_cons, allAcks_cons, ih, and_assoc]; rfl

/-- An uplink among them, and the file held then. -/
theorem AllAcks.uplink {f : LlFtp} {file : U32 × U32} {before after : List Ev} {ev : Ev}
    (h : AllAcks f file (before ++ ev :: after)) : UplinkAcks f (heldFile file before) ev :=
  (allAcks_append.mp h).2.1

/-- Calls of other kinds are no uplinks. -/
theorem uplinkAcks_of_kind {f : LlFtp} {file : U32 × U32} {ev : Ev} (h : kind ev ≠ .uplink) :
    UplinkAcks f file ev := by
  obtain ⟨e, r⟩ := ev
  cases e with
  | uplink _ _ _ _ => exact absurd rfl h
  | _ => trivial

/-- Calls of other kinds leave the file. -/
theorem heldStep_of_kind {file : U32 × U32} {ev : Ev} (h : kind ev ≠ .openOk) :
    heldStep file ev = file := by
  obtain ⟨e, r⟩ := ev
  cases e with
  | «open» id version size =>
    by_cases hr : r = RetCode.ok
    · exact absurd (if_pos hr) h
    · exact if_neg hr
  | _ => rfl

theorem heldFile_of_kinds {file : U32 × U32} {evs : List Ev} (h : .openOk ∉ kinds evs) :
    heldFile file evs = file := by
  induction evs with
  | nil => rfl
  | cons ev evs ih =>
    rw [kinds_cons, List.mem_cons, not_or] at h
    rw [heldFile, List.foldl_cons, heldStep_of_kind (Ne.symm h.1)]
    exact ih h.2

theorem allAcks_of_kinds {f : LlFtp} {file : U32 × U32} {evs : List Ev} (h : .uplink ∉ kinds evs) :
    AllAcks f file evs := by
  induction evs generalizing file with
  | nil => trivial
  | cons ev evs ih =>
    rw [kinds_cons, List.mem_cons, not_or] at h
    exact ⟨uplinkAcks_of_kind (Ne.symm h.1), ih h.2⟩

/-- An acknowledgement that goes out. -/
theorem Sent.allAcks {f g g' : LlFtp} {ack : U8 × LlFtp} {file : U32 × U32} {ts : List Ev}
    (h : Sent g ack ts g') (hack : IsAck f file (ack.2.txBuf.toList.take ack.1.toNat)) :
    AllAcks f file ts := by
  obtain ⟨r, t, rfl, -⟩ := h
  exact ⟨⟨hack, rfl, rfl⟩, trivial, trivial⟩

theorem ackInit_isAck (f g : LlFtp) (ack : Bool) :
    IsAck f (g.fileId, g.fileVersion)
      ((ackInitGenerate g ack).2.txBuf.toList.take (ackInitGenerate g ack).1.toNat) := by
  unfold ackInitGenerate
  rw [(ackGenerate_msg _ _ _).1, (ackGenerate_msg _ _ _).2]
  exact .init ack

theorem ackSegsComplete_isAck (f g : LlFtp) :
    IsAck f (g.fileId, g.fileVersion)
      ((ackSegsCompleteGenerate g).2.txBuf.toList.take (ackSegsCompleteGenerate g).1.toNat) := by
  unfold ackSegsCompleteGenerate
  rw [(ackGenerate_msg _ _ _).1, (ackGenerate_msg _ _ _).2]
  exact .complete

theorem ackApply_isAck (f g : LlFtp) :
    IsAck f (g.fileId, g.fileVersion)
      ((ackApplyGenerate g).2.txBuf.toList.take (ackApplyGenerate g).1.toNat) := by
  unfold ackApplyGenerate
  rw [(ackGenerate_msg _ _ _).1, (ackGenerate_msg _ _ _).2]
  exact .apply

theorem ackSegsRequest_isAck {f : LlFtp} {ack : U8 × LlFtp} (hseg : f.state = .segment)
    (h : ackSegsRequestGenerate f = some ack) :
    IsAck f (f.fileId, f.fileVersion) (ack.2.txBuf.toList.take ack.1.toNat) := by
  rcases ackSegsRequestGenerate_msg h with ⟨hfew, hmsg⟩ | ⟨hmany, hmsg⟩
  · rw [hmsg]
    exact .missing hseg hfew
  · rw [hmsg]
    exact .all hseg hmany

theorem retryAck_isAck {f : LlFtp} {ack : U8 × LlFtp} (hne : f.state ≠ .idle)
    (h : retryAck f = some ack) :
    IsAck f (f.fileId, f.fileVersion) (ack.2.txBuf.toList.take ack.1.toNat) := by
  unfold retryAck at h
  split at h
  next =>
    rw [← Option.some.inj h]
    exact ackSegsComplete_isAck f f
  next hna =>
    have hseg : f.state = .segment := by
      cases hst : f.state with
      | idle => exact absurd hst hne
      | segment => rfl
      | apply => exact absurd hst hna
    exact ackSegsRequest_isAck hseg h

/-- The object keeps its file while it receives. -/
theorem Receives.sameFile {f g : LlFtp} {msg : Msg} {tr : List Ev} {ret : RetCode}
    (h : Receives f msg tr ret g) : (g.fileId, g.fileVersion) = (f.fileId, f.fileVersion) := by
  obtain ⟨t, trw, -, hw⟩ := h.write
  cases hw with
  | stored htrack =>
    rw [segNumTrack_frame htrack]
    rfl
  | failed _ => rfl

theorem Sent.sameFile {f f' : LlFtp} {ack : U8 × LlFtp} {tr : List Ev} (h : Sent f ack tr f') :
    (f'.fileId, f'.fileVersion) = (f.fileId, f.fileVersion) := by
  obtain ⟨r, t, -, rfl⟩ := h
  rfl

/-- **Every uplink of a step** acknowledges for the file held when it is sent. -/
theorem msgStep_acks {f f' : LlFtp} {inp : Option RxBuf} {tr : List Ev} {ret : RetCode}
    (h : MsgStep f inp tr ret f') : AllAcks f (f.fileId, f.fileVersion) tr := by
  cases h with
  | rejected _ _ => trivial
  | ignored _ _ => trivial
  | @start msg _ _ _ _ _ hb =>
    cases hb with
    | @accepted t _ _ _ hs =>
      refine ⟨trivial, trivial, allAcks_append.mpr ⟨hs.allAcks ?_, trivial, trivial⟩⟩
      exact ackInit_isAck f ((f.resetAt t).newFile msg) true
    | refused hne hs =>
      refine ⟨trivial, ?_⟩
      rw [heldStep_of_kind (by simp [kind_open_fail hne])]
      exact hs.allAcks (ackInit_isAck _ _ false)
  | cancel _ _ _ _ hcl => exact allAcks_of_kinds (hcl.not_mem (by decide))
  | incomplete _ hrecv _ => exact allAcks_of_kinds (by simp [hrecv.kinds_eq])
  | verified _ hrecv _ hv hs =>
    obtain ⟨n, hn⟩ := verify_kinds hv
    -- Nothing is opened before the file is closed and acknowledged.
    rw [← List.append_assoc, allAcks_append, heldFile_of_kinds (by simp [hrecv.kinds_eq, hn])]
    refine ⟨allAcks_of_kinds (by simp [hrecv.kinds_eq, hn]), trivial, ?_⟩
    refine hs.allAcks ?_
    rw [heldStep_of_kind (by simp), ← hrecv.sameFile]
    exact ackSegsComplete_isAck _ _
  | stuck _ hrecv _ hv hne =>
    obtain ⟨n, hn⟩ := verify_kinds hv
    exact allAcks_of_kinds (by simp [hrecv.kinds_eq, hn, kind_close_fail hne])
  | restarted _ hrecv _ hv _ =>
    obtain ⟨n, hn⟩ := verify_kinds hv
    exact allAcks_of_kinds (by simp [hrecv.kinds_eq, hn])
  | abandoned _ hrecv _ hv _ hfail hcl =>
    obtain ⟨n, hn⟩ := verify_kinds hv
    refine allAcks_of_kinds ?_
    rcases hfail.kinds_eq with hk | hk <;>
      simp [hrecv.kinds_eq, hn, hk, hcl.not_mem (k := .uplink) (by decide)]
  | request _ hseg _ hack hs => exact hs.allAcks (ackSegsRequest_isAck hseg hack)
  | early _ _ _ _ => exact ⟨trivial, trivial⟩
  | retry _ hne _ _ _ hack hs => exact ⟨trivial, hs.allAcks (retryAck_isAck hne hack)⟩
  | giveUp _ _ _ _ _ hcl => exact ⟨trivial, allAcks_of_kinds (hcl.not_mem (by decide))⟩
  | held _ _ _ _ => exact ⟨trivial, trivial⟩
  | applied _ _ _ _ hs hcl =>
    refine ⟨trivial, allAcks_append.mpr ⟨hs.allAcks (ackApply_isAck _ _), ?_⟩⟩
    exact allAcks_of_kinds (hcl.not_mem (by decide))
  | applyRefused _ _ _ _ _ hcl => exact ⟨trivial, allAcks_of_kinds (hcl.not_mem (by decide))⟩

/-- Leaving a transfer keeps its file or resets it. -/
theorem leave_file (f : LlFtp) (ret : RetCode) :
    ((f.leave ret).fileId, (f.leave ret).fileVersion) = (f.fileId, f.fileVersion) ∨
      f.leave ret = f.reinit := by
  unfold LlFtp.leave
  split
  next => exact Or.inr rfl
  next => exact Or.inl rfl

/-- The file followed through the calls of a step is the one in the object behind it,
unless the step has reset the object. -/
theorem msgStep_file {f f' : LlFtp} {inp : Option RxBuf} {tr : List Ev} {ret : RetCode}
    (h : MsgStep f inp tr ret f') :
    (f'.fileId, f'.fileVersion) = heldFile (f.fileId, f.fileVersion) tr ∨
      ∃ g : LlFtp, f' = g.reinit := by
  have hends : ∀ {g : LlFtp} {tc : List Ev} {c : RetCode}, Closes g tc c → .openOk ∉ kinds tc :=
    fun hcl => hcl.not_mem (by decide)
  -- Without an open the file is the one before, or the object has been reset.
  have hleave : ∀ {g : LlFtp} {c : RetCode}, .openOk ∉ kinds tr →
      (g.fileId, g.fileVersion) = (f.fileId, f.fileVersion) →
      ((g.leave c).fileId, (g.leave c).fileVersion) = heldFile (f.fileId, f.fileVersion) tr ∨
        ∃ g' : LlFtp, g.leave c = g'.reinit := by
    intro g c hno hsame
    rw [heldFile_of_kinds hno, ← hsame]
    rcases leave_file g c with hkeep | hreset
    · exact Or.inl hkeep
    · exact Or.inr ⟨g, hreset⟩
  cases h with
  | rejected _ _ => exact Or.inl rfl
  | ignored _ _ => exact Or.inl rfl
  | start _ _ hb =>
    cases hb with
    | accepted hs =>
      left
      obtain ⟨r, t, rfl, rfl⟩ := hs
      rfl
    | refused hne hs =>
      left
      rw [heldFile_of_kinds (by simp [kind_open_fail hne, hs.kinds_eq]), hs.sameFile]
  | cancel _ _ _ _ hcl => exact hleave (hends hcl) rfl
  | incomplete _ hrecv _ =>
    left
    rw [heldFile_of_kinds (by simp [hrecv.kinds_eq]), hrecv.sameFile]
  | verified _ hrecv _ hv hs =>
    obtain ⟨n, hn⟩ := verify_kinds hv
    left
    rw [heldFile_of_kinds (by simp [hrecv.kinds_eq, hn, hs.kinds_eq]), ← hrecv.sameFile,
      ← hs.sameFile]
    rfl
  | stuck _ hrecv _ hv hne =>
    obtain ⟨n, hn⟩ := verify_kinds hv
    left
    rw [heldFile_of_kinds (by simp [hrecv.kinds_eq, hn, kind_close_fail hne]), ← hrecv.sameFile]
    rfl
  | @restarted _ tr tv _ _ g t _ hrecv _ hv _ =>
    obtain ⟨n, hn⟩ := verify_kinds hv
    left
    -- The same file is opened again.
    rw [← List.append_assoc, heldFile, List.foldl_append]
    exact hrecv.sameFile ▸ rfl
  | abandoned _ hrecv _ hv _ hfail hcl =>
    obtain ⟨n, hn⟩ := verify_kinds hv
    refine hleave ?_ hrecv.sameFile
    rcases hfail.kinds_eq with hk | hk <;> simp [hrecv.kinds_eq, hn, hk, hends hcl]
  | request _ _ _ _ hs =>
    left
    rw [heldFile_of_kinds (by simp [hs.kinds_eq]), hs.sameFile]
  | early _ _ _ _ => exact Or.inl rfl
  | retry _ _ _ _ _ _ hs =>
    left
    rw [heldFile_of_kinds (by simp [hs.kinds_eq]), ← hs.sameFile]
  | giveUp _ _ _ _ _ hcl => exact hleave (by simp [hends hcl]) rfl
  | held _ _ _ _ => exact Or.inl rfl
  | applied _ _ _ _ hs hcl => exact hleave (by simp [hs.kinds_eq, hends hcl]) hs.sameFile
  | applyRefused _ _ _ _ _ hcl => exact hleave (by simp [hends hcl]) rfl

/-- `ll_ul_max_port` is restored by every step. -/
theorem msgStep_maxPort {f f' : LlFtp} {inp : Option RxBuf} {tr : List Ev} {ret : RetCode}
    (h : MsgStep f inp tr ret f') : f'.ulMaxPort = f.ulMaxPort := by
  have hsent : ∀ {g g' : LlFtp} {ack : U8 × LlFtp} {ts : List Ev}, Sent g ack ts g' →
      g'.ulMaxPort = g.ulMaxPort := by
    rintro g g' ack ts ⟨r, t, -, rfl⟩
    rfl
  have hleave : ∀ (g : LlFtp) (c : RetCode), (g.leave c).ulMaxPort = g.ulMaxPort := by
    intro g c
    unfold LlFtp.leave
    split <;> rfl
  have hrecv : ∀ {msg : Msg} {trw : List Ev} {r : RetCode} {g : LlFtp}, Receives f msg trw r g →
      g.ulMaxPort = f.ulMaxPort := by
    intro msg trw r g hr
    obtain ⟨t, _, -, hw⟩ := hr.write
    cases hw with
    | stored htrack => rw [segNumTrack_frame htrack]; rfl
    | failed _ => rfl
  cases h with
  | rejected _ _ => rfl
  | ignored _ _ => rfl
  | start _ _ hb =>
    cases hb with
    | accepted hs =>
      have hsame := hsent hs
      exact hsame
    | refused _ hs => exact hsent hs
  | cancel _ _ _ _ _ => exact hleave _ _
  | incomplete _ hr _ => exact hrecv hr
  | verified _ hr _ _ hs => exact (hsent hs).trans (hrecv hr)
  | stuck _ hr _ _ _ =>
    have hsame := hrecv hr
    exact hsame
  | restarted _ hr _ _ _ =>
    have hsame := hrecv hr
    exact hsame
  | abandoned _ hr _ _ _ _ _ =>
    have hsame := hrecv hr
    exact (hleave _ _).trans hsame
  | request _ _ _ _ hs => exact hsent hs
  | early _ _ _ _ => rfl
  | retry _ _ _ _ _ _ hs =>
    have hsame := hsent hs
    exact hsame
  | giveUp _ _ _ _ _ _ => exact hleave _ _
  | held _ _ _ _ => rfl
  | applied _ _ _ _ hs _ => exact (hleave _ _).trans (hsent hs)
  | applyRefused _ _ _ _ _ _ => exact hleave _ _

/-! ## Format -/

/-- What the receiver of an uplink can rely on, byte by byte. -/
structure AckFormat (file : U32 × U32) (buf : List U8) : Prop where
  minLen : 14 ≤ buf.length
  maxLen : buf.length ≤ 44
  type : buf[0]? = some 4 ∨ buf[0]? = some 5 ∨ buf[0]? = some 6
  crc : (buf.drop 1).take 4 = le32 (crc32 0 (buf.drop 5))
  fileId : (buf.drop 6).take 4 = le32 file.1
  fileVersion : (buf.drop 10).take 4 = le32 file.2

theorem ackMsg_format {file : U32 × U32} {type ackType : U8} {segs : List Nat}
    (htype : type = 4 ∨ type = 5 ∨ type = 6) (hsegs : segs.length < 16) :
    AckFormat file (ackMsg type ackType file.1 file.2 segs) := by
  refine ⟨by rw [length_ackMsg]; omega, by rw [length_ackMsg]; omega, ?_, rfl, rfl, rfl⟩
  rcases htype with rfl | rfl | rfl
  · exact Or.inl rfl
  · exact Or.inr (Or.inl rfl)
  · exact Or.inr (Or.inr rfl)

theorem IsAck.format {f : LlFtp} {file : U32 × U32} {buf : List U8} (h : IsAck f file buf) :
    AckFormat file buf := by
  have hnone : ([] : List Nat).length < 16 := Nat.zero_lt_succ 15
  cases h with
  | init _ => exact ackMsg_format (Or.inl rfl) hnone
  | complete => exact ackMsg_format (Or.inr (Or.inl rfl)) hnone
  | missing _ hfew => exact ackMsg_format (Or.inr (Or.inl rfl)) hfew
  | all _ _ => exact ackMsg_format (Or.inr (Or.inl rfl)) hnone
  | apply => exact ackMsg_format (Or.inr (Or.inr rfl)) hnone

/-- **Every uplink of every run** is an acknowledgement in this format for the file the
object holds at that moment, put together from that file and the missing segments
alone, with `ll_ul_max_port` raised to the FTP port for the time of the call. -/
theorem uplink_wellFormed {hist : List FtpStep} {f : LlFtp} (h : FtpRun hist f) {st : FtpStep}
    (hst : st ∈ hist) {before after : List Ev} {buf : List U8} {acked : Bool} {p maxPort : U8}
    {r : RetCode} (hev : st.events = before ++ ⟨.uplink buf acked p maxPort, r⟩ :: after) :
    let file := heldFile (st.pre.fileId, st.pre.fileVersion) before
    AckFormat file buf ∧ IsAck st.pre file buf ∧ p = port ∧ maxPort = port ∧
      st.post.ulMaxPort = st.pre.ulMaxPort := by
  obtain ⟨i, hi⟩ := List.getElem?_of_mem hst
  have hstep := step_msgStep (h.at_pos hi).2
  have hacks := msgStep_acks hstep
  rw [hev] at hacks
  obtain ⟨hack, hp, hmax⟩ := hacks.uplink
  exact ⟨hack.format, hack, hp, hmax, msgStep_maxPort hstep⟩

/-- A trace with an uplink, taken apart there. -/
theorem exists_uplink {tr : List Ev} (h : Kind.uplink ∈ kinds tr) :
    ∃ before buf acked p maxPort r after,
      tr = before ++ (⟨.uplink buf acked p maxPort, r⟩ : Ev) :: after := by
  obtain ⟨⟨e, r⟩, hmem, hkind⟩ := List.mem_map.mp h
  obtain ⟨before, after, htr⟩ := List.append_of_mem hmem
  cases e with
  | uplink buf acked p maxPort => exact ⟨before, buf, acked, p, maxPort, r, after, htr⟩
  | «open» _ _ _ => unfold kind at hkind; dsimp only at hkind; split at hkind <;> cases hkind
  | close _ _ => unfold kind at hkind; dsimp only at hkind; split at hkind <;> cases hkind
  | config _ => unfold kind at hkind; dsimp only at hkind; split at hkind <;> cases hkind
  | _ => cases hkind

/-- The acknowledgement of the smallest file's announcement. -/
theorem uplink_wellFormed_tiny :
    let hist := demoHist .willing [some tinyInit]
    ∃ st ∈ hist, ∃ before buf acked p maxPort r after,
      st.events = before ++ (⟨.uplink buf acked p maxPort, r⟩ : Ev) :: after ∧
      (let file := heldFile (st.pre.fileId, st.pre.fileVersion) before
      AckFormat file buf ∧ IsAck st.pre file buf ∧ p = port ∧ maxPort = port ∧
        st.post.ulMaxPort = st.pre.ulMaxPort) := by
  intro hist
  have hup : ∃ st ∈ hist, Kind.uplink ∈ kinds st.events := by
    have hany : hist.any (fun st => (kinds st.events).contains Kind.uplink) = true := by
      decide +kernel
    obtain ⟨st, hst, hmem⟩ := List.any_eq_true.mp hany
    exact ⟨st, hst, List.contains_iff_mem.mp hmem⟩
  obtain ⟨st, hst, hmem⟩ := hup
  obtain ⟨before, buf, acked, p, maxPort, r, after, hev⟩ := exists_uplink hmem
  exact ⟨st, hst, before, buf, acked, p, maxPort, r, after, hev,
    uplink_wellFormed (demo_run (by decide +kernel)) hst hev⟩

end HostInterface.Ftp

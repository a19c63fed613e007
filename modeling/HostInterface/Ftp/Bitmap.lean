import HostInterface.Ftp.Object

/-!
# The bitmap of received segments

`rx_segs` holds one bit for each segment, 32 to a word. Three loops of the
source walk it with different treatment of the full words and of the last,
partial one; here each is shown to be about the plain set of bits `segBit`:

* `segNumTrack_bit`: `ll_ftp_seg_num_track` adds exactly one segment;
* `transferIsComplete_eq`: `ll_ftp_transfer_is_complete` is "no bit below
  `num_segs` is clear";
* `getMissingSegs_eq`: the nested loops of `ll_ftp_get_missing_segs` visit the
  segments `0 .. num_segs - 1` in order.

An index past word 74 is an access outside the array, undefined in C: the
functions are `Option`-valued and `none` is that access. `transferIsComplete`
and `getMissingSegs` are defined whenever `num_segs` is at most
`MAX_NUM_SEGMENTS` (`transferIsComplete_eq`, `getMissingSegs_isSome`).
-/

namespace HostInterface.Ftp

/-- Whether the bit of segment `k` is set, `(rx_segs[k >> 5] >> (k & 0x1F)) & 1`. -/
def segBit (rx : RxSegs) (k : Nat) : Bool :=
  (rx[k / 32]?.getD 0#32).getLsbD (k % 32)

/-- `ll_ftp_seg_num_track`. The guard lets `MAX_NUM_SEGMENTS` itself through,
whose word is the first one past the array. -/
def segNumTrack (f : LlFtp) (segNum : U16) : Option LlFtp :=
  if segNum.toNat ≤ maxNumSegments then
    let base := segNum.toNat / 32 -- seg_num >> 5
    if h : base < 75 then
      some { f with rxSegs := f.rxSegs.set base (f.rxSegs[base] ||| (1#32 <<< (segNum.toNat % 32))) }
    else none
  else some f

/-- The words `is` are all full, checked in order up to the first that is not. -/
def wordsComplete (rx : RxSegs) : List Nat → Option Bool
  | [] => some true
  | i :: is =>
    match rx[i]? with
    | none => none
    | some w => if w ≠ 0xFFFFFFFF#32 then some false else wordsComplete rx is

/-- The bits `js` of word `base` are all set, checked in order up to the first clear one. -/
def bitsComplete (rx : RxSegs) (base : Nat) : List Nat → Option Bool
  | [] => some true
  | j :: js =>
    match rx[base]? with
    | none => none
    | some w => if !w.getLsbD j then some false else bitsComplete rx base js

/-- `ll_ftp_transfer_is_complete`: the words below `base_max` must be full, then
the first `num_segs & 0x1F` bits of word `base_max` set. -/
def transferIsComplete (f : LlFtp) : Option Bool :=
  let baseMax := f.numSegs.toNat / 32 -- num_segs >> 5
  match wordsComplete f.rxSegs (List.range baseMax) with
  | none => none
  | some false => some false
  | some true => bitsComplete f.rxSegs baseMax (List.range (f.numSegs.toNat % 32))

/-- The variables of the loops of `ll_ftp_get_missing_segs`; `full` is set where
the source returns early with `0xFFFF`, and keeps the rest of the loops still. -/
structure MissingScan where
  numMissingSegs : U16
  txBuf : TxBuf
  full : Bool

/-- The two stores of one segment number into the request. -/
def putSegNum (tx : TxBuf) (idx : U8) (segNum : U16) : Option TxBuf :=
  if h : 14 + idx.toNat + 1 < 46 then
    some ((tx.set (14 + idx.toNat) (segNum.setWidth 8)).set (14 + idx.toNat + 1)
      ((segNum >>> 8).setWidth 8))
  else none

/-- The body of the inner loop of `ll_ftp_get_missing_segs`, at bit `j` of word `i`. -/
def missingBit (rx : RxSegs) (fillBuf : Bool) (i j : Nat) (st : MissingScan) : Option MissingScan :=
  if st.full then some st
  else
    match rx[i]? with
    | none => none
    | some w =>
      if w.getLsbD j then some st
      else if maxNumRetrySegs ≤ st.numMissingSegs.toNat && fillBuf then
        some { st with full := true }
      else
        let segNum : U16 := BitVec.ofNat 16 (i * 32 + j) -- (i << 5) + j
        let idx : U8 := (st.numMissingSegs * 2).setWidth 8
        if fillBuf then
          (putSegNum st.txBuf idx segNum).map fun tx =>
            { st with numMissingSegs := st.numMissingSegs + 1, txBuf := tx }
        else some { st with numMissingSegs := st.numMissingSegs + 1 }

/-- The two loops, as far as they go. -/
def missingLoops (f : LlFtp) (fillBuf : Bool) : Option MissingScan :=
  let baseMax := f.numSegs.toNat / 32 -- num_segs >> 5
  (List.range (baseMax + 1)).foldlM
    (fun st i =>
      (List.range (if i ≠ baseMax then 32 else f.numSegs.toNat % 32)).foldlM
        (fun st j => missingBit f.rxSegs fillBuf i j st) st)
    ⟨0, f.txBuf, false⟩

/-- `ll_ftp_get_missing_segs`: the count, or `0xFFFF` where the request would not
hold them all, and the buffer as it is left. -/
def getMissingSegs (f : LlFtp) (fillBuf : Bool) : Option (U16 × LlFtp) :=
  (missingLoops f fillBuf).map fun st =>
    (if st.full then 0xFFFF#16 else st.numMissingSegs, { f with txBuf := st.txBuf })

/-- `ll_ftp_num_missing_segs_get`. -/
def numMissingSegsGet (f : LlFtp) : Option Int :=
  if f.numSegs.toNat = 0 ∨ maxNumSegments < f.numSegs.toNat then some (-1)
  else (getMissingSegs f false).map fun x => (x.1.toNat : Int)

/-! ## One segment is added -/

theorem segBit_eq {rx : RxSegs} {k : Nat} (hk : k / 32 < 75) :
    segBit rx k = rx[k / 32].getLsbD (k % 32) := by
  unfold segBit
  rw [Vector.getElem?_eq_getElem hk]
  rfl

@[simp] theorem segBit_replicate (k : Nat) : segBit (Vector.replicate 75 0) k = false := by
  unfold segBit
  rcases Nat.lt_or_ge (k / 32) 75 with hlt | hge
  · rw [Vector.getElem?_eq_getElem hlt, Vector.getElem_replicate]
    simp
  · rw [Vector.getElem?_eq_none hge]
    simp

/-- There are no bits past the array. -/
theorem segBit_out {rx : RxSegs} {k : Nat} (hk : 2400 ≤ k) : segBit rx k = false := by
  unfold segBit
  rw [Vector.getElem?_eq_none (by omega)]
  simp

/-- Below `MAX_NUM_SEGMENTS` the tracked segment has a word of its own in the array. -/
theorem segNumTrack_isSome {f : LlFtp} {segNum : U16} (h : segNum.toNat < 2400) :
    ∃ f', segNumTrack f segNum = some f' := by
  have hle : segNum.toNat ≤ maxNumSegments := Nat.le_of_lt h
  unfold segNumTrack
  rw [if_pos hle]
  exact ⟨_, dif_pos (show segNum.toNat / 32 < 75 by omega)⟩

/-- Tracking touches nothing but the bitmap. -/
theorem segNumTrack_frame {f f' : LlFtp} {segNum : U16} (h : segNumTrack f segNum = some f') :
    f' = { f with rxSegs := f'.rxSegs } := by
  unfold segNumTrack at h
  split at h
  next =>
    dsimp only at h
    split at h
    next =>
      simp only [Option.some.injEq] at h
      rw [← h]
    next => cases h
  next =>
    simp only [Option.some.injEq] at h
    rw [← h]

/-- A tracked segment below `MAX_NUM_SEGMENTS` is added to the set of received ones. -/
theorem segNumTrack_bit {f f' : LlFtp} {segNum : U16} (hs : segNum.toNat < 2400)
    (h : segNumTrack f segNum = some f') {k : Nat} (hk : k < 2400) :
    segBit f'.rxSegs k = (segBit f.rxSegs k || decide (k = segNum.toNat)) := by
  have hle : segNum.toNat ≤ maxNumSegments := Nat.le_of_lt hs
  have hbase : segNum.toNat / 32 < 75 := by omega
  unfold segNumTrack at h
  rw [if_pos hle] at h
  dsimp only at h
  rw [dif_pos hbase] at h
  simp only [Option.some.injEq] at h
  have hkw : k / 32 < 75 := by omega
  rw [segBit_eq hkw, segBit_eq hkw, ← h]
  dsimp only
  rw [Vector.getElem_set]
  -- Only the word of the tracked segment changes, and in it only one bit.
  by_cases hw : segNum.toNat / 32 = k / 32
  · rw [if_pos hw]
    simp only [hw, BitVec.getLsbD_or]
    have hshift : (1#32 <<< (segNum.toNat % 32)).getLsbD (k % 32) = decide (k = segNum.toNat) := by
      rw [BitVec.getLsbD_shiftLeft, BitVec.getLsbD_one]
      by_cases hkk : k = segNum.toNat
      · simp [hkk]
        omega
      · have hne : ¬ (¬ k % 32 < segNum.toNat % 32 ∧ k % 32 - segNum.toNat % 32 = 0) := by omega
        simp [hkk]
        omega
    rw [hshift]
  · rw [if_neg hw]
    have hne : k ≠ segNum.toNat := fun he => hw (by rw [he])
    simp [hne]

/-! ## Completeness is "no bit below `num_segs` is clear" -/

/-- A word is full exactly when its 32 bits are set. -/
theorem word_full_iff (w : U32) : w = 0xFFFFFFFF#32 ↔ ∀ j, j < 32 → w.getLsbD j = true := by
  constructor
  · intro h j hj
    rw [h, show (0xFFFFFFFF#32) = BitVec.allOnes 32 from rfl, BitVec.getLsbD_allOnes]
    simpa using hj
  · intro h
    rw [show (0xFFFFFFFF#32) = BitVec.allOnes 32 from rfl]
    apply BitVec.eq_of_getLsbD_eq
    intro j hj
    rw [h j hj, BitVec.getLsbD_allOnes]
    simpa using hj

theorem wordsComplete_eq (rx : RxSegs) :
    ∀ (is : List Nat), (∀ i ∈ is, i < 75) →
      wordsComplete rx is =
        some (is.all fun i => (List.range 32).all fun j => segBit rx (32 * i + j)) := by
  intro is
  induction is with
  | nil => intro _; rfl
  | cons i is ih =>
    intro hi
    have hi75 : i < 75 := hi i (List.mem_cons_self ..)
    have hword : ((List.range 32).all fun j => segBit rx (32 * i + j)) = true ↔
        rx[i] = 0xFFFFFFFF#32 := by
      rw [word_full_iff, List.all_eq_true]
      simp only [List.mem_range]
      refine forall_congr' fun j => imp_congr_right fun hj => ?_
      have hij : (32 * i + j) / 32 = i := by omega
      rw [segBit_eq (by omega)]
      simp only [hij, show (32 * i + j) % 32 = j by omega]
    rw [wordsComplete, Vector.getElem?_eq_getElem hi75, List.all_cons]
    dsimp only
    by_cases hw : rx[i] = 0xFFFFFFFF#32
    · rw [if_neg (by simpa using hw), ih fun i' h' => hi i' (List.mem_cons_of_mem _ h'),
        hword.mpr hw, Bool.true_and]
    · rw [if_pos hw, Bool.eq_false_iff.mpr fun hall => hw (hword.mp hall), Bool.false_and]

theorem bitsComplete_eq (rx : RxSegs) (base : Nat) :
    ∀ (js : List Nat), (∀ j ∈ js, base < 75 ∧ j < 32) →
      bitsComplete rx base js = some (js.all fun j => segBit rx (32 * base + j)) := by
  intro js
  induction js with
  | nil => intro _; rfl
  | cons j js ih =>
    intro hj
    obtain ⟨hb, hj32⟩ := hj j (List.mem_cons_self ..)
    have hbj : (32 * base + j) / 32 = base := by omega
    have hbit : segBit rx (32 * base + j) = rx[base].getLsbD j := by
      rw [segBit_eq (by omega)]
      simp only [hbj, show (32 * base + j) % 32 = j by omega]
    rw [bitsComplete, Vector.getElem?_eq_getElem hb, List.all_cons, hbit]
    dsimp only
    cases hw : rx[base].getLsbD j with
    | true =>
      rw [if_neg (by simp), ih fun j' h' => hj j' (List.mem_cons_of_mem _ h'), Bool.true_and]
    | false => rw [if_pos (by simp), Bool.false_and]

/-- **Completeness**: with at most `MAX_NUM_SEGMENTS` segments the loops stay in the
array and answer whether every segment has been received. -/
theorem transferIsComplete_eq {f : LlFtp} (h : f.numSegs.toNat ≤ 2400) :
    transferIsComplete f = some ((List.range f.numSegs.toNat).all (segBit f.rxSegs)) := by
  have hwords := wordsComplete_eq f.rxSegs (List.range (f.numSegs.toNat / 32)) (by
    intro i hi
    have := List.mem_range.mp hi
    omega)
  have hbits := bitsComplete_eq f.rxSegs (f.numSegs.toNat / 32)
    (List.range (f.numSegs.toNat % 32)) (by
      intro j hj
      have := List.mem_range.mp hj
      omega)
  -- Segment `k` is bit `k % 32` of word `k / 32`; the last word is the partial one.
  have hsplit : (List.range f.numSegs.toNat).all (segBit f.rxSegs) =
      (((List.range (f.numSegs.toNat / 32)).all fun i =>
        (List.range 32).all fun j => segBit f.rxSegs (32 * i + j)) &&
      (List.range (f.numSegs.toNat % 32)).all fun j =>
        segBit f.rxSegs (32 * (f.numSegs.toNat / 32) + j)) := by
    rw [Bool.eq_iff_iff, Bool.and_eq_true]
    simp only [List.all_eq_true, List.mem_range]
    constructor
    · intro hall
      exact ⟨fun i hi j hj => hall _ (by omega), fun j hj => hall _ (by omega)⟩
    · intro hall k hk
      rcases Nat.lt_or_ge (k / 32) (f.numSegs.toNat / 32) with hlt | hge
      · have := hall.1 (k / 32) hlt (k % 32) (by omega)
        rwa [show 32 * (k / 32) + k % 32 = k by omega] at this
      · have := hall.2 (k % 32) (by omega)
        rwa [show 32 * (f.numSegs.toNat / 32) + k % 32 = k by omega] at this
  unfold transferIsComplete
  dsimp only
  rw [hwords, hsplit]
  cases (List.range (f.numSegs.toNat / 32)).all fun i =>
      (List.range 32).all fun j => segBit f.rxSegs (32 * i + j) with
  | true => rw [Bool.true_and]; exact hbits
  | false => rfl

/-- The transfer is complete exactly when no segment is missing. -/
theorem transferIsComplete_true_iff {f : LlFtp} (h : f.numSegs.toNat ≤ 2400) :
    transferIsComplete f = some true ↔ ∀ k, k < f.numSegs.toNat → segBit f.rxSegs k = true := by
  rw [transferIsComplete_eq h]
  simp

/-! ## The missing segments are visited in order -/

private theorem foldlM_ext {α β : Type} {g g' : β → α → Option β} :
    ∀ (l : List α) (st : β), (∀ a ∈ l, ∀ st, g st a = g' st a) →
      l.foldlM g st = l.foldlM g' st := by
  intro l
  induction l with
  | nil => intro st _; rfl
  | cons a l ih =>
    intro st h
    rw [List.foldlM_cons, List.foldlM_cons, h a (List.mem_cons_self ..)]
    refine congrArg _ (funext fun st' => ?_)
    exact ih st' fun a' h' => h a' (List.mem_cons_of_mem _ h')

/-- One word's positions are a stretch of consecutive segments. -/
private theorem foldlM_word {α : Type} (g : Nat → Nat → α → Option α) (b m : Nat) (hm : m ≤ 32)
    (st : α) :
    ((List.range m).map (32 * b + ·)).foldlM (fun st k => g (k / 32) (k % 32) st) st =
      (List.range m).foldlM (fun st j => g b j st) st := by
  rw [List.foldlM_map]
  refine foldlM_ext _ _ fun j hj st => ?_
  have hj32 : j < 32 := Nat.lt_of_lt_of_le (List.mem_range.mp hj) hm
  rw [show (32 * b + j) / 32 = b by omega, show (32 * b + j) % 32 = j by omega]

private theorem foldlM_full_words {α : Type} (g : Nat → Nat → α → Option α) (st : α) :
    ∀ b : Nat,
      (List.range b).foldlM (fun st i => (List.range 32).foldlM (fun st j => g i j st) st) st =
        (List.range (32 * b)).foldlM (fun st k => g (k / 32) (k % 32) st) st := by
  intro b
  induction b with
  | zero => rfl
  | succ b ih =>
    rw [List.range_succ (n := b), List.foldlM_append, ih, show 32 * (b + 1) = 32 * b + 32 by omega,
      List.range_add, List.foldlM_append]
    refine congrArg _ (funext fun st' => ?_)
    rw [foldlM_word g b 32 (Nat.le_refl _), List.foldlM_cons]
    cases (List.range 32).foldlM (fun st j => g b j st) st' <;> rfl

/-- The loop positions `(i, j)` are the segments `32 * i + j` in increasing order. -/
theorem foldlM_range_words {α : Type} (g : Nat → Nat → α → Option α) (n : Nat) (st : α) :
    (List.range (n / 32 + 1)).foldlM (fun st i =>
        (List.range (if i ≠ n / 32 then 32 else n % 32)).foldlM (fun st j => g i j st) st) st =
      (List.range n).foldlM (fun st k => g (k / 32) (k % 32) st) st := by
  have hn : List.range n =
      List.range (32 * (n / 32)) ++ (List.range (n % 32)).map (32 * (n / 32) + ·) := by
    rw [← List.range_add, Nat.div_add_mod]
  rw [hn, List.foldlM_append, ← foldlM_full_words, List.range_succ, List.foldlM_append]
  rw [foldlM_ext (List.range (n / 32)) st (fun i hi st' => by
    rw [if_pos (Nat.ne_of_lt (List.mem_range.mp hi))])]
  refine congrArg _ (funext fun st' => ?_)
  rw [foldlM_word g (n / 32) (n % 32) (by omega), List.foldlM_cons, if_neg (by simp)]
  cases (List.range (n % 32)).foldlM (fun st j => g (n / 32) j st) st' <;> rfl

/-- `ll_ftp_get_missing_segs` looks at the segments `0 .. num_segs - 1`, in order. -/
theorem missingLoops_eq (f : LlFtp) (fillBuf : Bool) :
    missingLoops f fillBuf =
      (List.range f.numSegs.toNat).foldlM
        (fun st k => missingBit f.rxSegs fillBuf (k / 32) (k % 32) st) ⟨0, f.txBuf, false⟩ :=
  foldlM_range_words (fun i j st => missingBit f.rxSegs fillBuf i j st) _ _

/-- One position inside the array is defined: no store of the request leaves `tx_buf`. -/
theorem missingBit_isSome {rx : RxSegs} {fillBuf : Bool} {i j : Nat} (st : MissingScan)
    (hi : i < 75) : ∃ st', missingBit rx fillBuf i j st = some st' := by
  unfold missingBit
  split
  next => exact ⟨_, rfl⟩
  next =>
    rw [Vector.getElem?_eq_getElem hi]
    dsimp only
    split
    next => exact ⟨_, rfl⟩
    next =>
      split
      next => exact ⟨_, rfl⟩
      next hroom =>
        split
        next hfill =>
          -- A number is stored while fewer than `MAX_NUM_RETRY_SEGS` are, so its two bytes fit.
          have hnum : st.numMissingSegs.toNat < 16 := by
            rw [hfill, Bool.and_true, decide_eq_true_eq] at hroom
            exact Nat.lt_of_not_le hroom
          have hidx : ((st.numMissingSegs * 2).setWidth 8).toNat ≤ 30 := by
            rw [BitVec.toNat_setWidth, BitVec.toNat_mul, show (2 : U16).toNat = 2 from rfl]
            omega
          unfold putSegNum
          rw [dif_pos (by omega)]
          exact ⟨_, rfl⟩
        next => exact ⟨_, rfl⟩

/-- With at most `MAX_NUM_SEGMENTS` segments the loops of `ll_ftp_get_missing_segs`
stay in both arrays. -/
theorem getMissingSegs_isSome {f : LlFtp} (fillBuf : Bool) (h : f.numSegs.toNat ≤ 2400) :
    ∃ x, getMissingSegs f fillBuf = some x := by
  -- The scan goes on from any state it can be in, as long as the positions are in the array.
  have hfold : ∀ (ks : List Nat) (st : MissingScan), (∀ k ∈ ks, k < 2400) →
      ∃ st', ks.foldlM (fun st k => missingBit f.rxSegs fillBuf (k / 32) (k % 32) st) st =
        some st' := by
    intro ks
    induction ks with
    | nil => intro st _; exact ⟨st, rfl⟩
    | cons k ks ih =>
      intro st hk
      have hlt := hk k (List.mem_cons_self ..)
      obtain ⟨st₁, h₁⟩ :=
        @missingBit_isSome f.rxSegs fillBuf (k / 32) (k % 32) st (by omega)
      obtain ⟨st₂, h₂⟩ := ih st₁ fun k' h' => hk k' (List.mem_cons_of_mem _ h')
      refine ⟨st₂, ?_⟩
      rw [List.foldlM_cons, h₁]
      exact h₂
  obtain ⟨st, hst⟩ := hfold (List.range f.numSegs.toNat) ⟨0, f.txBuf, false⟩ (by
    intro k hk
    exact Nat.lt_of_lt_of_le (List.mem_range.mp hk) h)
  unfold getMissingSegs
  rw [missingLoops_eq, hst]
  exact ⟨_, rfl⟩

/-- The scan touches nothing but `tx_buf`. -/
theorem getMissingSegs_frame {f f' : LlFtp} {fillBuf : Bool} {n : U16}
    (h : getMissingSegs f fillBuf = some (n, f')) : f' = { f with txBuf := f'.txBuf } := by
  unfold getMissingSegs at h
  rw [Option.map_eq_some_iff] at h
  obtain ⟨st, -, heq⟩ := h
  simp only [Prod.mk.injEq] at heq
  rw [← heq.2]

end HostInterface.Ftp

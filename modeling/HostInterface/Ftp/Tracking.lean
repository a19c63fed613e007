import HostInterface.Ftp.Request
import HostInterface.Ftp.Writes
import Mathlib.Data.Finset.Card
import Mathlib.Data.Finset.Range

/-!
# Tracking received segments

The bitmap is there to hold a set: `received` is that set. Tracking a segment inserts
its number (`received_track`), so a sequence of them leaves the set of its members,
whatever their order and however often each comes (`received_trackAll`). The three
loops answer questions about the set: `tracking_counts` is what
`ll_ftp_num_missing_segs_get` and `ll_ftp_transfer_is_complete` say of it.

All that is about numbers below `MAX_NUM_SEGMENTS`. The guard of `ll_ftp_seg_num_track`
lets one more through, and `tracks_in_bitmap_iff` says that this one, whose word is the
first behind the array, is the only number that does harm.
-/

namespace HostInterface.Ftp

open Interact Prog

/-- The set the bitmap holds. -/
def received (rx : RxSegs) : Finset Nat :=
  (Finset.range 2400).filter fun k => segBit rx k = true

/-- Segments tracked one after the other. -/
def segNumsTrack (f : LlFtp) (segNums : List U16) : Option LlFtp :=
  segNums.foldlM segNumTrack f

theorem mem_received {rx : RxSegs} {k : Nat} : k ∈ received rx ↔ segBit rx k = true := by
  unfold received
  rw [Finset.mem_filter, Finset.mem_range]
  refine ⟨fun h => h.2, fun h => ⟨?_, h⟩⟩
  by_contra hge
  rw [segBit_out (Nat.le_of_not_lt hge)] at h
  cases h

@[simp] theorem received_replicate : received (Vector.replicate 75 0) = ∅ := by
  apply Finset.eq_empty_of_forall_notMem
  intro k hk
  rw [mem_received, segBit_replicate] at hk
  cases hk

/-- A tracked segment is inserted. -/
theorem received_track {f f' : LlFtp} {segNum : U16} (hs : segNum.toNat < 2400)
    (h : segNumTrack f segNum = some f') :
    received f'.rxSegs = insert segNum.toNat (received f.rxSegs) := by
  apply Finset.ext
  intro k
  rw [Finset.mem_insert, mem_received, mem_received]
  by_cases hk : k < 2400
  · rw [segNumTrack_bit hs h hk, Bool.or_eq_true, decide_eq_true_eq]
    exact or_comm
  · -- Past the array there are no bits, and no segment either.
    have hout : ∀ rx : RxSegs, segBit rx k = false := fun _ => segBit_out (Nat.le_of_not_lt hk)
    rw [hout, hout]
    constructor
    · intro hf
      cases hf
    · intro hor
      rcases hor with rfl | hf
      · exact absurd hs hk
      · cases hf

/-- **A sequence of segments leaves the set of its members**, and nothing else changes. -/
theorem received_trackAll {segNums : List U16} :
    ∀ {f : LlFtp}, (∀ n ∈ segNums, n.toNat < 2400) →
      ∃ f', segNumsTrack f segNums = some f' ∧ f' = { f with rxSegs := f'.rxSegs } ∧
        received f'.rxSegs = received f.rxSegs ∪ (segNums.map BitVec.toNat).toFinset := by
  induction segNums with
  | nil =>
    intro f _
    exact ⟨f, rfl, rfl, by simp⟩
  | cons n ns ih =>
    intro f hs
    have hn := hs n (List.mem_cons_self ..)
    obtain ⟨f₁, h₁⟩ := segNumTrack_isSome (f := f) hn
    obtain ⟨f', hf', hframe, hset⟩ := ih (f := f₁) fun m hm => hs m (List.mem_cons_of_mem _ hm)
    refine ⟨f', ?_, ?_, ?_⟩
    · unfold segNumsTrack at hf' ⊢
      rw [List.foldlM_cons, h₁]
      exact hf'
    · obtain ⟨rx, rfl⟩ : ∃ rx, f₁ = { f with rxSegs := rx } := ⟨_, segNumTrack_frame h₁⟩
      exact hframe
    · rw [hset, received_track hn h₁, List.map_cons, List.toFinset_cons, Finset.insert_union,
        Finset.union_insert]

/-! ## What the loops say of the set -/

/-- Below the count, what is not received is missing. -/
theorem missing_add_received (rx : RxSegs) (n : Nat) :
    (missingSegs rx n).length + ((received rx).filter (· < n)).card = n := by
  have hmissing : (missingSegs rx n).length =
      ((Finset.range n).filter fun k => ¬ segBit rx k = true).card := by
    unfold missingSegs
    rw [← List.toFinset_card_of_nodup (List.nodup_range.filter _)]
    refine congrArg Finset.card (Finset.ext fun k => ?_)
    simp
  have hreceived : (received rx).filter (· < n) =
      (Finset.range n).filter fun k => segBit rx k = true := by
    ext k
    rw [Finset.mem_filter, Finset.mem_filter, mem_received, Finset.mem_range]
    exact and_comm
  rw [hmissing, hreceived, Nat.add_comm, Finset.card_filter_add_card_filter_not,
    Finset.card_range]

/-- No segment is missing exactly when all of them are received. -/
theorem missing_eq_zero {rx : RxSegs} {n : Nat} :
    (missingSegs rx n).length = 0 ↔ ∀ k, k < n → k ∈ received rx := by
  rw [List.length_eq_zero_iff, missingSegs, List.filter_eq_nil_iff]
  simp [mem_received]

/-- **Tracking counts distinct segments.** From an empty bitmap, any sequence of segments
below `MAX_NUM_SEGMENTS` leaves a bitmap in which as many are missing as the sequence has
no member for, and the transfer is complete exactly when there are none of these, that is,
when every segment occurs in the sequence. -/
theorem tracking_counts {f : LlFtp} (hclear : f.rxSegs = Vector.replicate 75 0)
    (hpos : 1 ≤ f.numSegs.toNat) (hmax : f.numSegs.toNat ≤ 2400) {segNums : List U16}
    (hs : ∀ n ∈ segNums, n.toNat < 2400) :
    let distinct := ((segNums.map BitVec.toNat).toFinset.filter (· < f.numSegs.toNat)).card
    ∃ f' complete, segNumsTrack f segNums = some f' ∧
      numMissingSegsGet f' = some ((f.numSegs.toNat : Int) - distinct) ∧
      transferIsComplete f' = some complete ∧
      (complete = true ↔ (f.numSegs.toNat : Int) - distinct = 0) ∧
      (complete = true ↔ ∀ k, k < f.numSegs.toNat → k ∈ segNums.map BitVec.toNat) := by
  intro distinct
  obtain ⟨f', htrack, hframe, hset⟩ := received_trackAll (f := f) hs
  rw [hclear, received_replicate, Finset.empty_union] at hset
  have hnum : f'.numSegs = f.numSegs := by rw [hframe]
  have hsum := missing_add_received f'.rxSegs f.numSegs.toNat
  rw [hset] at hsum
  have hcount : ((missingSegs f'.rxSegs f.numSegs.toNat).length : Int) =
      (f.numSegs.toNat : Int) - distinct := by
    show _ = (f.numSegs.toNat : Int) - (Finset.card _ : Nat)
    omega
  -- Both answers are about the missing segments.
  have hall : (List.range f'.numSegs.toNat).all (segBit f'.rxSegs) = true ↔
      (missingSegs f'.rxSegs f.numSegs.toNat).length = 0 := by
    rw [missing_eq_zero, hnum]
    simp [mem_received]
  refine ⟨f', _, htrack, ?_, transferIsComplete_eq (by rw [hnum]; exact hmax), ?_, ?_⟩
  · rw [numMissingSegsGet_eq (by rw [hnum]; exact hpos) (by rw [hnum]; exact hmax), hnum, hcount]
  · rw [hall, ← hcount]
    exact Int.natCast_eq_zero.symm
  · rw [hall, missing_eq_zero, hset]
    simp only [List.mem_toFinset]

/-- Forty segments, of which five numbers give three. -/
theorem tracking_counts_forty :
    let f := LlFtp.untouched 40
    let segNums : List U16 := [33, 0, 33, 1000, 7]
    let distinct := ((segNums.map BitVec.toNat).toFinset.filter (· < f.numSegs.toNat)).card
    ∃ f' complete, segNumsTrack f segNums = some f' ∧
      numMissingSegsGet f' = some ((f.numSegs.toNat : Int) - distinct) ∧
      transferIsComplete f' = some complete ∧
      (complete = true ↔ (f.numSegs.toNat : Int) - distinct = 0) ∧
      (complete = true ↔ ∀ k, k < f.numSegs.toNat → k ∈ segNums.map BitVec.toNat) :=
  tracking_counts rfl (by decide) (by decide) (by simp)

/-! ## Which word -/

/-- The index of the word that `ll_ftp_seg_num_track` updates, where its guard lets the
number through. -/
def trackedWord (segNum : U16) : Option Nat :=
  if segNum.toNat ≤ maxNumSegments then some (segNum.toNat / 32) else none

/-- Every number but `MAX_NUM_SEGMENTS` is turned away or has a word in the array. -/
theorem trackedWord_lt_iff {segNum : U16} :
    (∀ i, trackedWord segNum = some i → i < 75) ↔ segNum.toNat ≠ maxNumSegments := by
  unfold trackedWord
  constructor
  · intro h heq
    have := h 75 (by rw [heq]; rfl)
    omega
  · intro hne i hi
    split at hi
    next hle =>
      have hlt : segNum.toNat < 2400 := Nat.lt_of_le_of_ne hle hne
      rw [← Option.some.inj hi]
      omega
    next => cases hi

/-- Tracking is defined exactly where the word it updates is one of the array. -/
theorem segNumTrack_isSome_iff {f : LlFtp} {segNum : U16} :
    (∃ f', segNumTrack f segNum = some f') ↔ ∀ i, trackedWord segNum = some i → i < 75 := by
  unfold segNumTrack trackedWord
  split
  next =>
    dsimp only
    split
    next hlt =>
      refine iff_of_true ⟨_, rfl⟩ fun i hi => ?_
      rw [← Option.some.inj hi]
      exact hlt
    next hge =>
      refine iff_of_false (fun h => ?_) fun h => hge (h _ rfl)
      obtain ⟨f', hf'⟩ := h
      cases hf'
  next =>
    refine iff_of_true ⟨f, rfl⟩ fun i hi => ?_
    cases hi

/-- Recording the segment of `msg` stays in the bitmap: the word it updates is one of the
array, and whatever the write callback returns, no other field changes. -/
def TracksInBitmap (f : LlFtp) (msg : Msg) : Prop :=
  (∀ i, trackedWord msg.segmentNumber = some i → i < 75) ∧
    ∀ (t : Time) (r : RetCode), ∃ ret f',
      Runs (writeSegment (f.resetAt t) msg) [⟨writeCall msg, r⟩] (ret, f') ∧
        f' = { f.resetAt t with rxSegs := f'.rxSegs }

/-- **Tracking stays in the bitmap** exactly for the segment numbers other than
`MAX_NUM_SEGMENTS`. -/
theorem tracks_in_bitmap_iff (f : LlFtp) (msg : Msg) :
    TracksInBitmap f msg ↔ msg.segmentNumber.toNat ≠ maxNumSegments := by
  unfold TracksInBitmap
  rw [trackedWord_lt_iff]
  refine ⟨fun h => h.1, fun hne => ⟨hne, fun t r => ?_⟩⟩
  have hrun : ∀ {ret : RetCode} {f' : LlFtp},
      Runs (if r = RetCode.ok then do
          let g ← ofOption (segNumTrack (f.resetAt t) msg.segmentNumber)
          return (RetCode.ok, g)
        else Prog.done (.noAction, f.resetAt t)) [] (ret, f') →
      Runs (writeSegment (f.resetAt t) msg) [⟨writeCall msg, r⟩] (ret, f') :=
    fun h => .call h
  by_cases hok : r = RetCode.ok
  · obtain ⟨f', hf'⟩ := (segNumTrack_isSome_iff (f := f.resetAt t)).mpr
      (trackedWord_lt_iff.mpr hne)
    refine ⟨.ok, f', hrun ?_, segNumTrack_frame hf'⟩
    rw [if_pos hok, hf']
    exact .done _
  · refine ⟨.noAction, f.resetAt t, hrun ?_, rfl⟩
    rw [if_neg hok]
    exact .done _

/-- While the smallest file is received, a segment of it with the number 2400 arrives. -/
theorem segment_2400_tracked :
    let inputs := [some tinyInit]
    let msg := fileMsg 3 7 1 1 (le16 2400 ++ le16 1 ++ tinyImage 5)
    FtpRun (demoHist .willing inputs) (demoEnd .willing inputs) ∧
      WritesMsg (demoEnd .willing inputs) (some msg) (parseRxMsg (some msg)).2 ∧
      trackedWord (parseRxMsg (some msg)).2.segmentNumber = some 75 ∧
      ¬ TracksInBitmap (demoEnd .willing inputs) (parseRxMsg (some msg)).2 := by
  have hword : trackedWord (parseRxMsg (some (fileMsg 3 7 1 1
      (le16 2400 ++ le16 1 ++ tinyImage 5)))).2.segmentNumber = some 75 := by decide +kernel
  refine ⟨demo_run (by decide +kernel),
    ⟨parsed (by decide +kernel), by decide +kernel, by decide +kernel, by decide +kernel⟩,
    hword, fun h => ?_⟩
  exact absurd (h.1 75 hword) (Nat.lt_irrefl 75)

end HostInterface.Ftp

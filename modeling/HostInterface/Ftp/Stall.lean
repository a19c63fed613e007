import HostInterface.Ftp.Download

/-!
# Sixteen lost segments are too many

`Fair` lets a channel lose 15 of the segments asked for, one less than the number of
missing segments from which on the receiver asks for the whole file
(`MAX_NUM_RETRY_SEGS`). That is as many as it may lose: of an image with 17
segments or more `lateOnly` loses 16, and not all, whatever the request, and yet a sender
that asks again and again never hears that the file has been applied, however often it does
(`download_stalls`). The 16 it loses are always the same, so they stay missing, the receiver
asks for the whole file each time, and the answer brings none of them.
-/

namespace HostInterface.Ftp

open Interact Prog

/-- What is left of the segments asked for. -/
def late (I : Image) (ks : List Nat) : List Nat :=
  if ks = List.range I.count then ks.filter (16 ≤ ·) else ks

/-- The channel that loses the first 16 segments of the file where the whole file is asked
for, and nothing else. -/
def lateOnly (I : Image) : Option (List U8) → List RxBuf
  | none => []
  | some req => (late I ((requested I req).filter (· < I.count))).map I.segmentMsg

variable {I : Image}

/-- What comes through are segments of the image. -/
theorem lateOnly_sent (o : Option (List U8)) : ∀ b ∈ lateOnly I o, SegmentOf I b := by
  intro b hb
  cases o with
  | none => cases hb
  | some req =>
    obtain ⟨k, hk, rfl⟩ := List.mem_map.mp hb
    have hmem : k ∈ (requested I req).filter (· < I.count) := by
      unfold late at hk
      split at hk
      next => exact (List.mem_filter.mp hk).1
      next => exact hk
    exact (I.segmentMsg_spec (of_decide_eq_true (List.mem_filter.mp hmem).2)).1

/-- Of the whole file, the first 16 segments do not come through. -/
theorem lateOnly_whole {req : List U8} (h : requested I req = List.range I.count) :
    ∀ b ∈ lateOnly I (some req), 16 ≤ segNum b := by
  intro b hb
  have hall : (List.range I.count).filter (· < I.count) = List.range I.count :=
    List.filter_eq_self.mpr fun k hk => decide_eq_true (List.mem_range.mp hk)
  rw [lateOnly, h, hall, late, if_pos rfl] at hb
  obtain ⟨k, hk, rfl⟩ := List.mem_map.mp hb
  obtain ⟨hlt, hge⟩ := List.mem_filter.mp hk
  rw [(I.segmentMsg_spec (List.mem_range.mp hlt)).2]
  exact of_decide_eq_true hge

/-- It loses 16 segments at most, and never all. -/
theorem lateOnly_loses (hcount : 17 ≤ I.count) {req : List U8} (h : Answerable I req) :
    (lost I req (lateOnly I (some req))).length ≤ 16 ∧
      (lost I req (lateOnly I (some req))).length < (requested I req).length := by
  have hks : (requested I req).filter (· < I.count) = requested I req :=
    List.filter_eq_self.mpr fun k hk => decide_eq_true (h.known k hk)
  have hgot : ∀ k ∈ requested I req, I.segmentMsg k ∈ lateOnly I (some req) →
      k ∉ lost I req (lateOnly I (some req)) := by
    intro k hk hmem hlost
    have hany := (List.mem_filter.mp hlost).2
    rw [Bool.not_eq_true', List.any_eq_false] at hany
    exact hany _ hmem (beq_iff_eq.mpr (I.segmentMsg_spec (h.known k hk)).2)
  have hsub : ∀ k ∈ lost I req (lateOnly I (some req)), k ∈ requested I req :=
    fun k hk => (List.mem_filter.mp hk).1
  by_cases hwhole : requested I req = List.range I.count
  · -- What is lost is among the first 16.
    have hfew : lost I req (lateOnly I (some req)) ⊆ List.range 16 := by
      intro k hk
      rw [List.mem_range]
      by_contra hge
      refine hgot k (hsub k hk) ?_ hk
      rw [lateOnly, hks, late, if_pos hwhole]
      exact List.mem_map_of_mem
        (List.mem_filter.mpr ⟨hsub k hk, decide_eq_true (Nat.le_of_not_lt hge)⟩)
    have hnodup : (lost I req (lateOnly I (some req))).Nodup :=
      (h.increasing.imp Nat.ne_of_lt).filter _
    have hlen := (List.subperm_of_subset hnodup hfew).length_le
    rw [List.length_range] at hlen
    rw [hwhole, List.length_range]
    omega
  · have hnil : lost I req (lateOnly I (some req)) = [] := by
      refine List.eq_nil_iff_forall_not_mem.mpr fun k hk => hgot k (hsub k hk) ?_ hk
      rw [lateOnly, hks, late, if_neg hwhole]
      exact List.mem_map_of_mem (hsub k hk)
    rw [hnil]
    exact ⟨Nat.zero_le 16, List.length_pos_iff.mpr h.any⟩

/-- As long as the first 16 segments are missing, the whole file is asked for. -/
theorem whole_requested {seen : List RxBuf} {f g : LlFtp} {w : World} {len : U8}
    (hcount : 17 ≤ I.count) (hd : Delivering I seen f w) (hst : f.state = .segment)
    (hlate : ∀ k, k < 16 → ¬ Occurs seen k) (h : ackSegsRequestGenerate f = some (len, g)) :
    requested I (g.txBuf.toList.take len.toNat) = List.range I.count := by
  have hsub : List.range 16 ⊆ missingSegs f.rxSegs I.count := by
    intro k hk
    have hlt := List.mem_range.mp hk
    exact (hd.mem_missing hst).mpr ⟨by omega, hlate k hlt⟩
  have hlen := (List.subperm_of_subset List.nodup_range hsub).length_le
  rw [List.length_range] at hlen
  rcases requested_missing hd.count h with ⟨hfew, -⟩ | ⟨-, hreq⟩
  · omega
  · exact hreq

/-- A delivery that lacks a segment is in SEGMENT. -/
theorem Delivering.pending {seen : List RxBuf} {f : LlFtp} {w : World} (hd : Delivering I seen f w)
    {k : Nat} (hk : k < I.count) (hmiss : ¬ Occurs seen k) : f.state = .segment := by
  rcases hd.phase with ⟨hst, -⟩ | ⟨-, hall⟩
  · exact hst
  · exact absurd (hall k hk) hmiss

/-- However often the sender asks, the first 16 segments stay missing. -/
theorem download_stuck {p : Policy} (hp : ∀ e, p.ret e = .ok) {apply : Nat → RxBuf}
    (happly : ∀ n, ApplyOf I (apply n)) (hcount : 17 ≤ I.count) {seen : List RxBuf} {f : LlFtp}
    {w : World} (hd : Delivering I seen f w) (hlate : ∀ k, k < 16 → ¬ Occurs seen k) (n : Nat) :
    ∃ hist f' w', download p apply (fun _ => lateOnly I) n f w = some (hist, f', w') ∧
      f'.state = .segment ∧ applied hist = [] := by
  have hst : f.state = .segment := hd.pending (by omega) (hlate 0 (by omega))
  induction n generalizing seen f w with
  | zero => exact ⟨[], f, w, rfl, hst, rfl⟩
  | succ n ih =>
    obtain ⟨len, g, hist₁, f₁, w₁, hack, hnone, hd₁, hturn⟩ :=
      download_again (n := n) hp (happly n) (fun _ => lateOnly_sent) hd hst
    have hwhole := whole_requested hcount hd hst hlate hack
    have hlate₁ : ∀ k, k < 16 →
        ¬ Occurs (seen ++ lateOnly I (some (g.txBuf.toList.take len.toNat))) k := by
      rintro k hk ⟨b, hb, hnum⟩
      rcases List.mem_append.mp hb with hold | hnew
      · exact hlate k hk ⟨b, hold, hnum⟩
      · have := lateOnly_whole hwhole b hnew
        omega
    have hst₁ : f₁.state = .segment := hd₁.pending (by omega) (hlate₁ 0 (by omega))
    obtain ⟨hist, f', w', hmore, hst', happlied⟩ := ih hd₁ hlate₁ hst₁
    refine ⟨hist₁ ++ hist, f', w', hturn hmore, hst', ?_⟩
    rw [applied_append, hnone, happlied]
    rfl

/-- **Sixteen are too many**: a channel that loses no more than 16 of the segments asked for,
and never all, can keep a download from ever being applied. -/
theorem download_stalls {p : Policy} (hp : ∀ e, p.ret e = .ok) (hcount : 17 ≤ I.count) {f : LlFtp}
    (hidle : f.state = .idle) {b : RxBuf} (hinit : InitOf I b) {apply : Nat → RxBuf}
    (happly : ∀ n, ApplyOf I (apply n)) (w : World) :
    (∀ o, ∀ b ∈ lateOnly I o, SegmentOf I b) ∧
    (∀ req, Answerable I req → (lost I req (lateOnly I (some req))).length ≤ 16 ∧
      (lost I req (lateOnly I (some req))).length < (requested I req).length) ∧
    ∀ n, ∃ hist f₁ w₁ hist' f' w',
      execAll msgProcess (storage p) f [some b] w = some (hist, f₁, w₁) ∧
      download p apply (fun _ => lateOnly I) n f₁ w₁ = some (hist', f', w') ∧
      f'.state = .segment ∧ applied (hist ++ hist') = [] := by
  refine ⟨lateOnly_sent, fun req h => lateOnly_loses hcount h, fun n => ?_⟩
  obtain ⟨ret, f₁, w₁, ⟨tr, hx⟩, hd⟩ := init_delivers hp hidle hinit w
  have hlate : ∀ k, k < 16 → ¬ Occurs [] k := by
    rintro k - ⟨b', hb', -⟩
    cases hb'
  obtain ⟨hist', f', w', hdown, hst, happlied⟩ := download_stuck hp happly hcount hd hlate n
  refine ⟨[⟨f, some b, tr, ret, f₁⟩], f₁, w₁, hist', f', w', ?_, hdown, hst, ?_⟩
  · rw [execAll_cons hx]
    rfl
  · rw [applied_append, applied_cons, init_applied hinit hx, happlied]
    rfl

/-- A file of 1720 bytes in 17 segments. -/
def longImage : Image :=
  .ofFile 7 1 (List.replicate 1720 5) (by rw [List.length_replicate]; decide)
    (by rw [List.length_replicate]; decide) (by rw [List.length_replicate]; decide)

/-- Its download never ends. -/
theorem download_stalls_long :
    (∀ req, Answerable longImage req →
      (lost longImage req (lateOnly longImage (some req))).length ≤ 16) ∧
    ∀ n, ∃ hist f₁ w₁ hist' f' w',
      execAll msgProcess (storage .willing) LlFtp.blank.reinit [some longImage.initMsg] .empty =
        some (hist, f₁, w₁) ∧
      download .willing (fun _ => fileMsg 2 7 1 1720 []) (fun _ => lateOnly longImage) n f₁ w₁ =
        some (hist', f', w') ∧
      f'.state = .segment ∧ applied (hist ++ hist') = [] := by
  have hcount : 17 ≤ longImage.count := by
    show 17 ≤ ceilSegs (BitVec.ofNat 32 (List.replicate 1720 (5 : U8)).length).toNat
    rw [List.length_replicate]
    decide
  have happly : ∀ _ : Nat, ApplyOf longImage (fileMsg 2 7 1 1720 []) := fun _ =>
    ⟨by decide +kernel, by decide +kernel, by decide +kernel, by decide +kernel⟩
  obtain ⟨-, hloses, hstuck⟩ := download_stalls (p := .willing) (fun _ => rfl) hcount
    (reinit_state LlFtp.blank) longImage.initMsg_spec happly .empty
  exact ⟨fun req h => (hloses req h).1, hstuck⟩

end HostInterface.Ftp

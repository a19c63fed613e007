import HostInterface.Ftp.Repair
import HostInterface.Ftp.Ack
import HostInterface.Ftp.Apply

/-!
# A download, from the announcement to the application

The sender announces an image, sends segments, and then asks again and again to apply the
file, until it hears that this has been done (`download`). As long as segments are missing
the receiver answers with a request instead, and what the channel lets through of the
sender's answer to that arrives before the sender asks again.

What a `TX_APPLY` does in SEGMENT is `apply_early`, and what it does in APPLY is
`apply_applies`; no other message calls the apply callback (`MsgStep.not_applied`).
`download_again` is one turn of the sender's loop. `download_comes_through` puts them
together with the delivery and the repair: on a channel that is `Fair`, and with callbacks
that succeed, the sender asks no more often than the image has segments, and once more. The
receiver has then stored the whole image, called the apply callback once, for this file, and
is back in IDLE.
-/

namespace HostInterface.Ftp

open Interact Prog

/-- The message asks to apply the image. -/
structure ApplyOf (I : Image) (b : RxBuf) : Prop where
  accepted : (parseRxMsg (some b)).1 = .ok
  type : (parseRxMsg (some b)).2.msgType = .txApply
  id : (parseRxMsg (some b)).2.fileId = I.fileId
  version : (parseRxMsg (some b)).2.fileVersion = I.fileVersion

/-- The sender hears an `ACK_APPLY`. -/
def acknowledged (o : Option (List U8)) : Bool :=
  o.any fun buf => buf[0]? = some 6

/-- The sender asks to apply the file, and answers requests, till it hears that the file has
been applied, but no more than `n` times. -/
def download (p : Policy) (apply : Nat → RxBuf) (arrive : Nat → Option (List U8) → List RxBuf) :
    Nat → LlFtp → World → Option (List FtpStep × LlFtp × World)
  | 0, f, w => some ([], f, w)
  | n + 1, f, w =>
    (exec (storage p) (msgProcess f (some (apply n))) w).bind fun x =>
      if acknowledged (uplinkOf x.1) then
        some ([⟨f, some (apply n), x.1, x.2.1.1, x.2.1.2⟩], x.2.1.2, x.2.2)
      else
        (execAll msgProcess (storage p) x.2.1.2 ((arrive n (uplinkOf x.1)).map some) x.2.2).bind
          fun y => (download p apply arrive n y.2.1 y.2.2).map fun z =>
            (⟨f, some (apply n), x.1, x.2.1.1, x.2.1.2⟩ :: (y.1 ++ z.1), z.2)

/-- The calls of the apply callback. -/
def applications (tr : List Ev) : List (U32 × U32 × U32) :=
  tr.filterMap fun
    | ⟨.apply id version size, _⟩ => some (id, version, size)
    | _ => none

/-- Those of a history. -/
def applied (hist : List FtpStep) : List (U32 × U32 × U32) :=
  hist.flatMap fun st => applications st.events

@[simp] theorem applied_nil : applied [] = [] := rfl

@[simp] theorem applied_cons (st : FtpStep) (hist : List FtpStep) :
    applied (st :: hist) = applications st.events ++ applied hist := rfl

@[simp] theorem applied_append (hist hist' : List FtpStep) :
    applied (hist ++ hist') = applied hist ++ applied hist' := List.flatMap_append

theorem applications_nil {tr : List Ev} (h : Kind.apply ∉ kinds tr) : applications tr = [] := by
  refine List.filterMap_eq_nil_iff.mpr fun ev hev => ?_
  obtain ⟨e, r⟩ := ev
  cases e with
  | apply id version size => exact absurd (List.mem_map_of_mem hev) h
  | _ => rfl

/-! ## The steps -/

/-- Other messages do not apply anything. -/
theorem MsgStep.not_applied {f f' : LlFtp} {inp : Option RxBuf} {tr : List Ev} {ret : RetCode}
    (h : MsgStep f inp tr ret f') (hty : (parseRxMsg inp).2.msgType ≠ .txApply) :
    applications tr = [] := by
  refine applications_nil fun hap => ?_
  obtain ⟨hst, r, rest, htr, -⟩ := apply_call h hap
  have hseg : ∀ {g : LlFtp} {tr' : List Ev} {r' : RetCode} {msg : Msg},
      Receives f msg tr' r' g → False := fun hr =>
    absurd (hr.state.symm.trans hst) (by simp)
  cases h with
  | rejected _ _ => cases htr
  | ignored _ _ => cases htr
  | start _ _ hb => cases hb <;> cases htr
  | cancel _ _ _ _ hcl => cases hcl <;> cases htr
  | incomplete _ hr _ => exact hseg hr
  | verified _ hr _ _ _ => exact hseg hr
  | stuck _ hr _ _ _ => exact hseg hr
  | restarted _ hr _ _ _ => exact hseg hr
  | abandoned _ hr _ _ _ _ _ => exact hseg hr
  | request _ hseg' _ _ _ => exact absurd (hseg'.symm.trans hst) (by simp)
  | early _ _ _ _ => cases htr
  | retry _ _ _ _ _ _ _ => cases htr
  | giveUp _ _ _ _ _ _ => cases htr
  | held _ _ _ _ => cases htr
  | applied hp _ hty' _ _ _ => exact hty (by rw [hp]; exact hty')
  | applyRefused hp _ hty' _ _ _ => exact hty (by rw [hp]; exact hty')

section Downloads

variable {I : Image} {p : Policy} {seen : List RxBuf} {f : LlFtp} {w : World} {b : RxBuf}

/-- Asked too early, the receiver answers with a request. -/
theorem apply_early (hd : Delivering I seen f w) (hst : f.state = .segment) (hb : ApplyOf I b) :
    ∃ tr ret f' w', exec (storage p) (msgProcess f (some b)) w = some (tr, (ret, f'), w') ∧
      Delivering I seen f' w' ∧ applications tr = [] ∧ acknowledged (uplinkOf tr) = false ∧
      ∃ len g, ackSegsRequestGenerate f = some (len, g) ∧
        uplinkOf tr = some (g.txBuf.toList.take len.toNat) := by
  have hty : (parseRxMsg (some b)).2.msgType ≠ .txSegment := by simp [hb.type]
  obtain ⟨tr, ret, f', w', hx⟩ := hd.halts (p := p) hst hty
  obtain ⟨⟨len, g⟩, hack, r, t, htr, rfl⟩ :
      ∃ ack, ackSegsRequestGenerate f = some ack ∧ Sent f ack tr f' := by
    rcases (msgProcess_runs (exec_runs hx)).apply_cases hb.accepted hb.type with
      ⟨-, hreq⟩ | ⟨happly, -⟩ | ⟨hne, -⟩
    · exact hreq
    · exact absurd (happly.symm.trans hst) (by simp)
    · exact absurd hst hne
  have hup : uplinkOf tr = some (g.txBuf.toList.take len.toNat) := by
    rw [htr]
    rfl
  have hdata : w'.data = w.data := by
    rw [← (exec_follows hx).2]
    refine after_sends (fun ev hev => ?_) w
    rw [htr] at hev
    simp only [sentEvents, List.mem_cons, List.not_mem_nil, or_false] at hev
    rcases hev with rfl | rfl <;> trivial
  refine ⟨tr, ret, _, w', hx, hd.same rfl rfl rfl rfl rfl rfl hdata, ?_, ?_, len, g, hack, hup⟩
  · rw [htr]
    rfl
  · rw [hup]
    rcases ackSegsRequestGenerate_msg hack with ⟨-, hmsg⟩ | ⟨-, hmsg⟩ <;> rw [hmsg] <;> rfl

/-- Asked in APPLY, it applies the file, says so, and goes back to IDLE. -/
theorem apply_applies (hp : ∀ e, p.ret e = .ok) (hd : Delivering I seen f w)
    (hst : f.state = .apply) (hb : ApplyOf I b) :
    ∃ tr ret f' w', exec (storage p) (msgProcess f (some b)) w = some (tr, (ret, f'), w') ∧
      f'.state = .idle ∧ w'.data = w.data ∧ acknowledged (uplinkOf tr) = true ∧
      applications tr = [(I.fileId, I.fileVersion, I.fileSize)] := by
  have htotal : (msgProcess f (some b)).Total := by
    unfold msgProcess
    rw [hst]
    exact applyProcessMsg_total f (some b)
  obtain ⟨⟨ret, f'⟩, w', tr, hx⟩ := htotal.halts (h := storage p) w
  obtain ⟨hfollows, hafter⟩ := exec_follows hx
  have hmsg : (ackApplyGenerate f).2.txBuf.toList.take (ackApplyGenerate f).1.toNat =
      ackMsg 6 0 f.fileId f.fileVersion [] := by
    unfold ackApplyGenerate
    rw [(ackGenerate_msg _ _ _).1, (ackGenerate_msg _ _ _).2]
  refine ⟨tr, ret, f', w', hx, ?_⟩
  rcases (msgProcess_runs (exec_runs hx)).apply_cases hb.accepted hb.type with
    ⟨hseg, -⟩ | ⟨-, -, ⟨ts, g, tc, hs, hcl, rfl, htr⟩ | ⟨r, tc, hne, rfl⟩⟩ | ⟨-, hother, -⟩
  · exact absurd (hseg.symm.trans hst) (by simp)
  · generalize ackApplyGenerate f = ack at hs hmsg
    obtain ⟨r, t, rfl, rfl⟩ := hs
    cases hcl with
    | closed r' =>
      refine ⟨reinit_state _, ?_, ?_, ?_⟩
      · rw [← hafter, htr]
        rfl
      · have hup : uplinkOf tr = some (ack.2.txBuf.toList.take ack.1.toNat) := by
          rw [htr]
          rfl
        rw [hup, hmsg]
        rfl
      · rw [htr, ← hd.id, ← hd.version, ← hd.size]
        rfl
    | @refused r' hne =>
      -- The callback that closes the file does not refuse.
      rw [htr] at hfollows
      exact absurd (hfollows.2.2.2.1.trans (hp _)) hne
  · exact absurd (hfollows.1.trans (hp _)) hne
  · exact absurd ((hd.mine hb.id hb.version).symm.trans (hother hst)) (by simp)

/-- Segments of the image do not apply anything. -/
theorem segments_applied {segs : List RxBuf} (hsegs : ∀ b ∈ segs, SegmentOf I b)
    {hist : List FtpStep} {f' : LlFtp} {w' : World}
    (hx : execAll msgProcess (storage p) f (segs.map some) w = some (hist, f', w')) :
    applied hist = [] := by
  have hrun : Run msgProcess f hist f' := execAll_run .nil hx
  refine List.flatMap_eq_nil_iff.mpr fun st hst => ?_
  have hinp : st.input ∈ segs.map some := by
    rw [← execAll_inputs hx]
    exact List.mem_map_of_mem hst
  obtain ⟨b, hb, heq⟩ := List.mem_map.mp hinp
  refine (msgProcess_runs (hrun.mem hst).2).not_applied ?_
  rw [← heq, (hsegs b hb).type]
  simp

/-- Nor does the announcement. -/
theorem init_applied (hinit : InitOf I b) {tr : List Ev} {ret : RetCode} {f' : LlFtp} {w' : World}
    (hx : exec (storage p) (msgProcess f (some b)) w = some (tr, (ret, f'), w')) :
    applications tr = [] := by
  refine (msgProcess_runs (exec_runs hx)).not_applied ?_
  rw [hinit.type]
  simp

/-! ## The download -/

/-- One turn of the loop while segments are missing: what arrives adds to what has, and the
sender asks again. -/
theorem download_again (hp : ∀ e, p.ret e = .ok) {apply : Nat → RxBuf} {n : Nat}
    (happly : ApplyOf I (apply n)) {arrive : Nat → Option (List U8) → List RxBuf}
    (hsent : ∀ n o, ∀ b ∈ arrive n o, SegmentOf I b) (hd : Delivering I seen f w)
    (hst : f.state = .segment) :
    ∃ len g hist₁ f₁ w₁, ackSegsRequestGenerate f = some (len, g) ∧ applied hist₁ = [] ∧
      Delivering I (seen ++ arrive n (some (g.txBuf.toList.take len.toNat))) f₁ w₁ ∧
      ∀ {hist f' w'}, download p apply arrive n f₁ w₁ = some (hist, f', w') →
        download p apply arrive (n + 1) f w = some (hist₁ ++ hist, f', w') := by
  obtain ⟨tr, ret, f₀, w₀, hx, hd₀, hnone, hno, len, g, hack, hup⟩ :=
    apply_early (p := p) hd hst happly
  obtain ⟨hist₁, f₁, w₁, hx₁, hd₁⟩ :=
    segments_deliver hp (arrive n (uplinkOf tr)) (hsent _ _) hd₀
  rw [hup] at hd₁
  refine ⟨len, g, ⟨f, some (apply n), tr, ret, f₀⟩ :: hist₁, f₁, w₁, hack, ?_, hd₁, ?_⟩
  · rw [applied_cons, hnone, segments_applied (hsent _ _) hx₁]
    rfl
  · intro hist f' w' hmore
    simp only [download, hx, hx₁, hmore, hno, Option.bind_some, Option.map_some,
      Bool.false_eq_true, if_false, List.cons_append]

/-- **The transfer ends in the application.** On a fair channel, and with callbacks that
succeed, the sender asks no more than once for every missing segment, and once more. -/
theorem download_applied (hp : ∀ e, p.ret e = .ok) {apply : Nat → RxBuf}
    (happly : ∀ n, ApplyOf I (apply n)) {arrive : Nat → Option (List U8) → List RxBuf}
    (hsent : ∀ n o, ∀ b ∈ arrive n o, SegmentOf I b)
    (hfair : ∀ n req, Answerable I req → Fair I req (arrive n (some req)))
    (hd : Delivering I seen f w) {n : Nat} (hpos : 0 < n)
    (hn : f.state = .segment → (missingSegs f.rxSegs I.count).length < n) :
    ∃ hist f' w', download p apply arrive n f w = some (hist, f', w') ∧ f'.state = .idle ∧
      applied hist = [(I.fileId, I.fileVersion, I.fileSize)] ∧
      ∀ i, i < I.length → w'.data I.fileId I.fileVersion i = I.bytes i := by
  induction n generalizing seen f w with
  | zero => omega
  | succ n ih =>
    by_cases hst : f.state = .segment
    · -- Too early: a segment that was missing arrives, and the sender asks again.
      obtain ⟨len, g, hist₁, f₁, w₁, hack, hnone, hd₁, hturn⟩ :=
        download_again (n := n) hp (happly n) hsent hd hst
      have hmisses := hd.misses hst
      have hless := hn hst
      have hbrings := (hfair n _ (request_answerable hd.count hack hmisses)).brings hd.count hack
      have hn₁ : f₁.state = .segment → (missingSegs f₁.rxSegs I.count).length < n := by
        intro hst₁
        have hlt := (missing_decreases hd hst hd₁ hst₁).2 hbrings
        omega
      obtain ⟨hist, f', w', hmore, hidle, happlied, hdata⟩ := ih hd₁ (by omega) hn₁
      refine ⟨hist₁ ++ hist, f', w', hturn hmore, hidle, ?_, hdata⟩
      rw [applied_append, hnone, happlied]
      rfl
    · obtain ⟨hready, hdata⟩ := hd.complete hst
      obtain ⟨tr, ret, f', w', hx, hidle, heq, hyes, happlied⟩ :=
        apply_applies hp hd hready (happly n)
      refine ⟨[⟨f, some (apply n), tr, ret, f'⟩], f', w', ?_, hidle, ?_, ?_⟩
      · simp only [download, hx, hyes, Option.bind_some, if_true]
      · rw [applied_cons, happlied]
        rfl
      · rw [heq]
        exact hdata

/-- **A download comes through**: from IDLE, with whatever part of the segments arrives in
the first place, the image is stored and its file applied exactly once, and the receiver is
in IDLE again. -/
theorem download_comes_through (hp : ∀ e, p.ret e = .ok) (hidle : f.state = .idle)
    (hinit : InitOf I b) {segs : List RxBuf} (hsegs : ∀ b ∈ segs, SegmentOf I b)
    {apply : Nat → RxBuf} (happly : ∀ n, ApplyOf I (apply n))
    {arrive : Nat → Option (List U8) → List RxBuf} (hsent : ∀ n o, ∀ b ∈ arrive n o, SegmentOf I b)
    (hfair : ∀ n req, Answerable I req → Fair I req (arrive n (some req))) (w : World) {n : Nat}
    (hn : I.count < n) :
    ∃ hist f₁ w₁ hist' f' w',
      execAll msgProcess (storage p) f ((b :: segs).map some) w = some (hist, f₁, w₁) ∧
      download p apply arrive n f₁ w₁ = some (hist', f', w') ∧ f'.state = .idle ∧
      applied (hist ++ hist') = [(I.fileId, I.fileVersion, I.fileSize)] ∧
      ∀ i, i < I.length → w'.data I.fileId I.fileVersion i = I.bytes i := by
  obtain ⟨ret, f₀, w₀, ⟨tr, hx⟩, hd₀⟩ := init_delivers hp hidle hinit w
  obtain ⟨hist, f₁, w₁, hrest, hd₁⟩ := segments_deliver hp segs hsegs hd₀
  have hmissing : (missingSegs f₁.rxSegs I.count).length ≤ I.count := by
    unfold missingSegs
    exact (List.length_filter_le _ _).trans (List.length_range ▸ Nat.le_refl _)
  obtain ⟨hist', f', w', hdown, hidle', happlied, hdata⟩ :=
    download_applied hp happly hsent hfair hd₁ (Nat.zero_lt_of_lt hn) fun _ => by omega
  refine ⟨⟨f, some b, tr, ret, f₀⟩ :: hist, f₁, w₁, hist', f', w', ?_, hdown, hidle', ?_, hdata⟩
  · rw [List.map_cons, execAll_cons hx, hrest]
    rfl
  · rw [List.cons_append, applied_cons, applied_append, init_applied hinit hx,
      segments_applied hsegs hrest, happlied]
    rfl

end Downloads

/-- The file of two segments, of which none arrives at first. -/
theorem download_pair :
    ∃ hist f₁ w₁ hist' f' w',
      execAll msgProcess (storage .willing) LlFtp.blank.reinit [some pairImage.initMsg] .empty =
        some (hist, f₁, w₁) ∧
      download .willing (fun _ => fileMsg 2 7 1 108 []) (fun _ => lastOnly pairImage) 3 f₁ w₁ =
        some (hist', f', w') ∧
      f'.state = .idle ∧ applied (hist ++ hist') = [(7, 1, 108)] ∧
      ∀ i, i < 124 → w'.data 7 1 i = pairImage.bytes i := by
  have happly : ∀ _ : Nat, ApplyOf pairImage (fileMsg 2 7 1 108 []) := fun _ =>
    ⟨by decide +kernel, by decide +kernel, by decide +kernel, by decide +kernel⟩
  have hnone : ∀ b ∈ ([] : List RxBuf), SegmentOf pairImage b := fun _ hb =>
    absurd hb List.not_mem_nil
  exact download_comes_through (p := .willing) (fun _ => rfl) (reinit_state LlFtp.blank)
    pairImage.initMsg_spec hnone happly (fun _ => lastOnly_sent) (fun _ _ h => lastOnly_fair h)
    .empty (by decide)

end HostInterface.Ftp

import HostInterface.Ftp.Delivery
import HostInterface.Ftp.Retry
import HostInterface.Ftp.Total

/-!
# Repair

What is lost on the way is asked for again. In a round of `rounds` the receiver is
nudged, by a tick or a `TX_APPLY` that comes too early; if it sends a request, the
sender answers it as `requested` reads it, and the receiver processes what the channel
lets through (`arrive`), together with whatever else of the image comes late.

The channel may lose up to 15 of the segments asked for, only never all (`Fair`).
`rounds_repair`: then no transfer is given up, and every request brings the number of
missing segments down, so there are at most as many requests as segments were missing
before the file is verified and the state is APPLY. The bound of 15 is the length of
the longest list: a sender asked for the whole file is asked for at least 16 segments
that are missing.
-/

namespace HostInterface.Ftp

open Interact Prog

/-- The segments a sender reads out of a request: those that are listed, or all. -/
def requested (I : Image) (req : List U8) : List Nat :=
  if req[5]? = some 0xFD then segNumbers (req.drop 14) else List.range I.count

/-- What is asked for and does not arrive. -/
def lost (I : Image) (req : List U8) (got : List RxBuf) : List Nat :=
  (requested I req).filter fun k => !got.any fun b => segNum b == k

/-- The request asks for segments of the image, in order, and for one at least. -/
structure Answerable (I : Image) (req : List U8) : Prop where
  any : requested I req ≠ []
  known : ∀ k ∈ requested I req, k < I.count
  increasing : (requested I req).Pairwise (· < ·)

/-- Of the segments asked for at most 15 are lost, and not all. -/
structure Fair (I : Image) (req : List U8) (got : List RxBuf) : Prop where
  few : (lost I req got).length ≤ 15
  notAll : (lost I req got).length < (requested I req).length

/-- What makes a receiver in SEGMENT ask: a tick, or a `TX_APPLY` of any file. -/
def Nudge (inp : Option RxBuf) : Prop :=
  (parseRxMsg inp).1 = .ok ∧
    ((parseRxMsg inp).2.msgType = .tick ∨ (parseRxMsg inp).2.msgType = .txApply)

/-- The uplink among the calls, if there is one. -/
def uplinkOf (tr : List Ev) : Option (List U8) :=
  tr.findSome? fun
    | ⟨.uplink buf _ _ _, _⟩ => some buf
    | _ => none

/-- One round: a nudge, the request it makes the receiver send, and what arrives then. -/
def round (p : Policy) (nudge : Option RxBuf) (arrive : Option (List U8) → List RxBuf) (f : LlFtp)
    (w : World) : Option (Option (List U8) × LlFtp × World) :=
  (exec (storage p) (msgProcess f nudge) w).bind fun x =>
    (execAll msgProcess (storage p) x.2.1.2 ((arrive (uplinkOf x.1)).map some) x.2.2).map fun y =>
      (uplinkOf x.1, y.2.1, y.2.2)

/-- Rounds as long as the state is SEGMENT, `n` at most, and how many requests they took. -/
def rounds (p : Policy) (nudge : Nat → Option RxBuf)
    (arrive : Nat → Option (List U8) → List RxBuf) :
    Nat → LlFtp → World → Option (Nat × LlFtp × World)
  | 0, f, w => some (0, f, w)
  | n + 1, f, w =>
    if f.state = .segment then
      (round p (nudge n) (arrive n) f w).bind fun x =>
        (rounds p nudge arrive n x.2.1 x.2.2).map fun y =>
          (y.1 + if x.1.isSome then 1 else 0, y.2.1, y.2.2)
    else some (0, f, w)

/-- Rounds take place in SEGMENT only. -/
theorem rounds_stop {p : Policy} {nudge : Nat → Option RxBuf}
    {arrive : Nat → Option (List U8) → List RxBuf} {f : LlFtp} (h : f.state ≠ .segment) (n : Nat)
    (w : World) : rounds p nudge arrive n f w = some (0, f, w) := by
  cases n with
  | zero => rfl
  | succ n => rw [rounds, if_neg h]

/-! ## The request -/

/-- The sender reads all the missing segments out of a request, and if they are fewer
than 16 no others. -/
theorem requested_missing {I : Image} {f g : LlFtp} {len : U8} (hnum : f.numSegs.toNat = I.count)
    (h : ackSegsRequestGenerate f = some (len, g)) :
    ((missingSegs f.rxSegs I.count).length < 16 ∧
      requested I (g.txBuf.toList.take len.toNat) = missingSegs f.rxSegs I.count) ∨
    (16 ≤ (missingSegs f.rxSegs I.count).length ∧
      requested I (g.txBuf.toList.take len.toNat) = List.range I.count) := by
  have hcount := I.count_bounds
  have hmsg := ackSegsRequestGenerate_msg h
  rw [hnum] at hmsg
  rcases hmsg with ⟨hfew, hmsg⟩ | ⟨hmany, hmsg⟩
  · refine Or.inl ⟨hfew, ?_⟩
    rw [hmsg]
    refine (if_pos rfl).trans (segNumbers_segList fun k hk => ?_)
    have := (mem_missingSegs.mp hk).1
    omega
  · refine Or.inr ⟨hmany, ?_⟩
    rw [hmsg]
    refine if_neg ?_
    show some (0xFF : U8) ≠ some 0xFD
    decide

/-- Where something is missing, the sender can answer the request. -/
theorem request_answerable {I : Image} {f g : LlFtp} {len : U8} (hnum : f.numSegs.toNat = I.count)
    (h : ackSegsRequestGenerate f = some (len, g))
    (hpos : 1 ≤ (missingSegs f.rxSegs I.count).length) :
    Answerable I (g.txBuf.toList.take len.toNat) := by
  have hcount := I.count_bounds
  rcases requested_missing hnum h with ⟨-, hreq⟩ | ⟨-, hreq⟩
  · refine ⟨?_, ?_, ?_⟩
    · rw [hreq]
      exact List.length_pos_iff.mp hpos
    · rw [hreq]
      exact fun k hk => (mem_missingSegs.mp hk).1
    · rw [hreq]
      exact missingSegs_increasing _ _
  · refine ⟨?_, ?_, ?_⟩
    · rw [hreq]
      refine List.length_pos_iff.mp ?_
      rw [List.length_range]
      exact hcount.1
    · rw [hreq]
      exact fun k hk => List.mem_range.mp hk
    · rw [hreq]
      exact List.pairwise_lt_range

/-- A fair answer brings a segment that was missing. -/
theorem Fair.brings {I : Image} {f g : LlFtp} {len : U8} {got : List RxBuf}
    (hnum : f.numSegs.toNat = I.count) (h : ackSegsRequestGenerate f = some (len, g))
    (hfair : Fair I (g.txBuf.toList.take len.toNat) got) :
    ∃ b ∈ got, segNum b ∈ missingSegs f.rxSegs I.count := by
  have hfew := hfair.few
  have hsome := hfair.notAll
  have hreq := requested_missing hnum h
  -- Otherwise everything missing is lost, which is more than the channel may lose.
  by_contra hnone
  have hlost : ∀ k ∈ missingSegs f.rxSegs I.count, (!got.any fun b => segNum b == k) = true := by
    intro k hk
    rw [Bool.not_eq_true', List.any_eq_false]
    intro b hb heq
    rw [beq_iff_eq] at heq
    exact hnone ⟨b, hb, heq ▸ hk⟩
  unfold lost at hfew hsome
  rcases hreq with ⟨-, hreq⟩ | ⟨hmany, hreq⟩
  · rw [hreq, List.filter_eq_self.mpr hlost] at hsome
    omega
  · rw [hreq] at hfew
    have hsub : missingSegs f.rxSegs I.count =
        (missingSegs f.rxSegs I.count).filter fun k => !got.any fun b => segNum b == k :=
      (List.filter_eq_self.mpr hlost).symm
    have hle : (missingSegs f.rxSegs I.count).length ≤
        ((List.range I.count).filter fun k => !got.any fun b => segNum b == k).length := by
      rw [hsub]
      exact (List.Sublist.filter _ List.filter_sublist).length_le
    omega

/-! ## The nudge -/

/-- What a nudge does in SEGMENT while retries are left: nothing, or the request. -/
theorem MsgStep.nudged {f f' : LlFtp} {inp : Option RxBuf} {tr : List Ev} {ret : RetCode}
    (h : MsgStep f inp tr ret f') (hn : Nudge inp) (hst : f.state = .segment)
    (hleft : f.retryCount.toNat < 5) :
    (∀ ev ∈ tr, IsSend ev.1) ∧
    ((uplinkOf tr = none ∧ f' = f) ∨
      ∃ len g t c, ackSegsRequestGenerate f = some (len, g) ∧
        uplinkOf tr = some (g.txBuf.toList.take len.toNat) ∧
        f' = { f.touch g.txBuf t with retryCount := c } ∧ c.toNat ≤ 5) := by
  obtain ⟨hok, htick | happly⟩ := hn
  · rcases h.tick_cases hok htick with ⟨hidle, -, -⟩ | ⟨-, t, rfl, rfl⟩ |
      ⟨-, -, t, ⟨len, g⟩, ts, g', -, hack, hs, rfl, rfl⟩ | ⟨-, hnone, -⟩
    · exact absurd (hidle.symm.trans hst) (by simp)
    · exact ⟨by simp [IsSend], Or.inl ⟨rfl, rfl⟩⟩
    · obtain ⟨r, t', rfl, rfl⟩ := hs
      unfold retryAck at hack
      rw [if_neg (by simp [hst])] at hack
      refine ⟨by simp [sentEvents, IsSend],
        Or.inr ⟨len, g, t', f.retryCount + 1, hack, rfl, rfl, ?_⟩⟩
      rw [toNat_retry hleft]
      omega
    · exact absurd hleft hnone
  · rcases h.apply_cases hok happly with ⟨-, ⟨len, g⟩, hack, hs⟩ | ⟨hother, -⟩ | ⟨hne, -⟩
    · obtain ⟨r, t, rfl, rfl⟩ := hs
      refine ⟨by simp [sentEvents, IsSend], Or.inr ⟨len, g, t, f.retryCount, hack, rfl, rfl, ?_⟩⟩
      omega
    · exact absurd (hother.symm.trans hst) (by simp)
    · exact absurd hst hne

/-- Uplinks and the clock leave what is stored. -/
theorem after_sends {p : Policy} {tr : List Ev} (h : ∀ ev ∈ tr, IsSend ev.1) (w : World) :
    (after (storage p) w tr).data = w.data := by
  induction tr generalizing w with
  | nil => rfl
  | cons ev tr ih =>
    obtain ⟨e, r⟩ := ev
    refine (ih (fun ev hev => h ev (List.mem_cons_of_mem _ hev)) _).trans ?_
    have he := h ⟨e, r⟩ (List.mem_cons_self ..)
    cases e with
    | uplink buf acked port maxPort => rfl
    | gettime => rfl
    | «open» id version size => exact he.elim
    | read id version offset len => exact he.elim
    | write id version offset payload len => exact he.elim
    | close id version => exact he.elim
    | apply id version size => exact he.elim
    | config downlinkOn => exact he.elim

/-- A delivery does not depend on the buffer, the clock and the retry counter. -/
theorem Delivering.same {I : Image} {seen : List RxBuf} {f f' : LlFtp} {w w' : World}
    (h : Delivering I seen f w) (hst : f'.state = f.state) (hid : f'.fileId = f.fileId)
    (hversion : f'.fileVersion = f.fileVersion) (hsize : f'.fileSize = f.fileSize)
    (hnum : f'.numSegs = f.numSegs) (hrx : f'.rxSegs = f.rxSegs) (hdata : w'.data = w.data) :
    Delivering I seen f' w' := by
  refine ⟨hid.trans h.id, hversion.trans h.version, hsize.trans h.size, ?_, ?_, ?_⟩
  · rw [hnum]
    exact h.count
  · rw [hdata]
    exact h.stored
  · rw [hst, hrx]
    exact h.phase

/-- The object of a delivery has counts that fit. -/
theorem Delivering.fits {I : Image} {seen : List RxBuf} {f : LlFtp} {w : World}
    (h : Delivering I seen f w) : Fits f := by
  refine ⟨?_, ?_⟩
  · rw [h.count]
    exact I.count_bounds.2
  · rw [h.size]
    exact I.small

section Rounds

variable {I : Image} {p : Policy} {seen : List RxBuf} {f : LlFtp} {w : World}

/-- In SEGMENT everything but a segment is processed without a fault. -/
theorem Delivering.halts (hd : Delivering I seen f w) (hst : f.state = .segment)
    {inp : Option RxBuf} (hty : (parseRxMsg inp).2.msgType ≠ .txSegment) :
    ∃ tr ret f' w', exec (storage p) (msgProcess f inp) w = some (tr, (ret, f'), w') := by
  have hpast : ¬ TracksPast f inp := by
    rintro ⟨msg, hp, -, hseg, -⟩
    rw [hp] at hty
    exact hty hseg
  have htotal : (msgProcess f inp).Total := by
    unfold msgProcess
    rw [hst]
    exact (segmentProcessMsg_total_iff hd.fits hst).mpr hpast
  obtain ⟨⟨ret, f'⟩, w', tr, hx⟩ := htotal.halts (h := storage p) w
  exact ⟨tr, ret, f', w', hx⟩

/-- The nudge is processed, and the delivery stands where it was. -/
theorem nudge_delivers (hd : Delivering I seen f w) (hst : f.state = .segment)
    (hleft : f.retryCount.toNat < 5) {inp : Option RxBuf} (hn : Nudge inp) :
    ∃ tr ret f' w', exec (storage p) (msgProcess f inp) w = some (tr, (ret, f'), w') ∧
      Delivering I seen f' w' ∧ f'.state = .segment ∧ f'.rxSegs = f.rxSegs ∧
      ((uplinkOf tr = none ∧ f'.retryCount = f.retryCount) ∨
        ∃ len g, ackSegsRequestGenerate f = some (len, g) ∧
          uplinkOf tr = some (g.txBuf.toList.take len.toNat)) := by
  have hty : (parseRxMsg inp).2.msgType ≠ .txSegment := by
    rcases hn.2 with h | h <;> simp [h]
  obtain ⟨tr, ret, f', w', hx⟩ := hd.halts (p := p) hst hty
  obtain ⟨hsends, hout⟩ := (msgProcess_runs (exec_runs hx)).nudged hn hst hleft
  have hdata : w'.data = w.data := by
    rw [← (exec_follows hx).2]
    exact after_sends hsends w
  refine ⟨tr, ret, f', w', hx, ?_⟩
  rcases hout with ⟨hnone, rfl⟩ | ⟨len, g, t, c, hack, hsome, rfl, -⟩
  · exact ⟨hd.same rfl rfl rfl rfl rfl rfl hdata, hst, rfl, Or.inl ⟨hnone, rfl⟩⟩
  · exact ⟨hd.same rfl rfl rfl rfl rfl rfl hdata, hst, rfl, Or.inr ⟨len, g, hack, hsome⟩⟩

/-- A segment of the current file resets the retry counter. -/
theorem MsgStep.reset {f f' : LlFtp} {b : RxBuf} {tr : List Ev} {ret : RetCode}
    (h : MsgStep f (some b) tr ret f') (hb : SegmentOf I b) (hne : f.state ≠ .idle)
    (hmine : isMyFile f (parseRxMsg (some b)).2 = true) : f'.retryCount = 0 := by
  have hsame : ∀ {msg' : Msg} {r : RetCode}, parseRxMsg (some b) = (r, msg') →
      r = .ok ∧ msg' = (parseRxMsg (some b)).2 := parse_unique (parsed hb.accepted)
  have htype : ∀ {P : Prop} {msg' : Msg} {ty : MsgType}, parseRxMsg (some b) = (.ok, msg') →
      msg'.msgType = ty → ty ≠ .txSegment → P := not_other_type (parsed hb.accepted) hb.type
  have hleave : ∀ {g : LlFtp} (r : RetCode), g.retryCount = 0 → (g.leave r).retryCount = 0 := by
    intro g r hg
    unfold LlFtp.leave
    split
    next => rfl
    next => exact hg
  cases h with
  | rejected hp hno => exact absurd (hsame hp).1 hno
  | ignored hp hi =>
    cases hi with
    | idle hidle _ _ => exact absurd hidle hne
    | again _ hty' _ => exact htype hp hty' (by simp)
    | cancelOther _ hty' _ => exact htype hp hty' (by simp)
    | applyOther _ hty' _ => exact htype hp hty' (by simp)
    | ack _ hty' =>
      rcases hty' with h' | h' | h'
      · exact htype hp h' (by simp)
      · exact htype hp h' (by simp)
      · exact htype hp h' (by simp)
  | start hp hs _ =>
    obtain ⟨-, rfl⟩ := hsame hp
    rcases hs.other with hidle | hother
    · exact absurd hidle hne
    · rw [hmine] at hother
      cases hother
  | cancel hp _ hty' _ _ => exact htype hp hty' (by simp)
  | incomplete _ hr _ => exact hr.retryCount_eq
  | verified _ hr _ _ hs =>
    have hcount := hs.retryCount_eq.trans hr.retryCount_eq
    exact hcount
  | stuck _ hr _ _ _ => exact hr.retryCount_eq
  | restarted _ _ _ _ _ => rfl
  | abandoned _ _ _ _ _ _ _ => exact hleave _ rfl
  | request hp _ hty' _ _ => exact htype hp hty' (by simp)
  | early hp _ hty' _ => exact htype hp hty' (by simp)
  | retry hp _ hty' _ _ _ _ => exact htype hp hty' (by simp)
  | giveUp hp _ hty' _ _ _ => exact htype hp hty' (by simp)
  | held _ _ _ _ => rfl
  | applied hp _ hty' _ _ _ => exact htype hp hty' (by simp)
  | applyRefused hp _ hty' _ _ _ => exact htype hp hty' (by simp)

/-- The segments one after the other, and the retry counter with them. -/
theorem segments_reset (hp : ∀ e, p.ret e = .ok) (segs : List RxBuf)
    (hsegs : ∀ b ∈ segs, SegmentOf I b) :
    ∀ {seen : List RxBuf} {f : LlFtp} {w : World}, Delivering I seen f w →
      ∃ hist f' w', execAll msgProcess (storage p) f (segs.map some) w = some (hist, f', w') ∧
        Delivering I (seen ++ segs) f' w' ∧
        f'.retryCount = if segs = [] then f.retryCount else 0 := by
  induction segs with
  | nil =>
    intro seen f w hd
    rw [List.append_nil]
    exact ⟨[], f, w, rfl, hd, rfl⟩
  | cons b segs ih =>
    intro seen f w hd
    have hb := hsegs b (List.mem_cons_self ..)
    obtain ⟨ret, f₁, w₁, ⟨tr, hx⟩, hd₁⟩ := segment_delivers hp hd hb
    have hmine := hd.mine hb.id hb.version
    have hne : f.state ≠ .idle := by
      rcases hd.phase with ⟨hst, -⟩ | ⟨hst, -⟩ <;> simp [hst]
    have hzero := (msgProcess_runs (exec_runs hx)).reset hb hne hmine
    obtain ⟨hist, f', w', hrest, hd', hcount⟩ :=
      ih (fun b' h' => hsegs b' (List.mem_cons_of_mem _ h')) hd₁
    refine ⟨⟨f, some b, tr, ret, f₁⟩ :: hist, f', w', ?_, ?_, ?_⟩
    · rw [List.map_cons, execAll_cons hx, hrest]
      rfl
    · rwa [List.append_cons]
    · rw [hcount, hzero]
      simp

/-- The missing segments of a delivery in SEGMENT are those that have not occurred. -/
theorem Delivering.mem_missing (hd : Delivering I seen f w) (hst : f.state = .segment) {k : Nat} :
    k ∈ missingSegs f.rxSegs I.count ↔ k < I.count ∧ ¬ Occurs seen k := by
  have hcount := I.count_bounds
  rcases hd.phase with ⟨-, -, hbits⟩ | ⟨happly, -⟩
  · rw [mem_missingSegs]
    refine and_congr_right fun hk => ?_
    rw [← hbits k (by omega), Bool.not_eq_true]
  · rw [hst] at happly
    cases happly

theorem Delivering.misses (hd : Delivering I seen f w) (hst : f.state = .segment) :
    1 ≤ (missingSegs f.rxSegs I.count).length := by
  rcases hd.phase with ⟨-, ⟨k, hk, hmiss⟩, -⟩ | ⟨happly, -⟩
  · exact List.length_pos_of_mem ((hd.mem_missing hst).mpr ⟨hk, hmiss⟩)
  · rw [hst] at happly
    cases happly

/-- More segments, fewer missing, and one fewer at least if one of them was. -/
theorem missing_decreases {got : List RxBuf} {f' : LlFtp} {w' : World}
    (hd : Delivering I seen f w) (hst : f.state = .segment)
    (hd' : Delivering I (seen ++ got) f' w') (hst' : f'.state = .segment) :
    (missingSegs f'.rxSegs I.count).length ≤ (missingSegs f.rxSegs I.count).length ∧
      ((∃ b ∈ got, segNum b ∈ missingSegs f.rxSegs I.count) →
        (missingSegs f'.rxSegs I.count).length < (missingSegs f.rxSegs I.count).length) := by
  -- What is missing now was missing before.
  have hfilter : missingSegs f'.rxSegs I.count =
      (missingSegs f.rxSegs I.count).filter fun k => !segBit f'.rxSegs k := by
    unfold missingSegs
    rw [List.filter_filter]
    refine List.filter_congr fun k hk => ?_
    have hlt : k < I.count := List.mem_range.mp hk
    by_cases hbit : segBit f'.rxSegs k = true
    · simp [hbit]
    · have hmiss := (hd'.mem_missing hst').mp (mem_missingSegs.mpr ⟨hlt, by simpa using hbit⟩)
      have hold : k ∈ missingSegs f.rxSegs I.count := by
        refine (hd.mem_missing hst).mpr ⟨hlt, fun hocc => hmiss.2 ?_⟩
        obtain ⟨b, hb, hnum⟩ := hocc
        exact ⟨b, List.mem_append_left _ hb, hnum⟩
      simp [(mem_missingSegs.mp hold).2, hbit]
  rw [hfilter]
  refine ⟨List.length_filter_le _ _, fun hnew => ?_⟩
  obtain ⟨b, hb, hmem⟩ := hnew
  refine List.length_filter_lt_length_iff_exists.mpr ⟨segNum b, hmem, ?_⟩
  intro hbit
  have hmiss := (hd'.mem_missing hst').mp
    (mem_missingSegs.mpr ⟨(mem_missingSegs.mp hmem).1, by simpa using hbit⟩)
  exact hmiss.2 ⟨b, List.mem_append_right _ hb, rfl⟩

/-- **One round**: it is processed, the transfer is not given up, and a request has an
effect. -/
theorem round_delivers (hp : ∀ e, p.ret e = .ok) (hd : Delivering I seen f w)
    (hst : f.state = .segment) (hleft : f.retryCount.toNat < 5) {nudge : Option RxBuf}
    (hn : Nudge nudge) {arrive : Option (List U8) → List RxBuf}
    (hsent : ∀ o, ∀ b ∈ arrive o, SegmentOf I b)
    (hfair : ∀ req, Answerable I req → Fair I req (arrive (some req))) :
    ∃ o f' w', round p nudge arrive f w = some (o, f', w') ∧
      Delivering I (seen ++ arrive o) f' w' ∧ f'.retryCount.toNat < 5 ∧
      (f'.state = .segment →
        (missingSegs f'.rxSegs I.count).length + (if o.isSome then 1 else 0) ≤
          (missingSegs f.rxSegs I.count).length) := by
  obtain ⟨tr, ret, f₁, w₁, hx, hd₁, hst₁, hrx, hout⟩ := nudge_delivers (p := p) hd hst hleft hn
  have hbrings : ∀ {len : U8} {g : LlFtp}, ackSegsRequestGenerate f = some (len, g) →
      ∃ b ∈ arrive (some (g.txBuf.toList.take len.toNat)),
        segNum b ∈ missingSegs f.rxSegs I.count := fun hack =>
    (hfair _ (request_answerable hd.count hack (hd.misses hst))).brings hd.count hack
  obtain ⟨hist, f', w', hrest, hd', hcount⟩ :=
    segments_reset hp (arrive (uplinkOf tr)) (hsent _) hd₁
  refine ⟨uplinkOf tr, f', w', ?_, hd', ?_, fun hst' => ?_⟩
  · unfold round
    rw [hx]
    show (execAll _ _ f₁ _ w₁).map _ = _
    rw [hrest]
    rfl
  · rw [hcount]
    split
    next hnil =>
      -- A request is never answered with nothing, so there was none.
      rcases hout with ⟨-, heq⟩ | ⟨len, g, hack, hsome⟩
      · rw [heq]
        exact hleft
      · obtain ⟨b, hb, -⟩ := hbrings hack
        rw [hsome] at hnil
        rw [hnil] at hb
        cases hb
    next => decide
  · obtain ⟨hle, hlt⟩ := missing_decreases hd₁ hst₁ hd' hst'
    rw [hrx] at hle hlt
    rcases hout with ⟨hnone, -⟩ | ⟨len, g, hack, hsome⟩
    · rw [hnone]
      exact hle
    · rw [hsome] at hlt ⊢
      exact hlt (hbrings hack)

/-- A delivery that has left SEGMENT is complete. -/
theorem Delivering.complete (hd : Delivering I seen f w) (hst : f.state ≠ .segment) :
    f.state = .apply ∧ ∀ i, i < I.length → w.data I.fileId I.fileVersion i = I.bytes i := by
  rcases hd.phase with ⟨hseg, -⟩ | ⟨happly, hall⟩
  · exact absurd hseg hst
  · exact ⟨happly, fun i hi => stored_image (fun k hk => hd.stored k (hall k hk)) hi⟩

/-- **Repair.** Against storage whose callbacks succeed and a channel that loses at most 15
of the segments asked for and never all of them, the rounds of a transfer never give it
up: they end in APPLY with the image in storage after as many requests at most as
segments were missing, or in SEGMENT with some still missing and one fewer for every
request. -/
theorem rounds_repair (hp : ∀ e, p.ret e = .ok) {nudge : Nat → Option RxBuf}
    (hn : ∀ n, Nudge (nudge n)) {arrive : Nat → Option (List U8) → List RxBuf}
    (hsent : ∀ n o, ∀ b ∈ arrive n o, SegmentOf I b)
    (hfair : ∀ n req, Answerable I req → Fair I req (arrive n (some req)))
    (hd : Delivering I seen f w)
    (hst : f.state = .segment) (hleft : f.retryCount.toNat < 5) (n : Nat) :
    ∃ m f' w', rounds p nudge arrive n f w = some (m, f', w') ∧
      ((f'.state = .apply ∧ m ≤ (missingSegs f.rxSegs I.count).length ∧
          ∀ i, i < I.length → w'.data I.fileId I.fileVersion i = I.bytes i) ∨
        (f'.state = .segment ∧ 1 ≤ (missingSegs f'.rxSegs I.count).length ∧
          m + (missingSegs f'.rxSegs I.count).length ≤
            (missingSegs f.rxSegs I.count).length)) := by
  have hpos := hd.misses hst
  induction n generalizing seen f w with
  | zero => exact ⟨0, f, w, rfl, Or.inr ⟨hst, hpos, by omega⟩⟩
  | succ n ih =>
    obtain ⟨o, f₁, w₁, hround, hd₁, hleft₁, hless⟩ :=
      round_delivers hp hd hst hleft (hn n) (hsent n) (hfair n)
    have hone : (if o.isSome then 1 else 0) ≤ 1 := by split <;> omega
    have hrounds : ∀ {m : Nat} {f' : LlFtp} {w' : World},
        rounds p nudge arrive n f₁ w₁ = some (m, f', w') →
        rounds p nudge arrive (n + 1) f w =
          some (m + if o.isSome then 1 else 0, f', w') := by
      intro m f' w' hrest
      rw [rounds, if_pos hst, hround]
      show (rounds p nudge arrive n f₁ w₁).map _ = _
      rw [hrest]
      rfl
    by_cases hst₁ : f₁.state = .segment
    · have hone₁ := hless hst₁
      obtain ⟨m, f', w', hrest, hend⟩ := ih hd₁ hst₁ hleft₁ (hd₁.misses hst₁)
      refine ⟨_, f', w', hrounds hrest, ?_⟩
      rcases hend with ⟨happly, hm, hdata⟩ | ⟨hst', hmiss, hm⟩
      · exact Or.inl ⟨happly, by omega, hdata⟩
      · exact Or.inr ⟨hst', hmiss, by omega⟩
    · -- This round was the last one.
      obtain ⟨happly, hdata⟩ := hd₁.complete hst₁
      exact ⟨_, f₁, w₁, hrounds (rounds_stop hst₁ n w₁), Or.inl ⟨happly, by omega, hdata⟩⟩

end Rounds

/-- The file of two segments, announced and nothing else. -/
def LlFtp.announcedPair : LlFtp :=
  { LlFtp.blank with
    state := .segment, numSegs := 2, fileId := 7, fileVersion := 1, fileSize := 108 }

/-- A channel that only lets the last of the segments asked for through. -/
def lastOnly (I : Image) : Option (List U8) → List RxBuf
  | none => []
  | some req => ((requested I req).filter (· < I.count)).getLast?.toList.map I.segmentMsg

/-- What comes through are segments of the image. -/
theorem lastOnly_sent {I : Image} (o : Option (List U8)) :
    ∀ b ∈ lastOnly I o, SegmentOf I b := by
  intro b hb
  cases o with
  | none => cases hb
  | some req =>
    obtain ⟨k, hk, rfl⟩ := List.mem_map.mp hb
    have hmem := List.mem_of_getLast? (Option.mem_toList.mp hk)
    exact (I.segmentMsg_spec (of_decide_eq_true (List.mem_filter.mp hmem).2)).1

theorem lastOnly_fair {req : List U8} (h : Answerable pairImage req) :
    Fair pairImage req (lastOnly pairImage (some req)) := by
  have hknown : ∀ k ∈ requested pairImage req, k < 2 := h.known
  have hfilter : (requested pairImage req).filter (· < pairImage.count) =
      requested pairImage req :=
    List.filter_eq_self.mpr fun k hk => decide_eq_true (h.known k hk)
  have hlength : (requested pairImage req).length ≤ 2 := by
    have hsub : requested pairImage req ⊆ List.range 2 :=
      fun k hk => List.mem_range.mpr (hknown k hk)
    have hnodup : (requested pairImage req).Nodup := h.increasing.imp Nat.ne_of_lt
    have := (List.subperm_of_subset hnodup hsub).length_le
    rwa [List.length_range] at this
  obtain ⟨k, hk⟩ := List.getLast?_isSome.mpr h.any |> Option.isSome_iff_exists.mp
  have hmem := List.mem_of_getLast? hk
  have hlt : (lost pairImage req (lastOnly pairImage (some req))).length <
      (requested pairImage req).length := by
    obtain ⟨-, hnum⟩ := pairImage.segmentMsg_spec (h.known k hmem)
    refine List.length_filter_lt_length_iff_exists.mpr ⟨k, hmem, ?_⟩
    simp [lastOnly, hfilter, hk, hnum]
  exact ⟨by omega, hlt⟩

/-- Three rounds, each begun by a `TX_APPLY` that comes too early. -/
theorem rounds_repair_pair :
    ∃ m f' w', rounds .willing (fun _ => some (fileMsg 2 7 1 108 [])) (fun _ => lastOnly pairImage)
        3 .announcedPair .empty = some (m, f', w') ∧
      ((f'.state = .apply ∧ m ≤ 2 ∧ ∀ i, i < 124 → w'.data 7 1 i = pairImage.bytes i) ∨
        (f'.state = .segment ∧ 1 ≤ (missingSegs f'.rxSegs 2).length ∧
          m + (missingSegs f'.rxSegs 2).length ≤ 2)) := by
  have hd : Delivering pairImage [] .announcedPair .empty := by
    refine ⟨rfl, rfl, rfl, rfl, ?_, Or.inl ⟨rfl, ⟨0, by decide, ?_⟩, ?_⟩⟩
    · rintro k ⟨b, hb, -⟩
      cases hb
    · rintro ⟨b, hb, -⟩
      cases hb
    · intro k _
      show segBit (Vector.replicate 75 0) k = true ↔ _
      rw [segBit_replicate]
      refine iff_of_false (by simp) ?_
      rintro ⟨b, hb, -⟩
      cases hb
  have hnudge : ∀ _ : Nat, Nudge (some (fileMsg 2 7 1 108 [])) :=
    fun _ => ⟨by decide +kernel, by decide +kernel⟩
  exact rounds_repair (p := .willing) (fun _ => rfl) hnudge (fun _ => lastOnly_sent)
    (fun _ _ h => lastOnly_fair h) hd rfl (by decide) 3

end HostInterface.Ftp
